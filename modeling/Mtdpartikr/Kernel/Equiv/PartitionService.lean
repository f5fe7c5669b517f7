import Mtdpartikr.Kernel.Equiv.Positions
import Mtdpartikr.Kernel.Equiv.Validation
import Mtdpartikr.Kernel.PartitionService

/-!
# The control device is a service for partition tables

* `deviceSystem_follows`: step by step, the device does what `partitionService` does, whatever the
  calls and whatever goes wrong in them.
-/

namespace Mtdpartikr

/-! ### Extents and requests -/

theorem extent_valid {mtd : MtdInfo} {offset length : UInt64} (h : Fits mtd offset length) :
    Extent.Valid mtd ⟨offset.toNat, length.toNat⟩ :=
  ⟨h.pos, h.le_size, h.offset_dvd, h.length_dvd⟩

/-- A device with the recipe invariant drafts a packing, and a request it has room for is one the
service grants. -/
theorem allowed_append {mtd : MtdInfo} {dev : MtdpartctlDevice} {partition : ExtMtdPartitionInfo}
    (hacc : Acceptable mtd dev.recipe.partitions partition.base) :
    Draft.Allowed (Extent.Valid mtd) Extent.Apart dev.tables
      (.append partition.base.extent) := by
  refine ⟨extent_valid hacc.fits, ?_⟩
  intro y hy
  obtain ⟨p, hp, rfl⟩ := List.mem_map.mp hy
  exact hacc.free p hp

/-! ### Registering a table -/

/-- The partitions of a registration over a recipe: the array was exactly the recipe, without an
entry left over, and the partitions are its parts. -/
theorem children_of_recipe {size : UInt64} {parts : List MtdRecipePart}
    (hfits : ∀ p ∈ parts, p.length ≠ 0 ∧ p.offset.toNat + p.length.toNat ≤ size.toNat) {k : ℕ} :
    ∀ {children : List ChildMtd},
      List.Forall₂ (ChildOf size) (parts.map (fillMtdPartition · MtdPartition.zero) ++
        List.replicate k MtdPartition.zero) children →
      k = 0 ∧ children.map ChildMtd.extent = parts.map MtdRecipePart.extent := by
  induction parts with
  | nil =>
    intro children h
    cases k with
    | zero =>
      obtain rfl := List.forall₂_nil_left_iff.mp h
      exact ⟨rfl, rfl⟩
    | succ k =>
      -- A zeroed entry has no name.
      rw [List.map_nil, List.nil_append, List.replicate_succ, List.forall₂_cons_left_iff] at h
      obtain ⟨_, _, hchild, _⟩ := h
      exact absurd rfl hchild.named
  | cons p parts ih =>
    intro children h
    rw [List.forall_mem_cons] at hfits
    rw [List.map_cons, List.cons_append, List.forall₂_cons_left_iff] at h
    obtain ⟨child, rest, hchild, hrest, rfl⟩ := h
    obtain ⟨hk, hmap⟩ := ih hfits.2 hrest
    obtain ⟨hoffset, hsize⟩ := hchild.extent hfits.1.1 hfits.1.2
    refine ⟨hk, ?_⟩
    rw [List.map_cons, List.map_cons, hmap, ChildMtd.extent, hoffset, hsize]
    rfl

/-- The array of a conversion that succeeds: the recipe, filled up with zeroed entries to the
length the counter says. -/
theorem convertRecipeToMtdPartitionsLocked_done {recipe : MtdRecipe} {kvzalloc : Bool} {ret : Int}
    {entries : Option (List MtdPartition)}
    (h : convertRecipeToMtdPartitionsLocked recipe kvzalloc = .ok (ret, entries)) (hret : 0 ≤ ret) :
    recipe.partitions ≠ [] ∧
      entries = some (recipe.partitions.map (fillMtdPartition · MtdPartition.zero) ++
        List.replicate (recipe.partsCount.toNat - recipe.partitions.length) MtdPartition.zero) := by
  unfold convertRecipeToMtdPartitionsLocked at h
  by_cases hzero : recipe.partsCount = 0
  · rw [if_pos hzero] at h
    obtain ⟨rfl, -⟩ := Prod.mk.inj (Except.ok.inj h)
    exact absurd hret (not_nonneg_neg _)
  rw [if_neg hzero] at h
  by_cases hempty : recipe.partitions.isEmpty = true
  · rw [if_pos hempty] at h
    cases h
  rw [if_neg hempty] at h
  cases kvzalloc with
  | false =>
    obtain ⟨rfl, -⟩ := Prod.mk.inj (Except.ok.inj h)
    exact absurd hret (not_nonneg_neg _)
  | true =>
    obtain ⟨array, hloop, h⟩ := bind_eq_ok h
    obtain ⟨-, rfl⟩ := Prod.mk.inj (Except.ok.inj h)
    have heq := convertRecipe.loop_eq recipe.partitions [] recipe.partsCount.toNat
    rw [List.length_nil, List.nil_append] at heq
    rw [heq] at hloop
    split_ifs at hloop
    obtain rfl := Except.ok.inj hloop
    exact ⟨fun hnil => hempty (List.isEmpty_iff.mpr hnil), rfl⟩

/-- The parts of a recipe are neither empty nor beyond the backing MTD, so the core makes them what
they are. -/
theorem RecipeInv.extents_children {mtd : MtdInfo} {parts : List MtdRecipePart}
    (hinv : RecipeInv mtd parts) {k : ℕ} {children : List ChildMtd}
    (h : List.Forall₂ (ChildOf mtd.size) (parts.map (fillMtdPartition · MtdPartition.zero) ++
      List.replicate k MtdPartition.zero) children) :
    children.map ChildMtd.extent = parts.map MtdRecipePart.extent := by
  refine (children_of_recipe (fun p hp => ?_) h).2
  have hfits := hinv.fits p hp
  refine ⟨?_, hfits.le_size⟩
  intro h0
  have hpos := hfits.pos
  rw [h0] at hpos
  exact absurd hpos (by decide)

/-- The tables after a respawn that was tried with the given array: the partitions of the array if
it succeeded, and else the old ones or none. -/
theorem respawnProxyMtdLocked_live {core : MtdCore} {dev : MtdpartctlDevice}
    (hcore : core.KeepsTable dev.backingMtd.size) {entries : Option (List MtdPartition)}
    {n : UInt64} {r : Int × MtdpartctlDevice × List CoreCall}
    (h : respawnProxyMtdLocked core dev entries n = .ok r) :
    (0 ≤ r.1 ∧ List.Forall₂ (ChildOf dev.backingMtd.size) (entries.getD [])
        r.2.1.proxy.mtd.partitions) ∨
    (r.1 < 0 ∧ (r.2.1.proxy.mtd.partitions = dev.proxy.mtd.partitions ∨
      r.2.1.proxy.mtd.partitions = [])) := by
  rcases respawnProxyMtdLocked_cases core dev entries n h with
    ⟨_, rfl⟩ | ⟨_, hret, rfl⟩ | ⟨_, hret, reg, rfl, rfl⟩
  · exact Or.inr ⟨neg_lt_zero _, Or.inl rfl⟩
  · exact Or.inr ⟨hret, Or.inl rfl⟩
  · obtain ⟨-, hempty⟩ := core.unregister_done _ hret
    -- The old partitions are gone, so a registration that fails leaves none.
    by_cases hreg : 0 ≤ (core.mtdDeviceParseRegister (core.mtdDeviceUnregister
        dev.proxy.mtd).2 entries n).1
    · exact Or.inl ⟨hreg, hcore.parseRegister _ _ _ hempty hreg⟩
    · exact Or.inr ⟨Int.not_le.mp hreg,
        Or.inr (core.parseRegister_failed _ _ _ (Int.not_le.mp hreg)).2⟩

/-- A respawn leaves the recipe and the backing MTD alone. -/
theorem respawnProxyMtdLocked_draft {core : MtdCore} {dev : MtdpartctlDevice}
    {entries : Option (List MtdPartition)} {n : UInt64}
    {r : Int × MtdpartctlDevice × List CoreCall}
    (h : respawnProxyMtdLocked core dev entries n = .ok r) :
    r.2.1.tables = { dev.tables with
      live := r.2.1.proxy.mtd.partitions.map ChildMtd.extent } := by
  obtain ⟨mtd, hdev⟩ := respawnProxyMtdLocked_frame core dev h
  rw [hdev]
  rfl

/-! ### What an immediate edit does to the table -/

/-- A successful immediate edit is one successful core call. -/
theorem immediateEditLocked_done {core : MtdCore} {proxy : ProxyMtd} {edit : ImmediateEdit}
    (h : 0 ≤ (immediateEditLocked core proxy edit).1) :
    ∃ call, edit.coreCall proxy.mtd = some call ∧ 0 ≤ (core.answer proxy.mtd call).1 ∧
      (immediateEditLocked core proxy edit).2.1 =
        { proxy with mtd := (core.answer proxy.mtd call).2 } := by
  unfold immediateEditLocked at h ⊢
  split_ifs at h ⊢
  · exact absurd h (not_nonneg_neg _)
  · cases hcall : edit.coreCall proxy.mtd with
    | none =>
      rw [hcall] at h
      exact absurd h (not_nonneg_neg _)
    | some call =>
      rw [hcall] at h
      exact ⟨call, rfl, h, rfl⟩

/-- A successful immediate add puts the extent at the end of the table. -/
theorem immediateEditLocked_add_live {core : MtdCore} {mtd : MtdInfo}
    (hcore : core.KeepsTable mtd.size) {proxy : ProxyMtd} {partInfo : MtdPartitionInfo}
    (hfits : Fits mtd partInfo.offset partInfo.length)
    (h : 0 ≤ (immediateEditLocked core proxy (.add partInfo)).1) :
    (immediateEditLocked core proxy (.add partInfo)).2.1.mtd.partitions.map ChildMtd.extent =
      proxy.mtd.partitions.map ChildMtd.extent ++ [partInfo.extent] := by
  obtain ⟨call, hcall, hret, heq⟩ := immediateEditLocked_done h
  obtain rfl := Option.some.inj hcall
  -- Inside the master neither argument changes its sign.
  have hlt := hcore.size_lt
  have hle := hfits.le_size
  have hpos := hfits.pos
  have hoffset := toInt_toInt64_of_lt (show partInfo.offset.toNat < 2 ^ 63 by omega)
  have hlength := toInt_toInt64_of_lt (show partInfo.length.toNat < 2 ^ 63 by omega)
  obtain ⟨index, hadd⟩ := hcore.addPartition proxy.mtd partInfo.name partInfo.offset.toInt64
    partInfo.length.toInt64 hret (by omega) (by omega) (by omega)
  rw [heq]
  show (core.mtdAddPartition proxy.mtd partInfo.name partInfo.offset.toInt64
    partInfo.length.toInt64).2.partitions.map ChildMtd.extent = _
  rw [hadd, List.map_append]
  rfl

/-- A successful immediate deletion removes what stands at the position. -/
theorem immediateEditLocked_del_live {core : MtdCore} {mtd : MtdInfo}
    (hcore : core.KeepsTable mtd.size) {proxy : ProxyMtd} {idx : UInt32}
    (h : 0 ≤ (immediateEditLocked core proxy (.del idx)).1) :
    idx.toNat < proxy.mtd.partitions.length ∧
      (immediateEditLocked core proxy (.del idx)).2.1.mtd.partitions =
        proxy.mtd.partitions.eraseIdx idx.toNat := by
  obtain ⟨call, hcall, hret, heq⟩ := immediateEditLocked_done h
  rw [heq]
  unfold ImmediateEdit.coreCall mtdRelativeMasterIndexToAbsoluteIndex at hcall
  simp only [relativeToAbsolute.loop_eq] at hcall
  split_ifs at hcall with hidx hneg hneg
  · obtain rfl := Option.some.inj hcall
    rw [← hidx]
    -- The walk stops at the first partition, and the core deletes the first one with its index.
    cases hlist : proxy.mtd.partitions with
    | nil =>
      rw [hlist] at hneg
      exact absurd (by decide) hneg
    | cons child rest =>
      rw [hlist] at hret
      refine ⟨by simp, ?_⟩
      have hdel := hcore.delPartition proxy.mtd child.index hret
      rw [hlist, List.eraseP_cons_of_pos (by simp)] at hdel
      exact hdel
  · exact absurd (by decide) hneg

/-! ### One call -/

/-- What the service did in a call: it explains the return value, the service grants it, and it
leads to the tables after the call. -/
structure Serves (dev dev' : MtdpartctlDevice) (call : DevCall) (ret : Int)
    (op : Draft.Op Extent) : Prop where
  explains : Explains dev call ret op
  allowed : Draft.Allowed (Extent.Valid dev.backingMtd) Extent.Apart dev.tables op
  tables : dev'.tables = dev.tables.apply op

/-- A call that failed and left the tables alone. -/
theorem serves_failed {dev dev' : MtdpartctlDevice} (call : DevCall) {ret : Int} (hret : ret < 0)
    (htables : dev'.tables = dev.tables) : Serves dev dev' call ret .idle := by
  refine ⟨?_, trivial, htables⟩
  unfold Explains
  rw [if_pos hret]
  exact Or.inl rfl

/-- A call that did what was asked for. -/
theorem serves_done {dev dev' : MtdpartctlDevice} {call : DevCall} {ret : Int} (hret : 0 ≤ ret)
    (hallowed : Draft.Allowed (Extent.Valid dev.backingMtd) Extent.Apart dev.tables
      (requestedOp dev call))
    (htables : dev'.tables = dev.tables.apply (requestedOp dev call)) :
    Serves dev dev' call ret (requestedOp dev call) := by
  refine ⟨?_, hallowed, htables⟩
  unfold Explains
  rw [if_neg (Int.not_lt.mpr hret)]

/-- A call that only looked at the tables, whatever it returned. -/
theorem serves_idle {dev dev' : MtdpartctlDevice} {call : DevCall} (ret : Int)
    (hcall : requestedOp dev call = .idle) (htables : dev'.tables = dev.tables) :
    Serves dev dev' call ret .idle := by
  by_cases hret : ret < 0
  · exact serves_failed call hret htables
  · -- Successful or not, such a call asks for nothing.
    have h := @serves_done dev dev' call ret (Int.not_lt.mp hret) (by rw [hcall]; trivial)
      (by rw [hcall]; exact htables)
    rwa [hcall] at h

/-- The respawn behind a dispatch or a withdrawal. -/
theorem serves_respawn {env : Env} {dev : MtdpartctlDevice}
    (hcore : env.core.KeepsTable dev.backingMtd.size) {call : DevCall} (hcall : Respawns call)
    {entries : Option (List MtdPartition)} {n : UInt64}
    {r : Int × MtdpartctlDevice × List CoreCall}
    (h : respawnProxyMtdLocked env.core dev entries n = .ok r)
    (hdone : ∀ children : List ChildMtd,
      List.Forall₂ (ChildOf dev.backingMtd.size) (entries.getD []) children →
        Draft.Allowed (Extent.Valid dev.backingMtd) Extent.Apart dev.tables
          (requestedOp dev call) ∧
        { dev.tables with live := children.map ChildMtd.extent } =
          dev.tables.apply (requestedOp dev call)) :
    ∃ op, Serves dev r.2.1 call r.1 op := by
  have htables := respawnProxyMtdLocked_draft h
  rcases respawnProxyMtdLocked_live hcore h with ⟨hret, hlive⟩ | ⟨hret, hlive | hlive⟩
  · obtain ⟨hallowed, happly⟩ := hdone _ hlive
    exact ⟨_, serves_done hret hallowed (htables.trans happly)⟩
  · refine ⟨_, serves_failed call hret ?_⟩
    rw [htables, hlive]
    rfl
  · -- The unregistration went through and the registration did not.
    refine ⟨.withdraw, ?_, trivial, ?_⟩
    · unfold Explains
      rw [if_pos hret]
      exact Or.inr ⟨hcall, rfl⟩
    · rw [htables, hlive]
      rfl

/-- A dispatch publishes the draft. -/
theorem serves_create {env : Env} {dev : MtdpartctlDevice}
    (hinv : RecipeInv dev.backingMtd dev.recipe.partitions)
    (hcore : env.core.KeepsTable dev.backingMtd.size) {r : Int × MtdpartctlDevice × List CoreCall}
    (h : createRecipePartitions env.core dev env.kvzalloc = .ok r) :
    ∃ op, Serves dev r.2.1 (.ioctl .recipeCreatePartitions) r.1 op := by
  rcases createRecipePartitions_cases env.core dev env.kvzalloc h with
    ⟨ret, entries, _, hret, rfl⟩ | ⟨ret, entries, hconv, hret, hresp⟩
  · exact ⟨_, serves_failed _ hret rfl⟩
  obtain ⟨hne, rfl⟩ := convertRecipeToMtdPartitionsLocked_done hconv hret
  refine serves_respawn hcore (Or.inl rfl) hresp fun children hchildren => ⟨?_, ?_⟩
  · exact fun hnil => hne (List.map_eq_nil_iff.mp hnil)
  · -- The children the core made are those of the draft, in its order.
    rw [hinv.extents_children hchildren]
    rfl

/-- Deleting the partitions withdraws the table. -/
theorem serves_delete {env : Env} {dev : MtdpartctlDevice}
    (hcore : env.core.KeepsTable dev.backingMtd.size) {r : Int × MtdpartctlDevice × List CoreCall}
    (h : deletePartitions env.core dev = .ok r) :
    ∃ op, Serves dev r.2.1 (.ioctl .deleteMtdPartitions) r.1 op := by
  refine serves_respawn hcore (Or.inr rfl) h fun children hchildren => ⟨trivial, ?_⟩
  obtain rfl := List.forall₂_nil_left_iff.mp hchildren
  rfl

/-- A change of the proxy's partitions only. -/
theorem tables_proxy (dev : MtdpartctlDevice) (proxy : ProxyMtd) :
    { dev with proxy := proxy }.tables =
      { dev.tables with live := proxy.mtd.partitions.map ChildMtd.extent } := rfl

/-- `ADD_MTD_PARTITION` inserts the extent it was asked for. -/
theorem serves_addMtdPartition {env : Env} {dev : MtdpartctlDevice}
    (hcore : env.core.KeepsTable dev.backingMtd.size) {partInfo : MtdPartitionInfo}
    {r : IoctlResult}
    (h : mtdpartctlChrdevIoctl env dev (.addMtdPartition (some partInfo)) = .ok r) :
    ∃ op, Serves dev r.dev (.ioctl (.addMtdPartition (some partInfo))) r.ret op := by
  rw [mtdpartctlChrdevIoctl_addMtdPartition] at h
  cases hlength : requestedLength dev.backingMtd partInfo.offset partInfo.length with
  | none =>
    rw [hlength] at h
    obtain rfl := Except.ok.inj h
    exact ⟨_, serves_failed _ (neg_lt_zero _) rfl⟩
  | some L =>
    rw [hlength] at h
    obtain ⟨ret, hverify, h⟩ := bind_eq_ok h
    split_ifs at h with hret
    · obtain rfl := Except.ok.inj h
      exact ⟨_, serves_failed _ hret rfl⟩
    obtain rfl := Except.ok.inj h
    -- The checks let only whole erase blocks through.
    have hfits : Fits dev.backingMtd partInfo.offset L := by
      rcases verifyPartitionBasicConditions_cases dev { partInfo with length := L } with
        ⟨hfits, -⟩ | ⟨-, heq⟩ | ⟨-, -, heq⟩
      · exact hfits
      · rw [heq] at hverify
        obtain rfl := Except.ok.inj hverify
        exact absurd (neg_lt_zero _) hret
      · rw [heq] at hverify
        cases hverify
    by_cases hedit : (immediateEditLocked env.core dev.proxy
        (.add { partInfo with length := L })).1 < 0
    · refine ⟨_, serves_failed _ hedit ?_⟩
      rw [tables_proxy, immediateEditLocked_failed _ _ _ hedit]
      rfl
    · have hreq : requestedOp dev (.ioctl (.addMtdPartition (some partInfo))) =
          .insert ⟨partInfo.offset.toNat, L.toNat⟩ := by
        simp only [requestedOp_addMtdPartition, adaptPossibleFullMtdPartitionLength_eq, hlength]
        rfl
      refine ⟨_, serves_done (Int.not_lt.mp hedit) ?_ ?_⟩
      · rw [hreq]
        exact extent_valid hfits
      · rw [hreq, tables_proxy,
          immediateEditLocked_add_live hcore hfits (Int.not_lt.mp hedit)]
        rfl

/-- `DEL_MTD_PARTITION` removes what stands at the position. -/
theorem serves_delMtdPartition {env : Env} {dev : MtdpartctlDevice}
    (hcore : env.core.KeepsTable dev.backingMtd.size) (idx : UInt32) :
    ∃ op, Serves dev { dev with proxy := (immediateEditLocked env.core dev.proxy (.del idx)).2.1 }
      (.ioctl (.delMtdPartition (some idx))) (immediateEditLocked env.core dev.proxy (.del idx)).1
      op := by
  by_cases hedit : (immediateEditLocked env.core dev.proxy (.del idx)).1 < 0
  · refine ⟨_, serves_failed _ hedit ?_⟩
    rw [tables_proxy, immediateEditLocked_failed _ _ _ hedit]
    rfl
  · obtain ⟨hidx, hdel⟩ := immediateEditLocked_del_live hcore (Int.not_lt.mp hedit)
    refine ⟨_, serves_done (Int.not_lt.mp hedit) ?_ ?_⟩
    · simpa [requestedOp_delMtdPartition, Draft.Allowed, MtdpartctlDevice.tables] using hidx
    · rw [tables_proxy, hdel, ← List.eraseIdx_map]
      rfl

/-- `RECIPE_ADD_PART` appends to the draft. -/
theorem serves_recipeAddPart {env : Env} {dev : MtdpartctlDevice}
    (hinv : RecipeInv dev.backingMtd dev.recipe.partitions) {partition : ExtMtdPartitionInfo}
    {r : Int × MtdpartctlDevice} (h : addRecipePart dev partition env.kvzalloc = .ok r) :
    ∃ op, Serves dev r.2 (.ioctl (.recipeAddPart (some partition))) r.1 op := by
  rcases addRecipePart_cases hinv partition env.kvzalloc with
    ⟨hacc, _, heq⟩ | ⟨_, _, heq⟩ | ⟨_, heq⟩ | ⟨_, _, heq⟩
  · rw [heq] at h
    obtain rfl := Except.ok.inj h
    refine ⟨_, serves_done le_rfl (allowed_append hacc) ?_⟩
    simp [requestedOp_recipeAddPart, MtdpartctlDevice.tables, MtdpartctlDevice.appendPart,
      Draft.State.apply, newRecipePart, MtdRecipePart.extent, MtdPartitionInfo.extent]
  · -- No memory for the part.
    rw [heq] at h
    obtain rfl := Except.ok.inj h
    exact ⟨_, serves_failed _ (neg_lt_zero _) rfl⟩
  · rw [heq] at h
    obtain rfl := Except.ok.inj h
    exact ⟨_, serves_failed _ (neg_lt_zero _) rfl⟩
  · -- Refused by the checks.
    rw [heq] at h
    cases h

/-- `RECIPE_DEL_PART` erases from the draft. -/
theorem serves_recipeDelPart (dev : MtdpartctlDevice) (idx : UInt32) :
    ∃ op, Serves dev (delRecipePart dev idx).2 (.ioctl (.recipeDelPart (some idx)))
      (delRecipePart dev idx).1 op := by
  have heq : delRecipePart dev idx = ((delRecipePartLocked dev.recipe idx).1,
    { dev with recipe := (delRecipePartLocked dev.recipe idx).2 }) := rfl
  rw [heq, delRecipePartLocked_eq]
  split_ifs with hidx
  · refine ⟨_, serves_done le_rfl ?_ ?_⟩
    · simpa [requestedOp_recipeDelPart, Draft.Allowed, MtdpartctlDevice.tables] using hidx
    · simp [requestedOp_recipeDelPart, MtdpartctlDevice.tables, Draft.State.apply,
        List.eraseIdx_map]
  · exact ⟨_, serves_failed _ (neg_lt_zero _) rfl⟩

/-- Every ioctl is an operation of the service. -/
theorem serves_ioctl {env : Env} {dev : MtdpartctlDevice}
    (hinv : RecipeInv dev.backingMtd dev.recipe.partitions)
    (hcore : env.core.KeepsTable dev.backingMtd.size) {cmd : Ioctl} {r : IoctlResult}
    (h : mtdpartctlChrdevIoctl env dev cmd = .ok r) :
    ∃ op, Serves dev r.dev (.ioctl cmd) r.ret op := by
  cases cmd with
  | addMtdPartition arg =>
    cases arg with
    | none =>
      -- An argument that cannot be copied ends every ioctl with one in the same way.
      obtain rfl := Except.ok.inj h
      exact ⟨_, serves_failed _ (neg_lt_zero _) rfl⟩
    | some partInfo => exact serves_addMtdPartition hcore h
  | delMtdPartition arg =>
    cases arg with
    | none =>
      obtain rfl := Except.ok.inj h
      exact ⟨_, serves_failed _ (neg_lt_zero _) rfl⟩
    | some idx =>
      obtain rfl := Except.ok.inj h
      exact serves_delMtdPartition hcore idx
  | recipeAddPart arg =>
    cases arg with
    | none =>
      obtain rfl := Except.ok.inj h
      exact ⟨_, serves_failed _ (neg_lt_zero _) rfl⟩
    | some partition =>
      obtain ⟨r', hadd, h⟩ := bind_eq_ok h
      obtain rfl := Except.ok.inj h
      exact serves_recipeAddPart hinv hadd
  | recipeDelPart arg =>
    cases arg with
    | none =>
      obtain rfl := Except.ok.inj h
      exact ⟨_, serves_failed _ (neg_lt_zero _) rfl⟩
    | some idx =>
      obtain rfl := Except.ok.inj h
      exact serves_recipeDelPart dev idx
  | recipeCreatePartitions =>
    obtain ⟨r', hcreate, h⟩ := bind_eq_ok h
    obtain rfl := Except.ok.inj h
    exact serves_create hinv hcore hcreate
  | deleteMtdPartitions =>
    obtain ⟨r', hdelete, h⟩ := bind_eq_ok h
    obtain rfl := Except.ok.inj h
    exact serves_delete hcore hdelete
  | restartRecipe =>
    obtain rfl := Except.ok.inj h
    exact ⟨_, serves_done le_rfl trivial rfl⟩
  | getInfo =>
    unfold mtdpartctlChrdevIoctl at h
    -- Whether or not the information could be copied out.
    split_ifs at h <;> (obtain rfl := Except.ok.inj h; exact ⟨_, serves_idle _ rfl rfl⟩)
  | listRecipeParts arg | getPartitionList arg =>
    cases arg with
    | none =>
      obtain rfl := Except.ok.inj h
      exact ⟨_, serves_idle _ rfl rfl⟩
    | some readCount =>
      unfold mtdpartctlChrdevIoctl at h
      split_ifs at h <;> (obtain rfl := Except.ok.inj h; exact ⟨_, serves_idle _ rfl rfl⟩)
  | unknown =>
    obtain rfl := Except.ok.inj h
    exact ⟨_, serves_idle _ rfl rfl⟩

/-- **Every call is an operation of the service.** -/
theorem serves_deviceCall {env : Env} {dev dev' : MtdpartctlDevice}
    (hinv : RecipeInv dev.backingMtd dev.recipe.partitions)
    (hcore : env.core.KeepsTable dev.backingMtd.size) {call : DevCall} {ret : Int}
    (h : deviceCall env dev call = .ok (ret, dev')) : ∃ op, Serves dev dev' call ret op := by
  cases call with
  | ioctl cmd =>
    obtain ⟨r, hioctl, h⟩ := bind_eq_ok h
    obtain ⟨rfl, rfl⟩ := Prod.mk.inj (Except.ok.inj h)
    exact serves_ioctl hinv hcore hioctl
  | «open» =>
    unfold deviceCall mtdpartctlChrdevOpen at h
    split_ifs at h
    · obtain ⟨rfl, rfl⟩ := Prod.mk.inj (Except.ok.inj h)
      exact ⟨_, serves_failed _ (neg_lt_zero _) rfl⟩
    · -- A new session discards the draft.
      obtain ⟨rfl, rfl⟩ := Prod.mk.inj (Except.ok.inj h)
      exact ⟨_, serves_done le_rfl trivial rfl⟩
  | release =>
    obtain ⟨rfl, rfl⟩ := Prod.mk.inj (Except.ok.inj h)
    exact ⟨_, serves_idle _ rfl rfl⟩
  | getDevice =>
    obtain ⟨rfl, rfl⟩ := Prod.mk.inj (Except.ok.inj h)
    -- The hooks count references and leave the table alone.
    have hmtd : (proxyMtdGetDevice dev.proxy).2.mtd = dev.proxy.mtd := by
      unfold proxyMtdGetDevice
      split_ifs <;> rfl
    refine ⟨_, serves_idle _ rfl ?_⟩
    show ({ dev with proxy := (proxyMtdGetDevice dev.proxy).2 } : MtdpartctlDevice).tables = _
    rw [tables_proxy, hmtd]
    rfl
  | putDevice =>
    obtain ⟨proxy, hput, h⟩ := bind_eq_ok h
    obtain ⟨rfl, rfl⟩ := Prod.mk.inj (Except.ok.inj h)
    refine ⟨_, serves_idle _ rfl ?_⟩
    unfold proxyMtdPutDevice at hput
    split_ifs at hput
    · cases hput
    · obtain rfl := Except.ok.inj hput
      rfl

/-! ### Whole runs -/

/-- A device and the state of the service it stands for. -/
structure Represents (mtd : MtdInfo) (dev : MtdpartctlDevice) (s : Draft.State Extent) :
    Prop where
  backingMtd : dev.backingMtd = mtd
  recipeInv : RecipeInv mtd dev.recipe.partitions
  tables : s = dev.tables

/-- The call of a step, with what it returned, explains the operation. -/
def ExplainsStep (dev : MtdpartctlDevice) (e : Env × DevCall) (op : Draft.Op Extent) : Prop :=
  ∃ ret dev', deviceCall e.1 dev e.2 = .ok (ret, dev') ∧ Explains dev e.2 ret op

/-- The device follows the service. -/
theorem deviceSystem_follows (mtd : MtdInfo) :
    TransitionSystem.Follows deviceSystem (partitionService mtd)
      (fun _ e => e.1.core.KeepsTable mtd.size) (Represents mtd) ExplainsStep := by
  rintro dev dev' ⟨env, call⟩ s ⟨rfl, hinv, rfl⟩ hcore hstep
  obtain ⟨ret, hcall⟩ := deviceCall_of_step hstep
  obtain ⟨op, hserves⟩ := serves_deviceCall hinv hcore hcall
  obtain ⟨hinv', hmtd, -⟩ := step_recipeInv hinv hstep
  rw [hmtd] at hinv'
  refine ⟨op, dev'.tables, ⟨ret, dev', hcall, hserves.explains⟩, ?_, hmtd, hinv', rfl⟩
  -- What the service grants it does, and that is what the device did.
  rw [hserves.tables]
  exact Draft.service_step hserves.allowed

/-- A device that has just been created has nothing drafted and nothing live. -/
theorem represents_create (backingMtd : MtdInfo) (proxyIndex : Int32) :
    Represents backingMtd (.create backingMtd proxyIndex) ⟨[], []⟩ :=
  ⟨rfl, .nil _, rfl⟩

/-- **A run of the device is a run of the service**, with one operation for each call. -/
theorem deviceRun_refines {backingMtd : MtdInfo} {proxyIndex : Int32} {es : List (Env × DevCall)}
    {dev' : MtdpartctlDevice} (hcore : ∀ e ∈ es, e.1.core.KeepsTable backingMtd.size)
    (hrun : deviceSystem.run (.create backingMtd proxyIndex) es = some dev') :
    ∃ ops, List.Forall₂ (fun x op => ExplainsStep x.1 x.2 op)
        (deviceSystem.taken (.create backingMtd proxyIndex) es) ops ∧
      (partitionService backingMtd).run ⟨[], []⟩ ops = some dev'.tables := by
  obtain ⟨ops, s, hops, hservice, hrep⟩ := (deviceSystem_follows backingMtd).run es
    (represents_create backingMtd proxyIndex)
    (fun x hx => hcore x.2 (TransitionSystem.mem_of_mem_taken es hx)) hrun
  rw [hrep.tables] at hservice
  exact ⟨ops, hops, hservice⟩

/-- Open the device and draft its one erase block. -/
def oneBlockCalls : List DevCall := [.open, .ioctl (.recipeAddPart (some oneBlockPart))]

theorem run_oneBlockCalls :
    deviceSystem.run (.create ⟨0, 0x1000, 0x1000⟩ 1) (keepingCalls oneBlockCalls) =
      some (openDevice.appendPart oneBlockPart) := by
  have hopen : deviceSystem.step (.create ⟨0, 0x1000, 0x1000⟩ 1) (.keeping, .open) =
      some openDevice := rfl
  have hadd : deviceSystem.step openDevice
      (.keeping, .ioctl (.recipeAddPart (some oneBlockPart))) =
        some (openDevice.appendPart oneBlockPart) :=
    step_addPart (RecipeInv.nil _) ⟨by decide, fun _ hp => nomatch hp⟩ rfl
  simp only [keepingCalls, oneBlockCalls, List.map_cons, List.map_nil, TransitionSystem.run, hopen,
    hadd, Option.bind_some]

theorem deviceRun_refines_oneBlock :
    ∃ ops, (partitionService ⟨0, 0x1000, 0x1000⟩).run ⟨[], []⟩ ops =
      some (openDevice.appendPart oneBlockPart).tables := by
  obtain ⟨ops, -, hrun⟩ :=
    deviceRun_refines (keepsTable_keepingCalls (by decide) _) run_oneBlockCalls
  exact ⟨ops, hrun⟩

end Mtdpartikr
