import Mtdpartikr.Kernel.Equiv.PartitionService

/-!
# The live partitions over whole runs of a device

Read off the service of `Kernel/PartitionService.lean`, which every run follows.

* `live_valid`: each live partition is a non-empty range of whole erase blocks inside the backing
  MTD.
* `live_apart`: unless `ADD_MTD_PARTITION` is used, no two of them share a byte.
* `dispatched_until_edited`: the table of a dispatch stays, and is what `GET_PARTITION_LIST` shows,
  until the live partitions are edited.
* `dispatchable_iff`: a table can be dispatched exactly when it is a non-empty packing.
-/

namespace Mtdpartikr

/-! ### Dispatches that succeed -/

/-- The dispatch of a recipe with its counter in step, on a proxy that nobody uses and the core
lets go of. -/
theorem createRecipePartitions_idle {core : MtdCore} {dev : MtdpartctlDevice}
    (hcount : dev.recipe.partsCount.toNat = dev.recipe.partitions.length)
    (hne : dev.recipe.partitions ≠ []) (hrefs : dev.proxy.useRefcnt = 0)
    (hunreg : 0 ≤ (core.mtdDeviceUnregister dev.proxy.mtd).1) :
    ∃ reg, reg = core.mtdDeviceParseRegister (core.mtdDeviceUnregister dev.proxy.mtd).2
        (some (dev.recipe.partitions.map (fillMtdPartition · MtdPartition.zero)))
        dev.recipe.partsCount ∧
      createRecipePartitions core dev true = .ok (reg.1, dev.respawned reg.2,
        [.mtdDeviceUnregister, .mtdDeviceParseRegister
          (some (dev.recipe.partitions.map (fillMtdPartition · MtdPartition.zero)))
          dev.recipe.partsCount]) := by
  have hzero : dev.recipe.partsCount ≠ 0 := mt (counter_eq_zero_iff hcount).mp hne
  refine ⟨_, rfl, ?_⟩
  unfold createRecipePartitions
  rw [convertRecipeToMtdPartitionsLocked_eq hcount, if_neg hne]
  simp only [bind, Except.bind, lt_self_iff_false, if_false, hzero]
  unfold respawnProxyMtdLocked respawnFlagged setProxyMtdAboutToRespawn
  have hnonneg : ¬ (0 : Int32) < 0 := by decide
  simp only [MtdpartctlDevice.respawned, hrefs, hnonneg, if_false, ne_eq, not_true_eq_false,
    Int.not_lt.mpr hunreg]
  rfl

/-- The dispatch of a recipe succeeds in a kernel in which nothing goes wrong. -/
theorem dispatch_succeeds {env : Env} {size : UInt64} {dev : MtdpartctlDevice}
    (henv : env.Succeeds size)
    (hcount : dev.recipe.partsCount.toNat = dev.recipe.partitions.length)
    (hne : dev.recipe.partitions ≠ []) (hrefs : dev.proxy.useRefcnt = 0) :
    ∃ r, mtdpartctlChrdevIoctl env dev .recipeCreatePartitions = .ok r ∧ 0 ≤ r.ret := by
  obtain ⟨reg, hreg, hcreate⟩ := createRecipePartitions_idle hcount hne hrefs
    (henv.core.unregister dev.proxy.mtd)
  -- Every entry has the name of its part, so the core registers them all.
  have hret : 0 ≤ reg.1 := by
    rw [hreg]
    refine henv.core.parseRegister _ _ _ fun entry hentry => ?_
    obtain ⟨p, -, rfl⟩ := List.mem_map.mp hentry
    exact Option.some_ne_none _
  refine ⟨⟨reg.1, dev.respawned reg.2, [.mtdDeviceUnregister, .mtdDeviceParseRegister
    (some (dev.recipe.partitions.map (fillMtdPartition · MtdPartition.zero)))
    dev.recipe.partsCount], .none⟩, ?_, hret⟩
  simp only [mtdpartctlChrdevIoctl, henv.kvzalloc, hcreate]
  rfl

/-- A packing of parts is a packing of extents. -/
theorem RecipeInv.inv_tables {mtd : MtdInfo} {dev : MtdpartctlDevice}
    (hinv : RecipeInv mtd dev.recipe.partitions) :
    (∀ x ∈ dev.tables.draft, x.Valid mtd) ∧ dev.tables.draft.Pairwise Extent.Apart := by
  constructor
  · intro x hx
    obtain ⟨p, hp, rfl⟩ := List.mem_map.mp hx
    exact extent_valid (hinv.fits p hp)
  · exact List.pairwise_map.mpr hinv.disjoint

/-- A dispatch that succeeds makes the recipe, a non-empty packing, the live table. -/
theorem dispatch_live {backingMtd : MtdInfo} {dev : MtdpartctlDevice} {env : Env} {r : IoctlResult}
    (hmtd : dev.backingMtd = backingMtd) (hinv : RecipeInv backingMtd dev.recipe.partitions)
    (henv : env.core.KeepsTable backingMtd.size)
    (hioctl : mtdpartctlChrdevIoctl env dev .recipeCreatePartitions = .ok r) (hret : 0 ≤ r.ret) :
    Represents backingMtd r.dev r.dev.tables ∧
      r.dev.tables.live = dev.recipe.partitions.map MtdRecipePart.extent ∧
      r.dev.tables.live ≠ [] ∧ (∀ x ∈ r.dev.tables.live, x.Valid backingMtd) ∧
      r.dev.tables.live.Pairwise Extent.Apart := by
  have hcall : deviceCall env dev (.ioctl .recipeCreatePartitions) = .ok (r.ret, r.dev) := by
    simp only [deviceCall, hioctl]
    rfl
  have hstep : deviceSystem.step dev (env, .ioctl .recipeCreatePartitions) = some r.dev := by
    simp only [deviceSystem, hcall]
  obtain ⟨op, s', ⟨ret, dev₁, hcall', hexp⟩, hservice, hrep'⟩ :=
    deviceSystem_follows backingMtd dev r.dev _ dev.tables ⟨hmtd, hinv, rfl⟩ henv hstep
  -- A dispatch that succeeds is explained by `publish` only.
  obtain ⟨rfl, -⟩ := Prod.mk.inj (Except.ok.inj (hcall.symm.trans hcall'))
  unfold Explains at hexp
  rw [if_neg (Int.not_lt.mpr hret)] at hexp
  obtain rfl : op = .publish := hexp
  obtain ⟨hne, hs'⟩ := Draft.service_step_iff.mp hservice
  have hlive : r.dev.tables.live = dev.tables.draft := by
    rw [← hrep'.tables, hs']
    rfl
  rw [hlive]
  exact ⟨⟨hrep'.backingMtd, hrep'.recipeInv, rfl⟩, rfl, hne, hinv.inv_tables⟩

/-! ### Tables that are submitted -/

/-- The calls that submit the requests one after another. -/
def addCalls (requests : List ExtMtdPartitionInfo) : List DevCall :=
  requests.map fun partition => .ioctl (.recipeAddPart (some partition))

/-- The device after requests that were all accepted. -/
def MtdpartctlDevice.appendParts (dev : MtdpartctlDevice) (requests : List ExtMtdPartitionInfo) :
    MtdpartctlDevice :=
  { dev with recipe := {
      partitions := dev.recipe.partitions ++ requests.map newRecipePart
      partsCount := dev.recipe.partsCount + UInt64.ofNat requests.length } }

theorem appendParts_cons (dev : MtdpartctlDevice) (partition : ExtMtdPartitionInfo)
    (requests : List ExtMtdPartitionInfo) :
    (dev.appendPart partition).appendParts requests = dev.appendParts (partition :: requests) := by
  have hcount : dev.recipe.partsCount + 1 + UInt64.ofNat requests.length =
      dev.recipe.partsCount + UInt64.ofNat (requests.length + 1) := by
    rw [UInt64.ofNat_add, UInt64.add_assoc, UInt64.add_comm 1]
    rfl
  simp only [MtdpartctlDevice.appendParts, MtdpartctlDevice.appendPart, List.append_assoc,
    List.map_cons, List.length_cons, hcount, List.singleton_append]

/-- Requests that make a packing of the recipe are accepted one after another. -/
theorem run_addCalls (requests : List ExtMtdPartitionInfo) :
    ∀ {es : List (Env × DevCall)} {dev : MtdpartctlDevice}, es.map Prod.snd = addCalls requests →
      (∀ e ∈ es, e.1.kvzalloc = true) →
      RecipeInv dev.backingMtd (dev.recipe.partitions ++ requests.map newRecipePart) →
      deviceSystem.run dev es = some (dev.appendParts requests) := by
  induction requests with
  | nil =>
    intro es dev hcalls _ _
    obtain rfl := List.map_eq_nil_iff.mp hcalls
    simp only [List.map_nil, TransitionSystem.run, MtdpartctlDevice.appendParts, List.append_nil,
      List.length_nil]
    rw [show UInt64.ofNat 0 = 0 from rfl, UInt64.add_zero]
  | cons partition requests ih =>
    intro es dev hcalls hk hinv
    obtain ⟨⟨env, call⟩, es, rfl, rfl, hrequests⟩ := List.map_eq_cons_iff.mp hcalls
    rw [List.forall_mem_cons] at hk
    have hdone : RecipeInv dev.backingMtd dev.recipe.partitions :=
      hinv.sublist (List.sublist_append_left _ _)
    have hmem : newRecipePart partition ∈
        dev.recipe.partitions ++ (partition :: requests).map newRecipePart := by simp
    have hacc : Acceptable dev.backingMtd dev.recipe.partitions partition.base := by
      refine ⟨hinv.fits _ hmem, fun q hq => ?_⟩
      exact (List.pairwise_append.mp hinv.disjoint).2.2 q hq (newRecipePart partition) (by simp)
    have hrest : RecipeInv (dev.appendPart partition).backingMtd
        ((dev.appendPart partition).recipe.partitions ++ requests.map newRecipePart) := by
      simpa [MtdpartctlDevice.appendPart, List.append_assoc] using hinv
    rw [TransitionSystem.run, step_addPart hdone hacc hk.1, Option.bind_some, ← appendParts_cons]
    exact ih hrequests hk.2 hrest

/-- The request for an extent. -/
def Extent.request (x : Extent) : ExtMtdPartitionInfo :=
  ⟨⟨UInt64.ofNat x.offset, UInt64.ofNat x.length, CBuf.zero _⟩, false, false⟩

theorem extent_request {mtd : MtdInfo} {x : Extent} (h : x.Valid mtd) :
    (newRecipePart x.request).extent = x := by
  have hsize := mtd.size.toNat_lt
  have hle := h.le_size
  show (⟨(UInt64.ofNat x.offset).toNat, (UInt64.ofNat x.length).toNat⟩ : Extent) = x
  rw [UInt64.toNat_ofNat_of_lt' (by rw [UInt64.size]; omega),
    UInt64.toNat_ofNat_of_lt' (by rw [UInt64.size]; omega)]

theorem extents_requests {mtd : MtdInfo} {table : List Extent}
    (hvalid : ∀ x ∈ table, x.Valid mtd) :
    ((table.map Extent.request).map fun partition => (newRecipePart partition).extent) = table := by
  rw [List.map_map]
  exact (List.map_congr_left fun x hx => extent_request (hvalid x hx)).trans (List.map_id table)

/-- A packing of extents is a packing of requests. -/
theorem recipeInv_requests {mtd : MtdInfo} {table : List Extent}
    (hvalid : ∀ x ∈ table, x.Valid mtd) (hapart : table.Pairwise Extent.Apart) :
    RecipeInv mtd ((table.map Extent.request).map newRecipePart) := by
  rw [List.map_map]
  have hrange : ∀ p : MtdRecipePart, p.range = p.extent.bytes := fun _ => rfl
  refine ⟨?_, ?_, ?_⟩
  · intro p hp
    obtain ⟨x, hx, rfl⟩ := List.mem_map.mp hp
    have hv := hvalid x hx
    rw [← extent_request hv] at hv
    exact ⟨hv.pos, hv.le_size, hv.offset_dvd, hv.length_dvd⟩
  · intro p hp
    obtain ⟨x, hx, rfl⟩ := List.mem_map.mp hp
    rw [← CBuf.cString_isSome_iff, Function.comp_apply, newRecipePart_cString]
    rfl
  · rw [List.pairwise_map]
    refine hapart.imp_of_mem fun {x y} hx hy hxy => ?_
    rw [Function.comp_apply, Function.comp_apply, hrange, hrange, extent_request (hvalid x hx),
      extent_request (hvalid y hy)]
    exact hxy

/-- The requests of a packing are accepted by a device with an empty recipe. -/
theorem run_packing {dev : MtdpartctlDevice} (hempty : dev.recipe = ⟨[], 0⟩)
    {requests : List ExtMtdPartitionInfo}
    (hinv : RecipeInv dev.backingMtd (requests.map newRecipePart)) {es : List (Env × DevCall)}
    (hcalls : es.map Prod.snd = addCalls requests) (hk : ∀ e ∈ es, e.1.kvzalloc = true) :
    deviceSystem.run dev es = some (dev.appendParts requests) := by
  refine run_addCalls requests hcalls hk ?_
  rw [hempty]
  exact hinv

/-- The recipe they make, and its counter. -/
theorem recipe_packing {dev : MtdpartctlDevice} (hempty : dev.recipe = ⟨[], 0⟩)
    {requests : List ExtMtdPartitionInfo}
    (hinv : RecipeInv dev.backingMtd (requests.map newRecipePart)) :
    (dev.appendParts requests).recipe.partitions = requests.map newRecipePart ∧
      (dev.appendParts requests).recipe.partsCount.toNat =
        (dev.appendParts requests).recipe.partitions.length := by
  have hparts : (dev.appendParts requests).recipe.partitions = requests.map newRecipePart := by
    rw [MtdpartctlDevice.appendParts, hempty]
    rfl
  refine ⟨hparts, ?_⟩
  -- The recipe is far too short for the counter to wrap.
  have hlt := hinv.length_lt_two_pow
  rw [List.length_map] at hlt
  have hlen : (dev.appendParts requests).recipe.partsCount = UInt64.ofNat requests.length := by
    rw [MtdpartctlDevice.appendParts, hempty]
    exact UInt64.zero_add _
  rw [hlen, hparts, UInt64.toNat_ofNat_of_lt' hlt, List.length_map]

/-- It is dispatched if nobody uses the proxy and nothing goes wrong in the kernel. -/
theorem dispatch_requests {env : Env} {dev : MtdpartctlDevice}
    (henv : env.Succeeds dev.backingMtd.size) (hempty : dev.recipe = ⟨[], 0⟩)
    (hrefs : dev.proxy.useRefcnt = 0) {requests : List ExtMtdPartitionInfo} (hne : requests ≠ [])
    (hinv : RecipeInv dev.backingMtd (requests.map newRecipePart)) :
    ∃ r, mtdpartctlChrdevIoctl env (dev.appendParts requests) .recipeCreatePartitions = .ok r ∧
      0 ≤ r.ret ∧
      r.dev.tables.live = requests.map fun partition => (newRecipePart partition).extent := by
  obtain ⟨hparts, hcount⟩ := recipe_packing hempty hinv
  have hsome : (dev.appendParts requests).recipe.partitions ≠ [] := by
    rw [hparts]
    exact mt List.map_eq_nil_iff.mp hne
  obtain ⟨r, hioctl, hret⟩ := dispatch_succeeds henv hcount hsome hrefs
  refine ⟨r, hioctl, hret, ?_⟩
  have hinv' : RecipeInv dev.backingMtd (dev.appendParts requests).recipe.partitions := by
    rw [hparts]
    exact hinv
  have hmtd : (dev.appendParts requests).backingMtd = dev.backingMtd := rfl
  obtain ⟨-, hlive, -⟩ := dispatch_live hmtd hinv' henv.table hioctl hret
  rw [hlive, hparts, List.map_map]
  rfl

/-- The calls that open a device and submit a table. -/
def submitCalls (table : List Extent) : List DevCall :=
  .open :: addCalls (table.map Extent.request)

/-- **A packing is submitted and dispatched** on a device that has just been created. -/
theorem run_submitCalls {backingMtd : MtdInfo} (hsize : backingMtd.size.toNat < 2 ^ 63)
    (proxyIndex : Int32) {table : List Extent} (hne : table ≠ [])
    (hvalid : ∀ x ∈ table, x.Valid backingMtd) (hapart : table.Pairwise Extent.Apart) :
    ∃ (dev : MtdpartctlDevice) (r : IoctlResult),
      deviceSystem.run (.create backingMtd proxyIndex) (keepingCalls (submitCalls table)) =
        some dev ∧
      mtdpartctlChrdevIoctl .keeping dev .recipeCreatePartitions = .ok r ∧ 0 ≤ r.ret ∧
      r.dev.tables.live = table := by
  obtain ⟨opened, hopened⟩ : ∃ opened, opened =
    (mtdpartctlChrdevOpen (.create backingMtd proxyIndex)).2 := ⟨_, rfl⟩
  have hempty : opened.recipe = ⟨[], 0⟩ := by rw [hopened]; rfl
  have hmtd : opened.backingMtd = backingMtd := by rw [hopened]; rfl
  have hrefs : opened.proxy.useRefcnt = 0 := by rw [hopened]; rfl
  rw [← hmtd] at hsize hvalid
  have hinv := recipeInv_requests hvalid hapart
  have hadds := run_packing hempty hinv (snd_keepingCalls _) fun e he => by
    obtain ⟨call, -, rfl⟩ := List.mem_map.mp he
    rfl
  have hstep : deviceSystem.step (.create backingMtd proxyIndex) (.keeping, .open) =
      some opened := by
    rw [hopened]
    rfl
  obtain ⟨r, hioctl, hret, hlive⟩ := dispatch_requests (Env.succeeds_keeping hsize) hempty hrefs
    (mt List.map_eq_nil_iff.mp hne) hinv
  rw [extents_requests hvalid] at hlive
  refine ⟨_, r, ?_, hioctl, hret, hlive⟩
  rw [submitCalls, keepingCalls, List.map_cons, TransitionSystem.run, hstep, Option.bind_some]
  exact hadds

/-- The two halves of a device of two erase blocks, the second one first. -/
def halves : List Extent := [⟨0x1000, 0x1000⟩, ⟨0, 0x1000⟩]

/-- Such a device, opened. -/
def twoBlocks : MtdpartctlDevice := { openDevice with backingMtd := ⟨0, 0x2000, 0x1000⟩ }

theorem halves_valid : ∀ x ∈ halves, x.Valid ⟨0, 0x2000, 0x1000⟩ := by
  simp only [halves, List.mem_cons, List.not_mem_nil, or_false, forall_eq_or_imp, forall_eq]
  exact ⟨⟨by decide, by decide, by decide, by decide⟩, ⟨by decide, by decide, by decide,
    by decide⟩⟩

theorem halves_apart : halves.Pairwise Extent.Apart := by
  rw [halves, List.pairwise_pair, Extent.Apart, Finset.disjoint_left]
  intro b hb hb'
  simp only [Extent.bytes, Finset.mem_Ico] at hb hb'
  omega

/-- Both are submitted. -/
theorem run_halves : ∃ (dev : MtdpartctlDevice) (r : IoctlResult),
    deviceSystem.run (.create ⟨0, 0x2000, 0x1000⟩ 1) (keepingCalls (submitCalls halves)) =
      some dev ∧
    mtdpartctlChrdevIoctl .keeping dev .recipeCreatePartitions = .ok r ∧ 0 ≤ r.ret ∧
    r.dev.tables.live = halves :=
  run_submitCalls (by decide) 1 (List.cons_ne_nil _ _) halves_valid halves_apart

/-- And dispatched. -/
theorem run_halves_dispatch : ∃ dev : MtdpartctlDevice,
    deviceSystem.run (.create ⟨0, 0x2000, 0x1000⟩ 1)
      (keepingCalls (submitCalls halves ++ [.ioctl .recipeCreatePartitions])) = some dev ∧
    dev.tables.live = halves := by
  obtain ⟨dev, r, hrun, hioctl, -, hlive⟩ := run_halves
  have hstep : deviceSystem.step dev (.keeping, .ioctl .recipeCreatePartitions) = some r.dev := by
    simp only [deviceSystem, deviceCall, hioctl]
    rfl
  refine ⟨r.dev, ?_, hlive⟩
  have hsplit : keepingCalls (submitCalls halves ++ [.ioctl .recipeCreatePartitions]) =
      keepingCalls (submitCalls halves) ++ keepingCalls [.ioctl .recipeCreatePartitions] :=
    List.map_append
  rw [hsplit, TransitionSystem.run_append, hrun, Option.bind_some]
  simp only [keepingCalls, List.map_cons, List.map_nil, TransitionSystem.run, hstep,
    Option.bind_some]

/-! ### Every live partition is a valid extent -/

/-- A run from the creation on leaves valid tables. -/
theorem inv_of_run {backingMtd : MtdInfo} {proxyIndex : Int32} {es : List (Env × DevCall)}
    {dev : MtdpartctlDevice} (hcore : ∀ e ∈ es, e.1.core.KeepsTable backingMtd.size)
    (hrun : deviceSystem.run (.create backingMtd proxyIndex) es = some dev) :
    Represents backingMtd dev dev.tables ∧
      Draft.Inv (Extent.Valid backingMtd) Extent.Apart dev.tables := by
  obtain ⟨s, hrep, hinv⟩ := TransitionSystem.Follows.invariant (deviceSystem_follows backingMtd)
    (P := Draft.Inv (Extent.Valid backingMtd) Extent.Apart) (A := fun _ => True)
    (fun _ _ _ hs _ hstep => hs.step hstep) (represents_create backingMtd proxyIndex) .nil
    (fun x hx => hcore x.2 (TransitionSystem.mem_of_mem_taken es hx))
    (fun _ _ _ _ => trivial) hrun
  rw [hrep.tables] at hinv
  exact ⟨⟨hrep.backingMtd, hrep.recipeInv, rfl⟩, hinv⟩

/-- **The live partitions are whole erase blocks of the backing MTD**, whatever the calls. -/
theorem live_valid {backingMtd : MtdInfo} {proxyIndex : Int32} {es : List (Env × DevCall)}
    {dev : MtdpartctlDevice} (hcore : ∀ e ∈ es, e.1.core.KeepsTable backingMtd.size)
    (hrun : deviceSystem.run (.create backingMtd proxyIndex) es = some dev) :
    ∀ child ∈ dev.proxy.mtd.partitions, child.extent.Valid backingMtd := by
  obtain ⟨-, hinv⟩ := inv_of_run hcore hrun
  exact fun child hchild => hinv.live_ok _ (List.mem_map_of_mem hchild)

theorem live_valid_halves : ∃ dev : MtdpartctlDevice,
    deviceSystem.run (.create ⟨0, 0x2000, 0x1000⟩ 1)
      (keepingCalls (submitCalls halves ++ [.ioctl .recipeCreatePartitions])) = some dev ∧
    dev.tables.live = halves ∧
    ∀ child ∈ dev.proxy.mtd.partitions, child.extent.Valid ⟨0, 0x2000, 0x1000⟩ := by
  obtain ⟨dev, hrun, hlive⟩ := run_halves_dispatch
  exact ⟨dev, hrun, hlive, live_valid (keepsTable_keepingCalls (by decide) _) hrun⟩

/-! ### Live partitions without immediate adds -/

/-- The call is an `ADD_MTD_PARTITION`. -/
def AddsLive (call : DevCall) : Prop := ∃ arg, call = .ioctl (.addMtdPartition arg)

/-- The operations that can explain a step. -/
theorem ExplainsStep.cases {dev : MtdpartctlDevice} {e : Env × DevCall} {op : Draft.Op Extent}
    (h : ExplainsStep dev e op) :
    op = .idle ∨ (Respawns e.2 ∧ op = .withdraw) ∨ op = requestedOp dev e.2 := by
  obtain ⟨ret, dev', -, hexp⟩ := h
  unfold Explains at hexp
  split_ifs at hexp
  · exact hexp.imp_right Or.inl
  · exact Or.inr (Or.inr hexp)

/-- Only an immediate add asks for an insertion. -/
theorem addsLive_of_isInsert {dev : MtdpartctlDevice} {call : DevCall}
    (h : (requestedOp dev call).IsInsert) : AddsLive call := by
  cases call with
  | ioctl cmd =>
    cases cmd with
    | addMtdPartition arg => exact ⟨arg, rfl⟩
    | delMtdPartition arg | recipeAddPart arg | recipeDelPart arg => cases arg <;> exact h.elim
    | _ => exact h.elim
  | _ => exact h.elim

theorem not_isInsert {dev : MtdpartctlDevice} {e : Env × DevCall} {op : Draft.Op Extent}
    (hcall : ¬ AddsLive e.2) (h : ExplainsStep dev e op) : ¬ op.IsInsert := by
  rcases h.cases with rfl | ⟨-, rfl⟩ | rfl
  · exact id
  · exact id
  · exact fun hop => hcall (addsLive_of_isInsert hop)

/-- A run without immediate adds leaves live partitions that are apart. -/
theorem apart_of_run {backingMtd : MtdInfo} {proxyIndex : Int32} {es : List (Env × DevCall)}
    {dev : MtdpartctlDevice} (hcore : ∀ e ∈ es, e.1.core.KeepsTable backingMtd.size)
    (hno : ∀ e ∈ es, ¬ AddsLive e.2)
    (hrun : deviceSystem.run (.create backingMtd proxyIndex) es = some dev) :
    dev.tables.live.Pairwise Extent.Apart := by
  obtain ⟨s, hrep, -, hlive⟩ := TransitionSystem.Follows.invariant
    (deviceSystem_follows backingMtd)
    (P := fun s => Draft.Inv (Extent.Valid backingMtd) Extent.Apart s ∧
      s.live.Pairwise Extent.Apart) (A := fun op => ¬ op.IsInsert)
    (fun _ _ _ ht hop hstep => Draft.live_pairwise_step ht hop hstep)
    (represents_create backingMtd proxyIndex) ⟨.nil, .nil⟩
    (fun x hx => hcore x.2 (TransitionSystem.mem_of_mem_taken es hx))
    (fun x hx _ hop => not_isInsert (hno x.2 (TransitionSystem.mem_of_mem_taken es hx)) hop) hrun
  rwa [hrep.tables] at hlive

/-- **Without `ADD_MTD_PARTITION` no two live partitions share a byte**, and together they are no
longer than the backing MTD. -/
theorem live_apart {backingMtd : MtdInfo} {proxyIndex : Int32} {es : List (Env × DevCall)}
    {dev : MtdpartctlDevice} (hcore : ∀ e ∈ es, e.1.core.KeepsTable backingMtd.size)
    (hno : ∀ e ∈ es, ¬ AddsLive e.2)
    (hrun : deviceSystem.run (.create backingMtd proxyIndex) es = some dev) :
    (dev.proxy.mtd.partitions.map ChildMtd.extent).Pairwise Extent.Apart ∧
      (dev.proxy.mtd.partitions.map fun child => child.size.toNat).sum ≤
        backingMtd.size.toNat := by
  have hlive := apart_of_run hcore hno hrun
  obtain ⟨-, hinv⟩ := inv_of_run hcore hrun
  refine ⟨hlive, ?_⟩
  have hsum := Packing.sum_card_le Extent.bytes _ hlive (Finset.range backingMtd.size.toNat) ?_
  · simpa [Extent.bytes, MtdpartctlDevice.tables, ChildMtd.extent, Function.comp_def] using hsum
  · intro x hx b hb
    have hle := (hinv.live_ok x hx).le_size
    rw [Extent.bytes, Finset.mem_Ico] at hb
    rw [Finset.mem_range]
    omega

theorem live_apart_halves : ∃ dev : MtdpartctlDevice,
    deviceSystem.run (.create ⟨0, 0x2000, 0x1000⟩ 1)
      (keepingCalls (submitCalls halves ++ [.ioctl .recipeCreatePartitions])) = some dev ∧
    dev.tables.live = halves ∧
    (dev.proxy.mtd.partitions.map ChildMtd.extent).Pairwise Extent.Apart := by
  obtain ⟨dev, hrun, hlive⟩ := run_halves_dispatch
  refine ⟨dev, hrun, hlive, (live_apart (keepsTable_keepingCalls (by decide) _) ?_ hrun).1⟩
  rintro e he ⟨arg, harg⟩
  obtain ⟨call, hcall, rfl⟩ := List.mem_map.mp he
  simp only [submitCalls, halves, addCalls, List.map_cons, List.map_nil, List.cons_append,
    List.nil_append, List.mem_cons, List.not_mem_nil, or_false] at hcall
  rcases hcall with rfl | rfl | rfl | rfl <;> cases harg

/-! ### A dispatched table stays -/

/-- The call is one of those that edit the live partitions. -/
def EditsLive (call : DevCall) : Prop :=
  Respawns call ∨ AddsLive call ∨ ∃ arg, call = .ioctl (.delMtdPartition arg)

/-- The other calls ask for no edit of the live list. -/
theorem editsLive_of_requestedOp {dev : MtdpartctlDevice} {call : DevCall}
    (h : (requestedOp dev call).EditsLive) : EditsLive call := by
  cases call with
  | ioctl cmd =>
    cases cmd with
    | addMtdPartition arg => exact Or.inr (Or.inl ⟨arg, rfl⟩)
    | delMtdPartition arg => exact Or.inr (Or.inr ⟨arg, rfl⟩)
    | recipeCreatePartitions => exact Or.inl (Or.inl rfl)
    | deleteMtdPartitions => exact Or.inl (Or.inr rfl)
    | recipeAddPart arg | recipeDelPart arg => cases arg <;> exact h.elim
    | _ => exact h.elim
  | _ => exact h.elim

theorem not_editsLive {dev : MtdpartctlDevice} {e : Env × DevCall} {op : Draft.Op Extent}
    (hcall : ¬ EditsLive e.2) (h : ExplainsStep dev e op) : ¬ op.EditsLive := by
  rcases h.cases with rfl | ⟨hresp, rfl⟩ | rfl
  · exact id
  · exact absurd (Or.inl hresp) hcall
  · exact fun hop => hcall (editsLive_of_requestedOp hop)

/-- The live extents stay in a run without such calls. -/
theorem live_eq_of_not_editsLive {backingMtd : MtdInfo} {s : Draft.State Extent}
    {es : List (Env × DevCall)} {dev dev' : MtdpartctlDevice}
    (hrep : Represents backingMtd dev s)
    (hcore : ∀ e ∈ es, e.1.core.KeepsTable backingMtd.size) (hno : ∀ e ∈ es, ¬ EditsLive e.2)
    (hrun : deviceSystem.run dev es = some dev') :
    Represents backingMtd dev' dev'.tables ∧ dev'.tables.live = dev.tables.live := by
  obtain ⟨t, hrep', hlive⟩ := TransitionSystem.Follows.invariant (deviceSystem_follows backingMtd)
    (P := fun t => t.live = dev.tables.live) (A := fun op => ¬ op.EditsLive)
    (fun _ _ _ ht hop hstep => (Draft.live_eq_step hop hstep).trans ht)
    hrep (by rw [hrep.tables])
    (fun x hx => hcore x.2 (TransitionSystem.mem_of_mem_taken es hx))
    (fun x hx _ hop => not_editsLive (hno x.2 (TransitionSystem.mem_of_mem_taken es hx)) hop) hrun
  rw [hrep'.tables] at hlive
  exact ⟨⟨hrep'.backingMtd, hrep'.recipeInv, rfl⟩, hlive⟩

/-- The entries `GET_PARTITION_LIST` copies for the partitions, whatever their indices. -/
def listedExtents (writes : List (ℕ × MtdIndexedPartitionInfo)) : List (ℕ × Extent) :=
  writes.map fun w => (w.1, ⟨w.2.offset.toNat, w.2.length.toNat⟩)

/-- With copies that succeed, `GET_PARTITION_LIST` shows the table from its start, slot by slot, as
far as it is asked for, and says how many entries that is. -/
def ShowsTable (dev : MtdpartctlDevice) (table : List Extent) : Prop :=
  ∀ env : Env, (∀ i, env.copyToUser i = true) → ∀ readCount : UInt32, ∃ writes,
    mtdpartctlChrdevIoctl env dev (.getPartitionList (some readCount)) =
      .ok ⟨0, dev, [], .mtdParts writes
        (some (UInt32.ofNat (table.take readCount.toNat).length))⟩ ∧
    listedExtents writes = (table.take readCount.toNat).zipIdx.map fun x => (x.2, x.1)

/-- Between two calls it shows the live table. -/
theorem showsTable_live {dev : MtdpartctlDevice} (hflag : dev.proxy.aboutToRespawn = false) :
    ShowsTable dev dev.tables.live := by
  intro env hcopy readCount
  have hlist : copyMtdPartsListToUser env.copyToUser dev.proxy.mtd readCount.toUInt64 = _ :=
    copyListToUser_eq listedMtdPart hcopy dev.proxy.mtd.partitions readCount
  have htake : dev.tables.live.take readCount.toNat =
      (dev.proxy.mtd.partitions.take readCount.toNat).map ChildMtd.extent :=
    List.map_take.symm
  refine ⟨(dev.proxy.mtd.partitions.take readCount.toNat).zipIdx.map
    fun x => (x.2, listedMtdPart x.1), ?_, ?_⟩
  · simp only [mtdpartctlChrdevIoctl, hflag, hlist, htake, List.length_map]
    rfl
  · rw [listedExtents, htake, List.zipIdx_map, List.map_map, List.map_map]
    rfl

/-- **A dispatched table stays until the live partitions are edited.**  A dispatch that succeeds
makes the recipe the live table; the table is a non-empty packing of the backing MTD, and through
any sessions, recipe edits, listings and references after it, it is what `GET_PARTITION_LIST`
shows. -/
theorem dispatched_until_edited {backingMtd : MtdInfo} {proxyIndex : Int32}
    {es es' : List (Env × DevCall)} {dev dev' : MtdpartctlDevice} {env : Env} {r : IoctlResult}
    (hcore : ∀ e ∈ es ++ (env, .ioctl .recipeCreatePartitions) :: es',
      e.1.core.KeepsTable backingMtd.size)
    (hrun : deviceSystem.run (.create backingMtd proxyIndex) es = some dev)
    (hioctl : mtdpartctlChrdevIoctl env dev .recipeCreatePartitions = .ok r) (hret : 0 ≤ r.ret)
    (hno : ∀ e ∈ es', ¬ EditsLive e.2) (hrun' : deviceSystem.run r.dev es' = some dev') :
    dev'.tables.live = dev.recipe.partitions.map MtdRecipePart.extent ∧
      dev'.tables.live ≠ [] ∧ (∀ x ∈ dev'.tables.live, x.Valid backingMtd) ∧
      dev'.tables.live.Pairwise Extent.Apart ∧
      ShowsTable dev' (dev.recipe.partitions.map MtdRecipePart.extent) := by
  obtain ⟨hmtd, hinv⟩ := run_backingMtd (MtdpartctlDevice.created_create _ _) hrun
  obtain ⟨hrep, htable, hne, hvalid, hapart⟩ := dispatch_live hmtd (hmtd ▸ hinv)
    (hcore (env, .ioctl .recipeCreatePartitions) (by simp)) hioctl hret
  obtain ⟨-, hlive⟩ := live_eq_of_not_editsLive hrep
    (fun e he => hcore e (List.mem_append_right _ (List.mem_cons_of_mem _ he))) hno hrun'
  have hflag : dev'.proxy.aboutToRespawn = false := by
    have hreach : Reachable dev := TransitionSystem.Reach.of_run es (fun _ _ => trivial)
      (.init (MtdpartctlDevice.created_create backingMtd proxyIndex)) hrun
    have hstep : deviceSystem.step dev (env, .ioctl .recipeCreatePartitions) = some r.dev := by
      simp only [deviceSystem, deviceCall, hioctl]
      rfl
    exact Reachable.aboutToRespawn (TransitionSystem.Reach.of_run es' (fun _ _ => trivial)
      (.step hreach trivial hstep) hrun')
  rw [hlive, ← htable]
  exact ⟨rfl, hne, hvalid, hapart, hlive ▸ showsTable_live hflag⟩

/-- The device is closed and opened again. -/
theorem dispatched_until_edited_halves : ∃ (dev : MtdpartctlDevice) (r : IoctlResult)
    (dev' : MtdpartctlDevice),
    deviceSystem.run (.create ⟨0, 0x2000, 0x1000⟩ 1) (keepingCalls (submitCalls halves)) =
      some dev ∧
    mtdpartctlChrdevIoctl .keeping dev .recipeCreatePartitions = .ok r ∧
    deviceSystem.run r.dev (keepingCalls [.release, .open]) = some dev' ∧
    dev'.tables.live = dev.recipe.partitions.map MtdRecipePart.extent ∧
    dev'.tables.live ≠ [] ∧ ShowsTable dev' (dev.recipe.partitions.map MtdRecipePart.extent) := by
  obtain ⟨dev, r, hrun, hioctl, hret, -⟩ := run_halves
  have hcalls : ∀ e ∈ keepingCalls (submitCalls halves) ++
      (Env.keeping, .ioctl .recipeCreatePartitions) :: keepingCalls [.release, .open],
      e.1.core.KeepsTable 0x2000 := by
    rintro e he
    rcases List.mem_append.mp he with he | he
    · exact keepsTable_keepingCalls (by decide) _ e he
    · exact keepsTable_keepingCalls (by decide) [.ioctl .recipeCreatePartitions, .release, .open]
        e he
  have hno : ∀ e ∈ keepingCalls [.release, .open], ¬ EditsLive e.2 := by
    intro e he
    simp only [keepingCalls, List.map_cons, List.map_nil, List.mem_cons, List.not_mem_nil,
      or_false] at he
    rcases he with rfl | rfl <;> rintro ((h | h) | ⟨arg, h⟩ | ⟨arg, h⟩) <;> cases h
  have hagain : deviceSystem.run r.dev (keepingCalls [.release, .open]) = some _ := rfl
  obtain ⟨hlive, hne, -, -, hshows⟩ :=
    dispatched_until_edited hcalls hrun hioctl hret hno hagain
  exact ⟨dev, r, _, hrun, hioctl, hagain, hlive, hne, hshows⟩

/-! ### What can be dispatched -/

/-- The table is live after some run that ends with a dispatch. -/
def Dispatchable (backingMtd : MtdInfo) (proxyIndex : Int32) (table : List Extent) : Prop :=
  ∃ es env dev r, (∀ e ∈ es, e.1.core.KeepsTable backingMtd.size) ∧
    env.core.KeepsTable backingMtd.size ∧
    deviceSystem.run (.create backingMtd proxyIndex) es = some dev ∧
    mtdpartctlChrdevIoctl env dev .recipeCreatePartitions = .ok r ∧ 0 ≤ r.ret ∧
    r.dev.tables.live = table

/-- **Exactly the non-empty packings of the backing MTD can be dispatched.** -/
theorem dispatchable_iff {backingMtd : MtdInfo} (hsize : backingMtd.size.toNat < 2 ^ 63)
    (proxyIndex : Int32) (table : List Extent) :
    Dispatchable backingMtd proxyIndex table ↔
      table ≠ [] ∧ (∀ x ∈ table, x.Valid backingMtd) ∧ table.Pairwise Extent.Apart := by
  constructor
  · rintro ⟨es, env, dev, r, hcore, henv, hrun, hioctl, hret, rfl⟩
    obtain ⟨hmtd, hinv⟩ := run_backingMtd (MtdpartctlDevice.created_create _ _) hrun
    obtain ⟨-, -, hne, hvalid, hapart⟩ := dispatch_live hmtd (hmtd ▸ hinv) henv hioctl hret
    exact ⟨hne, hvalid, hapart⟩
  · rintro ⟨hne, hvalid, hapart⟩
    obtain ⟨dev, r, hrun, hioctl, hret, hlive⟩ :=
      run_submitCalls hsize proxyIndex hne hvalid hapart
    exact ⟨_, .keeping, dev, r, keepsTable_keepingCalls hsize _, MtdCore.keepsTable_keeping hsize,
      hrun, hioctl, hret, hlive⟩

theorem dispatchable_iff_halves :
    Dispatchable ⟨0, 0x2000, 0x1000⟩ 1 [⟨0x1000, 0x1000⟩, ⟨0, 0x1000⟩] := by
  rw [dispatchable_iff (by decide)]
  exact ⟨List.cons_ne_nil _ _, halves_valid, halves_apart⟩

end Mtdpartikr
