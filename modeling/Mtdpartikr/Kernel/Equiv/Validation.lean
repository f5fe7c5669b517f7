import Mtdpartikr.Kernel.Equiv.DeviceRun
import Mtdpartikr.Kernel.Equiv.Minors

/-!
# Which requests are accepted

`RECIPE_ADD_PART` and `ADD_MTD_PARTITION` share `verify_partition_basic_conditions`; the first
goes on to the overlap scan, the second comes from `adapt_possible_full_mtd_partition_length`.

* `recipeAddPart_iff`: `RECIPE_ADD_PART` accepts exactly the aligned, non-empty ranges inside the
  backing MTD that share no byte with a part of the recipe.
* `addMtdPartition_iff`: `ADD_MTD_PARTITION` calls the MTD core exactly for the aligned, non-empty
  ranges inside the backing MTD, a length of zero standing for the rest of it, and the arguments
  survive the change of sign.
* `addRequests_divide_iff`: on a device the module has created, the two divide by zero exactly
  for a backing MTD without an erase size and a request that ends inside it.
-/

namespace Mtdpartikr

/-! ### `RECIPE_ADD_PART` -/

/-- Ranges without a common byte. -/
theorem disjoint_range_iff (part : MtdRecipePart) (info : MtdPartitionInfo) :
    Disjoint part.range info.range ↔ ∀ b : ℕ, ¬ (b ∈ part.range ∧ b ∈ info.range) := by
  rw [Finset.disjoint_left]
  exact forall_congr' fun b => not_and.symm

/-- `RECIPE_ADD_PART` returns what `add_recipe_part` does. -/
theorem mtdpartctlChrdevIoctl_recipeAddPart (env : Env) (dev : MtdpartctlDevice)
    (partition : ExtMtdPartitionInfo) :
    mtdpartctlChrdevIoctl env dev (.recipeAddPart (some partition)) =
      (addRecipePart dev partition env.kvzalloc >>= fun r => pure ⟨r.1, r.2, [], .none⟩) := rfl

/-- **When `RECIPE_ADD_PART` accepts**, and what it leaves behind. -/
theorem recipeAddPart_iff {dev : MtdpartctlDevice} (h : Reachable dev)
    (herase : 0 < dev.backingMtd.erasesize.toNat) {env : Env} (hk : env.kvzalloc = true)
    (partition : ExtMtdPartitionInfo) :
    ∃ r, mtdpartctlChrdevIoctl env dev (.recipeAddPart (some partition)) = .ok r ∧
      (r.ret = 0 ↔
        0 < partition.base.length.toNat ∧
        partition.base.offset.toNat + partition.base.length.toNat ≤ dev.backingMtd.size.toNat ∧
        dev.backingMtd.erasesize.toNat ∣ partition.base.offset.toNat ∧
        dev.backingMtd.erasesize.toNat ∣ partition.base.length.toNat ∧
        ∀ p ∈ dev.recipe.partitions, ∀ b : ℕ, ¬ (b ∈ p.range ∧ b ∈ partition.base.range)) ∧
      (r.ret = 0 →
        r.dev.recipe.partitions = dev.recipe.partitions ++ [newRecipePart partition] ∧
        r.dev.recipe.partsCount = dev.recipe.partsCount + 1) ∧
      (r.ret ≠ 0 → r.ret = neg .EINVAL ∧ r.dev.recipe = dev.recipe) := by
  have hspec : Acceptable dev.backingMtd dev.recipe.partitions partition.base ↔
      0 < partition.base.length.toNat ∧
        partition.base.offset.toNat + partition.base.length.toNat ≤ dev.backingMtd.size.toNat ∧
        dev.backingMtd.erasesize.toNat ∣ partition.base.offset.toNat ∧
        dev.backingMtd.erasesize.toNat ∣ partition.base.length.toNat ∧
        ∀ p ∈ dev.recipe.partitions, ∀ b : ℕ, ¬ (b ∈ p.range ∧ b ∈ partition.base.range) := by
    simp only [← disjoint_range_iff]
    constructor
    · intro hacc
      exact ⟨hacc.fits.pos, hacc.fits.le_size, hacc.fits.offset_dvd, hacc.fits.length_dvd,
        hacc.free⟩
    · rintro ⟨hpos, hsize, hoffset, hlength, hfree⟩
      exact ⟨⟨hpos, hsize, hoffset, hlength⟩, hfree⟩
  rw [← hspec]
  rw [mtdpartctlChrdevIoctl_recipeAddPart, hk]
  rcases addRecipePart_cases h.recipeInv partition true with
    ⟨hacc, -, heq⟩ | ⟨-, hno, -⟩ | ⟨hacc, heq⟩ | ⟨-, hdiv, -⟩
  · rw [heq]
    refine ⟨_, rfl, iff_of_true rfl hacc, fun _ => ⟨rfl, rfl⟩, fun hne => absurd rfl hne⟩
  · cases hno
  · rw [heq]
    have hret : neg .EINVAL ≠ 0 := neg_ne_zero _
    exact ⟨_, rfl, iff_of_false hret hacc, fun h0 => absurd h0 hret, fun _ => ⟨rfl, rfl⟩⟩
  · rw [hdiv.erasesize] at herase
    exact absurd herase (by decide)

/-- On a recipe with the first of three blocks: the second one is accepted, both together are
not. -/
theorem recipeAddPart_iff_blocks :
    (∃ r, mtdpartctlChrdevIoctl .succeeding (threeBlocks.appendPart (blockPart 0))
        (.recipeAddPart (some (blockPart 1))) = .ok r ∧ r.ret = 0 ∧
      r.dev.recipe.partitions = [newRecipePart (blockPart 0), newRecipePart (blockPart 1)]) ∧
    ∃ r, mtdpartctlChrdevIoctl .succeeding (threeBlocks.appendPart (blockPart 0))
        (.recipeAddPart (some ⟨⟨0, 0x2000, CBuf.zero _⟩, false, false⟩)) = .ok r ∧
      r.ret = neg .EINVAL ∧ r.dev.recipe.partitions = [newRecipePart (blockPart 0)] := by
  have hparts : (threeBlocks.appendPart (blockPart 0)).recipe.partitions =
    [newRecipePart (blockPart 0)] := rfl
  constructor
  · obtain ⟨r, hr, hiff, hadded, -⟩ := @recipeAddPart_iff (threeBlocks.appendPart (blockPart 0))
      reachable_firstBlock (by decide) .succeeding rfl (blockPart 1)
    have hret : r.ret = 0 := by
      refine hiff.mpr ⟨by decide, by decide, by decide, by decide, ?_⟩
      rw [hparts]
      rintro p hp b ⟨hb, hb'⟩
      obtain rfl := List.mem_singleton.mp hp
      have hlt := (Finset.mem_Ico.mp hb).2
      have hle := (Finset.mem_Ico.mp hb').1
      exact absurd (Nat.lt_of_le_of_lt hle hlt) (by decide)
    exact ⟨r, hr, hret, (hadded hret).1⟩
  · obtain ⟨r, hr, hiff, -, hrefused⟩ :=
      @recipeAddPart_iff (threeBlocks.appendPart (blockPart 0)) reachable_firstBlock (by decide)
        .succeeding rfl ⟨⟨0, 0x2000, CBuf.zero _⟩, false, false⟩
    have hret : r.ret ≠ 0 := by
      intro hret
      -- Byte 0 is taken.
      obtain ⟨-, -, -, -, hfree⟩ := hiff.mp hret
      exact hfree (newRecipePart (blockPart 0)) (by simp [hparts]) 0
        ⟨Finset.mem_Ico.mpr (by decide), Finset.mem_Ico.mpr (by decide)⟩
    refine ⟨r, hr, (hrefused hret).1, ?_⟩
    rw [(hrefused hret).2, hparts]

/-! ### `ADD_MTD_PARTITION` -/

/-- The length a request asks for: a length of zero stands for what the backing MTD has behind
the offset. -/
def requestedLength (mtd : MtdInfo) (offset length : UInt64) : Option UInt64 :=
  if length ≠ 0 then some length
  else if offset ≤ mtd.size then some (mtd.size - offset) else none

/-- The subtraction does not wrap. -/
theorem toNat_requestedLength {mtd : MtdInfo} {offset length L : UInt64} (hzero : length = 0)
    (h : requestedLength mtd offset length = some L) :
    offset.toNat ≤ mtd.size.toNat ∧ L.toNat = mtd.size.toNat - offset.toNat := by
  unfold requestedLength at h
  rw [if_neg (not_not_intro hzero)] at h
  split_ifs at h with hle
  obtain rfl := Option.some.inj h
  exact ⟨UInt64.le_iff_toNat_le.mp hle, UInt64.toNat_sub_of_le _ _ hle⟩

/-- The adapted request has the requested length; without one the request is refused. -/
theorem adaptPossibleFullMtdPartitionLength_eq (dev : MtdpartctlDevice)
    (partInfo : MtdPartitionInfo) :
    adaptPossibleFullMtdPartitionLength dev partInfo =
      match requestedLength dev.backingMtd partInfo.offset partInfo.length with
      | some L => (0, { partInfo with length := L })
      | none => (neg .EINVAL, partInfo) := by
  unfold adaptPossibleFullMtdPartitionLength requestedLength checkSubOverflow
  by_cases hzero : partInfo.length = 0
  · simp only [hzero, if_true, ne_eq, not_true_eq_false, if_false, decide_eq_true_eq]
    by_cases hle : partInfo.offset ≤ dev.backingMtd.size
    · rw [if_pos hle, if_neg (UInt64.not_lt.mpr hle)]
    · rw [if_neg hle, if_pos (UInt64.not_le.mp hle)]
  · simp only [hzero, if_false, ne_eq, not_false_eq_true, if_true]

/-- What `ADD_MTD_PARTITION` does with the requested length. -/
theorem mtdpartctlChrdevIoctl_addMtdPartition (env : Env) (dev : MtdpartctlDevice)
    (partInfo : MtdPartitionInfo) :
    mtdpartctlChrdevIoctl env dev (.addMtdPartition (some partInfo)) =
      match requestedLength dev.backingMtd partInfo.offset partInfo.length with
      | none => .ok ⟨neg .EINVAL, dev, [], .none⟩
      | some L =>
        verifyPartitionBasicConditions dev { partInfo with length := L } >>= fun ret =>
          if ret < 0 then .ok ⟨ret, dev, [], .none⟩
          else
            let edit := immediateEditLocked env.core dev.proxy (.add { partInfo with length := L })
            .ok ⟨edit.1, { dev with proxy := edit.2.1 }, edit.2.2, .none⟩ := by
  simp only [mtdpartctlChrdevIoctl, prepareAddMtdPartition, adaptPossibleFullMtdPartitionLength_eq]
  cases requestedLength dev.backingMtd partInfo.offset partInfo.length with
  | none => rfl
  | some L =>
    simp only [lt_self_iff_false, if_false]
    cases verifyPartitionBasicConditions dev { partInfo with length := L } <;> rfl

/-- A request of length zero is the request for the rest of the backing MTD. -/
theorem mtdpartctlChrdevIoctl_addMtdPartition_rest (env : Env) {dev : MtdpartctlDevice}
    {partInfo : MtdPartitionInfo} (hzero : partInfo.length = 0)
    (hle : partInfo.offset ≤ dev.backingMtd.size) :
    mtdpartctlChrdevIoctl env dev (.addMtdPartition (some
        { partInfo with length := dev.backingMtd.size - partInfo.offset })) =
      mtdpartctlChrdevIoctl env dev (.addMtdPartition (some partInfo)) := by
  have hrest : requestedLength dev.backingMtd partInfo.offset
      (dev.backingMtd.size - partInfo.offset) = some (dev.backingMtd.size - partInfo.offset) := by
    unfold requestedLength
    split_ifs <;> rfl
  have hfull : requestedLength dev.backingMtd partInfo.offset partInfo.length =
      some (dev.backingMtd.size - partInfo.offset) := by
    unfold requestedLength
    rw [if_neg (not_not_intro hzero), if_pos hle]
  rw [mtdpartctlChrdevIoctl_addMtdPartition, mtdpartctlChrdevIoctl_addMtdPartition]
  simp only [hrest, hfull]

/-- The two outcomes on a backing MTD with an erase size: the immediate edit or `-EINVAL`. -/
theorem addMtdPartition_cases (env : Env) {dev : MtdpartctlDevice}
    (herase : 0 < dev.backingMtd.erasesize.toNat) (partInfo : MtdPartitionInfo) :
    (∃ L, requestedLength dev.backingMtd partInfo.offset partInfo.length = some L ∧
      Fits dev.backingMtd partInfo.offset L ∧
      mtdpartctlChrdevIoctl env dev (.addMtdPartition (some partInfo)) =
        .ok ⟨(immediateEditLocked env.core dev.proxy (.add { partInfo with length := L })).1,
          { dev with proxy :=
            (immediateEditLocked env.core dev.proxy (.add { partInfo with length := L })).2.1 },
          (immediateEditLocked env.core dev.proxy (.add { partInfo with length := L })).2.2,
          .none⟩) ∨
    ((¬ ∃ L, requestedLength dev.backingMtd partInfo.offset partInfo.length = some L ∧
        Fits dev.backingMtd partInfo.offset L) ∧
      mtdpartctlChrdevIoctl env dev (.addMtdPartition (some partInfo)) =
        .ok ⟨neg .EINVAL, dev, [], .none⟩) := by
  rw [mtdpartctlChrdevIoctl_addMtdPartition]
  cases requestedLength dev.backingMtd partInfo.offset partInfo.length with
  | none => exact Or.inr ⟨fun ⟨_, hL, _⟩ => (by cases hL), rfl⟩
  | some L =>
    rcases verifyPartitionBasicConditions_cases dev { partInfo with length := L } with
      ⟨hfits, heq⟩ | ⟨hfits, heq⟩ | ⟨-, hdiv, -⟩
    · refine Or.inl ⟨L, rfl, hfits, ?_⟩
      simp only [heq]
      rfl
    · refine Or.inr ⟨?_, ?_⟩
      · rintro ⟨L', hL', hfits'⟩
        obtain rfl := Option.some.inj hL'
        exact hfits hfits'
      · simp only [heq]
        rfl
    · rw [hdiv.erasesize] at herase
      exact absurd herase (by decide)

/-- The immediate add on an idle proxy is one call. -/
theorem immediateEditLocked_add (core : MtdCore) {proxy : ProxyMtd}
    (hflag : proxy.aboutToRespawn = false) (hrefs : proxy.useRefcnt = 0)
    (partInfo : MtdPartitionInfo) :
    immediateEditLocked core proxy (.add partInfo) =
      ((core.mtdAddPartition proxy.mtd partInfo.name partInfo.offset.toInt64
          partInfo.length.toInt64).1,
        { proxy with mtd := (core.mtdAddPartition proxy.mtd partInfo.name partInfo.offset.toInt64
          partInfo.length.toInt64).2 },
        [.mtdAddPartition partInfo.name partInfo.offset.toInt64 partInfo.length.toInt64]) := by
  unfold immediateEditLocked
  rw [hflag, hrefs]
  rfl

/-- A value below `2 ^ 63` is the same as a `long long`. -/
theorem toInt_toInt64_of_lt {v : UInt64} (h : v.toNat < 2 ^ 63) : v.toInt64.toInt = v.toNat := by
  have hnat : v.toBitVec.toNat = v.toNat := rfl
  rw [← Int64.toInt_toBitVec, UInt64.toBitVec_toInt64, BitVec.toInt_eq_toNat_of_lt (by omega)]
  rfl

/-- **When `ADD_MTD_PARTITION` calls the MTD core**, and what it hands over. -/
theorem addMtdPartition_iff (env : Env) {dev : MtdpartctlDevice}
    (herase : 0 < dev.backingMtd.erasesize.toNat) (hsize : dev.backingMtd.size.toNat < 2 ^ 63)
    (hflag : dev.proxy.aboutToRespawn = false) (hrefs : dev.proxy.useRefcnt = 0)
    (partInfo : MtdPartitionInfo) :
    ∃ r, mtdpartctlChrdevIoctl env dev (.addMtdPartition (some partInfo)) = .ok r ∧
      (r.calls ≠ [] ↔ ∃ L, requestedLength dev.backingMtd partInfo.offset partInfo.length = some L ∧
        Fits dev.backingMtd partInfo.offset L) ∧
      (∀ L, requestedLength dev.backingMtd partInfo.offset partInfo.length = some L →
        Fits dev.backingMtd partInfo.offset L →
          ∃ offset length : Int64, r.calls = [.mtdAddPartition partInfo.name offset length] ∧
            offset.toInt = partInfo.offset.toNat ∧ length.toInt = L.toNat ∧ 0 < length.toInt ∧
            r.ret = (env.core.mtdAddPartition dev.proxy.mtd partInfo.name offset length).1) ∧
      (r.calls = [] → r.ret = neg .EINVAL ∧ r.dev = dev) ∧
      (partInfo.length = 0 → partInfo.offset ≤ dev.backingMtd.size →
        mtdpartctlChrdevIoctl env dev (.addMtdPartition (some
          { partInfo with length := dev.backingMtd.size - partInfo.offset })) = .ok r) := by
  rcases addMtdPartition_cases env herase partInfo with ⟨L, hL, hfits, heq⟩ | ⟨hno, heq⟩
  · rw [immediateEditLocked_add env.core hflag hrefs] at heq
    -- Both arguments are at most the size of the backing MTD, so neither changes its sign.
    have hle := hfits.le_size
    have hoffset := toInt_toInt64_of_lt (show partInfo.offset.toNat < 2 ^ 63 by omega)
    have hlength := toInt_toInt64_of_lt (show L.toNat < 2 ^ 63 by omega)
    refine ⟨_, heq, iff_of_true (List.cons_ne_nil _ _) ⟨L, hL, hfits⟩, ?_, ?_, ?_⟩
    · intro L' hL' _
      obtain rfl := Option.some.inj (hL.symm.trans hL')
      have hpos := hfits.pos
      have hlt : 0 < L.toInt64.toInt := by omega
      exact ⟨_, _, rfl, hoffset, hlength, hlt, rfl⟩
    · exact fun hnil => absurd hnil (List.cons_ne_nil _ _)
    · intro hzero hsize
      rw [mtdpartctlChrdevIoctl_addMtdPartition_rest env hzero hsize, heq]
  · refine ⟨_, heq, iff_of_false (not_not_intro rfl) hno, ?_, fun _ => ⟨rfl, rfl⟩, ?_⟩
    · exact fun L hL hfits => absurd ⟨L, hL, hfits⟩ hno
    · intro hzero hsize
      rw [mtdpartctlChrdevIoctl_addMtdPartition_rest env hzero hsize, heq]

/-- A partition over the whole of a device. -/
theorem addMtdPartition_iff_full :
    ∃ r, mtdpartctlChrdevIoctl .succeeding openDevice
        (.addMtdPartition (some ⟨0, 0, CBuf.zero _⟩)) = .ok r ∧ r.calls ≠ [] := by
  obtain ⟨r, hr, hiff, -⟩ := @addMtdPartition_iff .succeeding openDevice (by decide)
    (by decide) rfl rfl ⟨0, 0, CBuf.zero _⟩
  exact ⟨r, hr, hiff.mpr ⟨0x1000, by decide, by decide⟩⟩

/-! ### Division by zero -/

/-- What a run of a device keeps for the checks of its requests. -/
theorem run_backingMtd {dev dev' : MtdpartctlDevice} (h : dev.Created) {es : List (Env × DevCall)}
    (hrun : deviceSystem.run dev es = some dev') :
    dev'.backingMtd = dev.backingMtd ∧ RecipeInv dev'.backingMtd dev'.recipe.partitions := by
  refine TransitionSystem.run_invariant (A := fun _ => True)
    (P := fun s : MtdpartctlDevice =>
      s.backingMtd = dev.backingMtd ∧ RecipeInv s.backingMtd s.recipe.partitions)
    ?_ es ⟨rfl, Created.recipeInv h⟩ (fun _ _ => trivial) hrun
  intro s e s' hs _ hstep
  obtain ⟨hinv, hmtd, -⟩ := step_recipeInv hs.2 hstep
  exact ⟨hmtd.trans hs.1, hinv⟩

/-- `RECIPE_ADD_PART` divides by zero exactly when the basic check does. -/
theorem recipeAddPart_divideError_iff (env : Env) {dev : MtdpartctlDevice}
    (hinv : RecipeInv dev.backingMtd dev.recipe.partitions) (partition : ExtMtdPartitionInfo) :
    mtdpartctlChrdevIoctl env dev (.recipeAddPart (some partition)) = .error .divideError ↔
      DividesByZero dev.backingMtd partition.base.offset partition.base.length := by
  rw [mtdpartctlChrdevIoctl_recipeAddPart]
  constructor
  · intro h
    rcases bind_eq_error h with hadd | ⟨_, _, h⟩
    · exact (addRecipePart_error hinv hadd).2
    · cases h
  · intro hdiv
    rw [addRecipePart_of_dividesByZero hdiv]
    rfl

/-- `ADD_MTD_PARTITION` does with its requested length. -/
theorem addMtdPartition_divideError_iff (env : Env) (dev : MtdpartctlDevice)
    (partInfo : MtdPartitionInfo) :
    mtdpartctlChrdevIoctl env dev (.addMtdPartition (some partInfo)) = .error .divideError ↔
      ∃ L, requestedLength dev.backingMtd partInfo.offset partInfo.length = some L ∧
        DividesByZero dev.backingMtd partInfo.offset L := by
  rw [mtdpartctlChrdevIoctl_addMtdPartition]
  cases requestedLength dev.backingMtd partInfo.offset partInfo.length with
  | none =>
    refine iff_of_false (fun h => by cases h) ?_
    rintro ⟨L, hL, -⟩
    cases hL
  | some L =>
    simp only [Option.some.injEq, exists_eq_left']
    constructor
    · intro h
      rcases bind_eq_error h with hverify | ⟨ret, -, h⟩
      · rcases verifyPartitionBasicConditions_cases dev { partInfo with length := L } with
          ⟨-, heq⟩ | ⟨-, heq⟩ | ⟨-, hdiv, -⟩
        · rw [heq] at hverify
          cases hverify
        · rw [heq] at hverify
          cases hverify
        · exact hdiv
      · split_ifs at h
    · intro hdiv
      rw [@verifyPartitionBasicConditions_of_dividesByZero dev { partInfo with length := L } hdiv]
      rfl

/-- One of the two requests for a range comes to a division without a divisor: the range starts
inside a backing MTD without an erase size, and does not reach beyond it. -/
theorem dividesByZero_iff (mtd : MtdInfo) (offset length : UInt64) :
    (DividesByZero mtd offset length ∨
      ∃ L, requestedLength mtd offset length = some L ∧ DividesByZero mtd offset L) ↔
    mtd.erasesize = 0 ∧ offset.toNat < mtd.size.toNat ∧
      offset.toNat + length.toNat ≤ mtd.size.toNat := by
  have hfit : ∀ {L}, DividesByZero mtd offset L →
      mtd.erasesize = 0 ∧ offset.toNat < mtd.size.toNat ∧
        offset.toNat + L.toNat ≤ mtd.size.toNat := by
    intro L hdiv
    have hpos := hdiv.pos
    have hle := hdiv.le_size
    exact ⟨hdiv.erasesize, by omega, hle⟩
  by_cases hzero : length = 0
  · have hzero' : length.toNat = 0 := by rw [hzero]; rfl
    constructor
    · rintro (hdiv | ⟨L, hL, hdiv⟩)
      · exact hfit hdiv
      · obtain ⟨herase, hlt, -⟩ := hfit hdiv
        exact ⟨herase, hlt, by omega⟩
    · rintro ⟨herase, hlt, -⟩
      have hL : requestedLength mtd offset length = some (mtd.size - offset) := by
        unfold requestedLength
        rw [if_neg (not_not_intro hzero), if_pos (UInt64.le_iff_toNat_le.mpr hlt.le)]
      obtain ⟨-, hrest⟩ := toNat_requestedLength hzero hL
      exact Or.inr ⟨_, hL, herase, by omega, by omega⟩
  · have hL : requestedLength mtd offset length = some length := if_pos hzero
    have hpos : 0 < length.toNat := by
      rw [Nat.pos_iff_ne_zero]
      exact fun h => hzero (UInt64.toNat_inj.mp h)
    constructor
    · rintro (hdiv | ⟨L, hL', hdiv⟩)
      · exact hfit hdiv
      · obtain rfl := Option.some.inj (hL.symm.trans hL')
        exact hfit hdiv
    · rintro ⟨herase, -, hle⟩
      exact Or.inl ⟨herase, hpos, hle⟩

/-- **When the requests for a range do not divide by zero**, on a device the module has created and
after any calls on it.  Nothing on the way from the MTD table to a device asks for an erase
size. -/
theorem addRequests_divide_iff {σ : Type} {env : InitEnv} {table : MtdTable σ}
    {filter : MtdDeviceTypeFilter} {s : InitState σ}
    (h : mtdpartctlDeviceClassInit env table filter (.load table) = .ok (0, s)) {m : ℕ}
    {cdev : ClassDevice σ} (hcdev : mtdpartctlDeviceResolveByMinor s.cls m = some cdev)
    {backing proxy : MtdDev σ} (hbacking : cdev.backingMtd = some backing)
    (hproxy : cdev.proxyMtd = some proxy) {es : List (Env × DevCall)} {dev : MtdpartctlDevice}
    (hrun : deviceSystem.run (cdev.toDevice backing proxy) es = some dev)
    (offset length : UInt64) :
    (∀ (env : Env) (name : NameBuf) (readonly powerupLockEnabled : Bool),
      mtdpartctlChrdevIoctl env dev (.addMtdPartition (some ⟨offset, length, name⟩)) ≠
          .error .divideError ∧
        mtdpartctlChrdevIoctl env dev (.recipeAddPart (some
          ⟨⟨offset, length, name⟩, readonly, powerupLockEnabled⟩)) ≠ .error .divideError) ↔
      backing.erasesize ≠ 0 ∨ backing.size.toNat ≤ offset.toNat ∨
        backing.size.toNat < offset.toNat + length.toNat := by
  obtain ⟨backing', proxy', hbacking', hproxy', hcreate⟩ := resolveByMinor_refines_create h hcdev
  obtain rfl := Option.some.inj (hbacking.symm.trans hbacking')
  obtain rfl := Option.some.inj (hproxy.symm.trans hproxy')
  rw [hcreate] at hrun
  obtain ⟨hrunMtd, hinv⟩ := run_backingMtd (MtdpartctlDevice.created_create _ _) hrun
  have hmtd : dev.backingMtd = backing.info := hrunMtd
  have hcond : (backing.erasesize ≠ 0 ∨ backing.size.toNat ≤ offset.toNat ∨
      backing.size.toNat < offset.toNat + length.toNat) ↔
      ¬ (backing.info.erasesize = 0 ∧ offset.toNat < backing.info.size.toNat ∧
        offset.toNat + length.toNat ≤ backing.info.size.toNat) := by
    have herase : backing.info.erasesize = backing.erasesize := rfl
    have hsize : backing.info.size = backing.size := rfl
    rw [herase, hsize, not_and_or, not_and_or, Nat.not_lt, Nat.not_le]
  rw [hcond, ← hmtd, ← dividesByZero_iff]
  constructor
  · rintro hno (hdiv | hdiv)
    · refine (hno .succeeding (CBuf.zero _) false false).2 ?_
      exact (recipeAddPart_divideError_iff _ hinv _).mpr hdiv
    · refine (hno .succeeding (CBuf.zero _) false false).1 ?_
      exact (addMtdPartition_divideError_iff _ dev _).mpr hdiv
  · intro hno env name readonly powerupLockEnabled
    refine ⟨fun hdiv => hno (Or.inr ?_), fun hdiv => hno (Or.inl ?_)⟩
    · exact (addMtdPartition_divideError_iff env dev _).mp hdiv
    · exact (recipeAddPart_divideError_iff env hinv _).mp hdiv

/-- A chip of 4096 bytes that needs no erasing, as RAM does: `MTD_NO_ERASE` and no erase size. -/
def noEraseChip : MtdDev Unit :=
  { norChip 0 with flags := 0x1000, size := 0x1000 }

/-- The table with this chip. -/
def noEraseTable : MtdTable Unit := ⟨[noEraseChip], by decide⟩

/-- A chip of three erase blocks. -/
def erasableChip : MtdDev Unit := { norChip 0 with size := 0x3000, erasesize := 0x1000 }

def erasableTable : MtdTable Unit := ⟨[erasableChip], by decide⟩

/-- The device has been opened, and a block is in its recipe; the requests for the next one do not
divide by zero. -/
theorem addRequests_divide_iff_erasable :
    ∃ (s : InitState Unit) (cdev : ClassDevice Unit) (backing proxy : MtdDev Unit)
      (dev : MtdpartctlDevice),
      mtdpartctlDeviceClassInit grantingEnv erasableTable .all (.load erasableTable) =
        .ok (0, s) ∧
      mtdpartctlDeviceResolveByMinor s.cls 0 = some cdev ∧
      deviceSystem.run (cdev.toDevice backing proxy)
        [(.succeeding, .open), (.succeeding, .ioctl (.recipeAddPart (some (blockPart 0))))] =
          some dev ∧
      dev.recipe.partitions = [newRecipePart (blockPart 0)] ∧
      mtdpartctlChrdevIoctl .succeeding dev (.recipeAddPart (some (blockPart 1))) ≠
        .error .divideError := by
  obtain ⟨s, cdev, backing, proxy, dev, hinit, hcdev, hbacking, hproxy, herase, hrun, hparts⟩ :
      ∃ (s : InitState Unit) (cdev : ClassDevice Unit) (backing proxy : MtdDev Unit)
        (dev : MtdpartctlDevice),
        mtdpartctlDeviceClassInit grantingEnv erasableTable .all (.load erasableTable) =
          .ok (0, s) ∧
        mtdpartctlDeviceResolveByMinor s.cls 0 = some cdev ∧ cdev.backingMtd = some backing ∧
        cdev.proxyMtd = some proxy ∧ backing.erasesize = 0x1000 ∧
        deviceSystem.run (cdev.toDevice backing proxy)
          [(.succeeding, .open), (.succeeding, .ioctl (.recipeAddPart (some (blockPart 0))))] =
            some dev ∧
        dev.recipe.partitions = [newRecipePart (blockPart 0)] :=
    ⟨_, _, _, _, _, rfl, rfl, rfl, rfl, rfl, rfl, rfl⟩
  refine ⟨s, cdev, backing, proxy, dev, hinit, hcdev, hrun, hparts, ?_⟩
  refine ((addRequests_divide_iff hinit hcdev hbacking hproxy hrun 0x1000 0x1000).mpr ?_
    .succeeding (CBuf.zero _) false false).2
  rw [herase]
  exact Or.inl (by decide)

/-- The module admits a chip without an erase size, and the first request for one of its bytes
divides by zero. -/
theorem addRequests_divide_noEraseChip :
    ∃ (s : InitState Unit) (cdev : ClassDevice Unit) (backing proxy : MtdDev Unit),
      mtdpartctlDeviceClassInit grantingEnv noEraseTable .all (.load noEraseTable) = .ok (0, s) ∧
      mtdpartctlDeviceResolveByMinor s.cls 0 = some cdev ∧ cdev.backingMtd = some backing ∧
      cdev.proxyMtd = some proxy ∧
      mtdpartctlChrdevIoctl .succeeding (cdev.toDevice backing proxy)
        (.recipeAddPart (some ⟨⟨0, 1, CBuf.zero _⟩, false, false⟩)) = .error .divideError ∧
      mtdpartctlChrdevIoctl .succeeding (cdev.toDevice backing proxy)
        (.addMtdPartition (some ⟨0, 1, CBuf.zero _⟩)) = .error .divideError :=
  ⟨_, _, _, _, rfl, rfl, rfl, rfl, rfl, rfl⟩

end Mtdpartikr
