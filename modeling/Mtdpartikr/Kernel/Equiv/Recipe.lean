import Mtdpartikr.Kernel.Recipe
import Mtdpartikr.Lib.Packing

/-!
# What the recipe functions compute

One specification for each function of `Kernel/Recipe.lean`, in terms of byte ranges over the
naturals.

* `verifyPartitionBasicConditions_cases`: the basic check accepts exactly the requests that are
  `Fits mtd`: non-empty, inside the backing MTD and aligned to its erase size.
* `existingPartitionContainsRange_eq`: on ranges that do not wrap, the two-inequality test is
  overlap of the byte ranges; `verifyPartitionParams.loop_eq` lifts it to the scan.
* `addRecipePart_cases`: the four outcomes of an add to a list that satisfies `RecipeInv`.
* `delRecipePart.loop_eq`: deletion is `List.eraseIdx`.
* `convertRecipeToMtdPartitionsLocked_eq`: with the counter in step, the array is the list.
-/

namespace Mtdpartikr

/-! ### Byte ranges -/

/-- The bytes `[offset, offset + length)` of a request. -/
def MtdPartitionInfo.range (info : MtdPartitionInfo) : Finset ℕ :=
  Finset.Ico info.offset.toNat (info.offset.toNat + info.length.toNat)

/-- The bytes a recipe part occupies. -/
def MtdRecipePart.range (part : MtdRecipePart) : Finset ℕ :=
  Finset.Ico part.offset.toNat (part.offset.toNat + part.length.toNat)

/-- A non-empty, aligned range inside the backing MTD. -/
structure Fits (mtd : MtdInfo) (offset length : UInt64) : Prop where
  pos : 0 < length.toNat
  le_size : offset.toNat + length.toNat ≤ mtd.size.toNat
  offset_dvd : mtd.erasesize.toNat ∣ offset.toNat
  length_dvd : mtd.erasesize.toNat ∣ length.toNat

instance (mtd : MtdInfo) (offset length : UInt64) : Decidable (Fits mtd offset length) :=
  decidable_of_iff
    (0 < length.toNat ∧ offset.toNat + length.toNat ≤ mtd.size.toNat ∧
      mtd.erasesize.toNat ∣ offset.toNat ∧ mtd.erasesize.toNat ∣ length.toNat)
    ⟨fun ⟨h₁, h₂, h₃, h₄⟩ => ⟨h₁, h₂, h₃, h₄⟩, fun ⟨h₁, h₂, h₃, h₄⟩ => ⟨h₁, h₂, h₃, h₄⟩⟩

/-- A range that fits does not wrap. -/
theorem Fits.lt_two_pow {mtd : MtdInfo} {offset length : UInt64} (h : Fits mtd offset length) :
    offset.toNat + length.toNat < 2 ^ 64 :=
  h.le_size.trans_lt mtd.size.toNat_lt

/-- No range fits a device without an erase size. -/
theorem Fits.erasesize_ne_zero {mtd : MtdInfo} {offset length : UInt64}
    (h : Fits mtd offset length) : mtd.erasesize ≠ 0 := by
  intro h0
  have hdvd := h.length_dvd
  rw [h0] at hdvd
  have hzero : length.toNat = 0 := Nat.eq_zero_of_zero_dvd hdvd
  have hpos := h.pos
  omega

/-- A range on which the basic check gets to its divisions and has no divisor for them. -/
structure DividesByZero (mtd : MtdInfo) (offset length : UInt64) : Prop where
  erasesize : mtd.erasesize = 0
  pos : 0 < length.toNat
  le_size : offset.toNat + length.toNat ≤ mtd.size.toNat

/-! ### The basic check -/

theorem doDiv_of_ne_zero {base : UInt32} (h : base ≠ 0) (n : UInt64) :
    doDiv n base = .ok (n / base.toUInt64, n % base.toUInt64) := by
  unfold doDiv
  rw [if_neg h]
  rfl

theorem doDiv_zero (n : UInt64) : doDiv n 0 = .error .divideError := rfl

/-- The remainder of `do_div` is zero iff the divisor divides. -/
theorem mod_toUInt64_eq_zero_iff (n : UInt64) (base : UInt32) :
    n % base.toUInt64 = 0 ↔ base.toNat ∣ n.toNat := by
  rw [← UInt64.toNat_inj, UInt64.toNat_mod, UInt32.toNat_toUInt64, Nat.dvd_iff_mod_eq_zero]
  rfl

/-- The checked sum is the exact one when it does not overflow. -/
theorem toNat_add_of_lt {a b : UInt64} (h : a.toNat + b.toNat < 2 ^ 64) :
    (a + b).toNat = a.toNat + b.toNat := by
  rw [UInt64.toNat_add, Nat.mod_eq_of_lt h]

/-- The basic check returns `0` for the requests that fit and `-EINVAL` for the others, unless
it divides by a zero erase size. -/
theorem verifyPartitionBasicConditions_cases (dev : MtdpartctlDevice) (info : MtdPartitionInfo) :
    (Fits dev.backingMtd info.offset info.length ∧
      verifyPartitionBasicConditions dev info = .ok 0) ∨
    (¬ Fits dev.backingMtd info.offset info.length ∧
      verifyPartitionBasicConditions dev info = .ok (neg .EINVAL)) ∨
    (¬ Fits dev.backingMtd info.offset info.length ∧
      DividesByZero dev.backingMtd info.offset info.length ∧
      verifyPartitionBasicConditions dev info = .error .divideError) := by
  unfold verifyPartitionBasicConditions checkAddOverflow
  simp only [decide_eq_true_eq]
  by_cases hlen : info.length = 0
  · rw [if_pos hlen]
    refine Or.inr (Or.inl ⟨fun h => ?_, rfl⟩)
    have hpos := h.pos
    rw [hlen] at hpos
    exact absurd hpos (by decide)
  rw [if_neg hlen]
  by_cases hover : 2 ^ 64 ≤ info.offset.toNat + info.length.toNat
  · rw [if_pos hover]
    exact Or.inr (Or.inl ⟨fun h => absurd h.lt_two_pow (by omega), rfl⟩)
  rw [if_neg hover]
  have hsum := toNat_add_of_lt (not_le.mp hover)
  by_cases hsize : dev.backingMtd.size < info.offset + info.length
  · rw [if_pos hsize]
    rw [UInt64.lt_iff_toNat_lt, hsum] at hsize
    exact Or.inr (Or.inl ⟨fun h => absurd h.le_size (by omega), rfl⟩)
  rw [if_neg hsize]
  rw [UInt64.lt_iff_toNat_lt, hsum, not_lt] at hsize
  have hpos : 0 < info.length.toNat := by
    rw [Nat.pos_iff_ne_zero]
    exact fun h => hlen (UInt64.toNat_inj.mp h)
  by_cases herase : dev.backingMtd.erasesize = 0
  · -- Neither division is reached with a divisor.
    refine Or.inr (Or.inr ⟨fun h => h.erasesize_ne_zero herase, ⟨herase, hpos, hsize⟩, ?_⟩)
    rw [herase, doDiv_zero]
    rfl
  rw [doDiv_of_ne_zero herase, doDiv_of_ne_zero herase]
  simp only [bind, Except.bind, ne_eq, mod_toUInt64_eq_zero_iff]
  by_cases hoff : dev.backingMtd.erasesize.toNat ∣ info.offset.toNat
  · by_cases hdvd : dev.backingMtd.erasesize.toNat ∣ info.length.toNat
    · rw [if_neg (not_not_intro hoff), if_neg (not_not_intro hdvd)]
      exact Or.inl ⟨⟨hpos, hsize, hoff, hdvd⟩, rfl⟩
    · rw [if_neg (not_not_intro hoff), if_pos hdvd]
      exact Or.inr (Or.inl ⟨fun h => hdvd h.length_dvd, rfl⟩)
  · rw [if_pos hoff]
    exact Or.inr (Or.inl ⟨fun h => hoff h.offset_dvd, rfl⟩)

/-- A request that fits passes the basic check. -/
theorem verifyPartitionBasicConditions_of_fits {dev : MtdpartctlDevice} {info : MtdPartitionInfo}
    (h : Fits dev.backingMtd info.offset info.length) :
    verifyPartitionBasicConditions dev info = .ok 0 := by
  rcases verifyPartitionBasicConditions_cases dev info with ⟨_, heq⟩ | ⟨hno, _⟩ | ⟨hno, _⟩
  · exact heq
  · exact absurd h hno
  · exact absurd h hno

/-- The basic check does not return on a range that it has no divisor for. -/
theorem verifyPartitionBasicConditions_of_dividesByZero {dev : MtdpartctlDevice}
    {info : MtdPartitionInfo} (h : DividesByZero dev.backingMtd info.offset info.length) :
    verifyPartitionBasicConditions dev info = .error .divideError := by
  have hwrap : info.offset.toNat + info.length.toNat < 2 ^ 64 :=
    h.le_size.trans_lt dev.backingMtd.size.toNat_lt
  have hlen : info.length ≠ 0 := fun h0 => by
    have hpos := h.pos
    rw [h0] at hpos
    exact absurd hpos (by decide)
  have hsize : ¬ dev.backingMtd.size < info.offset + info.length := by
    rw [UInt64.lt_iff_toNat_lt, toNat_add_of_lt hwrap]
    exact Nat.not_lt.mpr h.le_size
  unfold verifyPartitionBasicConditions checkAddOverflow
  simp only [decide_eq_true_eq]
  rw [if_neg hlen, if_neg (Nat.not_le.mpr hwrap), if_neg hsize, h.erasesize, doDiv_zero]
  rfl

/-! ### The overlap scan -/

/-- On non-empty ranges that do not wrap, neither `BUG_ON` fires and the test is overlap. -/
theorem existingPartitionContainsRange_eq {part : MtdRecipePart} {offset length : UInt64}
    (hpart : part.offset.toNat + part.length.toNat < 2 ^ 64) (hpartpos : 0 < part.length.toNat)
    (hnew : offset.toNat + length.toNat < 2 ^ 64) (hpos : 0 < length.toNat) :
    existingPartitionContainsRange part offset length =
      .ok (decide (¬ Disjoint part.range
        (Finset.Ico offset.toNat (offset.toNat + length.toNat)))) := by
  have hover : decide (2 ^ 64 ≤ part.offset.toNat + part.length.toNat) = false :=
    decide_eq_false (by omega)
  have hover' : decide (2 ^ 64 ≤ offset.toNat + length.toNat) = false :=
    decide_eq_false (by omega)
  have htest := Packing.lt_and_lt_iff_not_disjoint
    (show part.offset.toNat < part.offset.toNat + part.length.toNat by omega)
    (show offset.toNat < offset.toNat + length.toNat by omega)
  unfold existingPartitionContainsRange checkAddOverflow
  simp only [hover, hover', MtdRecipePart.range, UInt64.lt_iff_toNat_lt, toNat_add_of_lt hpart,
    toNat_add_of_lt hnew, ← Bool.decide_and, htest]
  rfl

/-- The scan accepts exactly the ranges disjoint from every part of the list. -/
theorem verifyPartitionParams.loop_eq {offset length : UInt64}
    (hnew : offset.toNat + length.toNat < 2 ^ 64) (hpos : 0 < length.toNat)
    (parts : List MtdRecipePart) :
    (∀ p ∈ parts, p.offset.toNat + p.length.toNat < 2 ^ 64 ∧ 0 < p.length.toNat) →
    verifyPartitionParams.loop offset length parts =
      .ok (if ∀ p ∈ parts, Disjoint p.range
          (Finset.Ico offset.toNat (offset.toNat + length.toNat)) then 0 else neg .EINVAL) := by
  induction parts with
  | nil => intro _; simp [verifyPartitionParams.loop, pure, Except.pure]
  | cons part rest ih =>
    intro hparts
    have hpart := hparts part List.mem_cons_self
    rw [verifyPartitionParams.loop, existingPartitionContainsRange_eq hpart.1 hpart.2 hnew hpos,
      ih fun p hp => hparts p (List.mem_cons_of_mem _ hp)]
    simp only [bind, Except.bind, pure, Except.pure, decide_not, Bool.not_eq_true',
      decide_eq_false_iff_not, List.forall_mem_cons]
    by_cases hd : Disjoint part.range (Finset.Ico offset.toNat (offset.toNat + length.toNat))
    · rw [if_neg (not_not_intro hd)]
      simp only [hd, true_and]
    · rw [if_pos hd, if_neg fun h => hd h.1]

/-! ### The recipe invariant and the outcomes of an add -/

/-- What holds of every recipe list: each part fits the backing MTD and has a terminated name,
and no two parts overlap. -/
structure RecipeInv (mtd : MtdInfo) (parts : List MtdRecipePart) : Prop where
  fits : ∀ p ∈ parts, Fits mtd p.offset p.length
  named : ∀ p ∈ parts, (0 : UInt8) ∈ p.name.bytes
  disjoint : parts.Pairwise fun p q => Disjoint p.range q.range

/-- A request the recipe has room for. -/
structure Acceptable (mtd : MtdInfo) (parts : List MtdRecipePart) (info : MtdPartitionInfo) :
    Prop where
  fits : Fits mtd info.offset info.length
  free : ∀ p ∈ parts, Disjoint p.range info.range

instance (mtd : MtdInfo) (parts : List MtdRecipePart) (info : MtdPartitionInfo) :
    Decidable (Acceptable mtd parts info) :=
  decidable_of_iff
    (Fits mtd info.offset info.length ∧ ∀ p ∈ parts, Disjoint p.range info.range)
    ⟨fun ⟨h₁, h₂⟩ => ⟨h₁, h₂⟩, fun ⟨h₁, h₂⟩ => ⟨h₁, h₂⟩⟩

/-- The device with one more part at the tail of its recipe. -/
def MtdpartctlDevice.appendPart (dev : MtdpartctlDevice) (partition : ExtMtdPartitionInfo) :
    MtdpartctlDevice :=
  { dev with recipe := {
      partitions := dev.recipe.partitions ++ [newRecipePart partition]
      partsCount := dev.recipe.partsCount + 1 } }

/-- The stored name: the request's string cut to 127 bytes, with its terminator. -/
theorem newRecipePart_cString (partition : ExtMtdPartitionInfo) :
    (newRecipePart partition).name.cString =
      some ((strBytes partition.base.name.bytes).take (MTD_PARTITION_NAME_MAX_LENGTH - 1)) :=
  CBuf.cString_terminated _ (by decide)

/-- The part of a request occupies the request's bytes. -/
theorem newRecipePart_range (partition : ExtMtdPartitionInfo) :
    (newRecipePart partition).range = partition.base.range := rfl

/-- An accepted part keeps the invariant. -/
theorem RecipeInv.append {mtd : MtdInfo} {parts : List MtdRecipePart}
    (h : RecipeInv mtd parts) {partition : ExtMtdPartitionInfo}
    (ha : Acceptable mtd parts partition.base) :
    RecipeInv mtd (parts ++ [newRecipePart partition]) := by
  have hname : (0 : UInt8) ∈ (newRecipePart partition).name.bytes := by
    rw [← CBuf.cString_isSome_iff, newRecipePart_cString]
    rfl
  refine ⟨?_, ?_, ?_⟩
  · intro p hp
    rcases List.mem_append.mp hp with hp | hp
    · exact h.fits p hp
    · rw [List.mem_singleton] at hp
      exact hp ▸ ha.fits
  · intro p hp
    rcases List.mem_append.mp hp with hp | hp
    · exact h.named p hp
    · rw [List.mem_singleton] at hp
      exact hp ▸ hname
  · rw [List.pairwise_append]
    refine ⟨h.disjoint, List.pairwise_singleton _ _, ?_⟩
    intro p hp q hq
    rw [List.mem_singleton] at hq
    rw [hq, newRecipePart_range]
    exact ha.free p hp

/-- Any sublist keeps the invariant. -/
theorem RecipeInv.sublist {mtd : MtdInfo} {parts parts' : List MtdRecipePart}
    (h : RecipeInv mtd parts) (hs : parts'.Sublist parts) : RecipeInv mtd parts' :=
  ⟨fun p hp => h.fits p (hs.subset hp), fun p hp => h.named p (hs.subset hp),
    h.disjoint.sublist hs⟩

theorem RecipeInv.nil (mtd : MtdInfo) : RecipeInv mtd [] :=
  ⟨by simp, by simp, List.Pairwise.nil⟩

/-- The critical section of an add whose range passed the basic check: the scan decides, then
the allocation. -/
theorem addRecipePartLocked_eq {mtd : MtdInfo} {recipe : MtdRecipe}
    (hinv : RecipeInv mtd recipe.partitions) (partition : ExtMtdPartitionInfo) (kvzalloc : Bool)
    (hfits : Fits mtd partition.base.offset partition.base.length) :
    addRecipePartLocked recipe partition kvzalloc =
      .ok (if Acceptable mtd recipe.partitions partition.base then
          if kvzalloc then (0, {
            partitions := recipe.partitions ++ [newRecipePart partition]
            partsCount := recipe.partsCount + 1 })
          else (neg .ENOMEM, recipe)
        else (neg .EINVAL, recipe)) := by
  have hscan := verifyPartitionParams.loop_eq hfits.lt_two_pow hfits.pos recipe.partitions
    fun p hp => ⟨(hinv.fits p hp).lt_two_pow, (hinv.fits p hp).pos⟩
  unfold addRecipePartLocked verifyPartitionParamsLocked
  rw [hscan]
  by_cases hfree : ∀ p ∈ recipe.partitions, Disjoint p.range partition.base.range
  · rw [if_pos (show Acceptable mtd recipe.partitions partition.base from ⟨hfits, hfree⟩)]
    rw [if_pos (by exact hfree)]
    cases kvzalloc <;> rfl
  · rw [if_neg fun h : Acceptable mtd recipe.partitions partition.base => hfree h.free]
    rw [if_neg (by exact hfree)]
    rfl

/-- **The outcomes of `add_recipe_part`.**  A request the recipe has room for is appended if the
allocation succeeds, every other call leaves the device alone. -/
theorem addRecipePart_cases {dev : MtdpartctlDevice}
    (hinv : RecipeInv dev.backingMtd dev.recipe.partitions) (partition : ExtMtdPartitionInfo)
    (kvzalloc : Bool) :
    (Acceptable dev.backingMtd dev.recipe.partitions partition.base ∧ kvzalloc = true ∧
      addRecipePart dev partition kvzalloc = .ok (0, dev.appendPart partition)) ∨
    (Acceptable dev.backingMtd dev.recipe.partitions partition.base ∧ kvzalloc = false ∧
      addRecipePart dev partition kvzalloc = .ok (neg .ENOMEM, dev)) ∨
    (¬ Acceptable dev.backingMtd dev.recipe.partitions partition.base ∧
      addRecipePart dev partition kvzalloc = .ok (neg .EINVAL, dev)) ∨
    (¬ Acceptable dev.backingMtd dev.recipe.partitions partition.base ∧
      DividesByZero dev.backingMtd partition.base.offset partition.base.length ∧
      addRecipePart dev partition kvzalloc = .error .divideError) := by
  unfold addRecipePart
  rcases verifyPartitionBasicConditions_cases dev partition.base with
    ⟨hfits, hverify⟩ | ⟨hfits, hverify⟩ | ⟨hfits, herase, hverify⟩
  · rw [hverify]
    simp only [bind, Except.bind, lt_self_iff_false, if_false]
    rw [addRecipePartLocked_eq hinv partition kvzalloc hfits]
    by_cases hacc : Acceptable dev.backingMtd dev.recipe.partitions partition.base
    · rw [if_pos hacc]
      cases kvzalloc with
      | true => exact Or.inl ⟨hacc, rfl, rfl⟩
      | false => exact Or.inr (Or.inl ⟨hacc, rfl, rfl⟩)
    · rw [if_neg hacc]
      exact Or.inr (Or.inr (Or.inl ⟨hacc, rfl⟩))
  · rw [hverify]
    simp only [bind, Except.bind, neg_lt_zero, if_true]
    exact Or.inr (Or.inr (Or.inl ⟨fun h => hfits h.fits, rfl⟩))
  · rw [hverify]
    exact Or.inr (Or.inr (Or.inr ⟨fun h => hfits h.fits, herase, rfl⟩))

/-- An add of such a range does not return either. -/
theorem addRecipePart_of_dividesByZero {dev : MtdpartctlDevice} {partition : ExtMtdPartitionInfo}
    (h : DividesByZero dev.backingMtd partition.base.offset partition.base.length)
    (kvzalloc : Bool) : addRecipePart dev partition kvzalloc = .error .divideError := by
  unfold addRecipePart
  rw [verifyPartitionBasicConditions_of_dividesByZero h]
  rfl

/-! ### Deletion -/

/-- The search removes the node at the distance of `index` from the running counter. -/
theorem delRecipePart.loop_eq (index : UInt32) (parts : List MtdRecipePart) :
    ∀ (curIdx : UInt64) (k : ℕ), curIdx.toNat + k = index.toNat →
      delRecipePart.loop index curIdx parts =
        if k < parts.length then some (parts.eraseIdx k) else none := by
  induction parts with
  | nil => intro curIdx k _; simp [delRecipePart.loop]
  | cons item rest ih =>
    intro curIdx k hk
    have hindex := index.toNat_lt
    have heq : curIdx = index.toUInt64 ↔ k = 0 := by
      rw [← UInt64.toNat_inj, UInt32.toNat_toUInt64]
      omega
    rw [delRecipePart.loop]
    by_cases h0 : k = 0
    · rw [if_pos (heq.mpr h0), h0, if_pos (by simp)]
      rfl
    · -- The counter moves on: it stays below `index` and so does not wrap.
      obtain ⟨j, rfl⟩ : ∃ j, k = j + 1 := ⟨k - 1, by omega⟩
      have hnext : (curIdx + 1).toNat + j = index.toNat := by
        rw [UInt64.toNat_add, UInt64.toNat_one, Nat.mod_eq_of_lt (by omega)]
        omega
      rw [if_neg fun h => h0 (heq.mp h), ih (curIdx + 1) j hnext]
      by_cases hj : j < rest.length
      · rw [if_pos hj, if_pos (by simpa using hj)]
        rfl
      · rw [if_neg hj, if_neg (by simpa using hj)]
        rfl

/-- **The outcomes of `del_recipe_part`.** -/
theorem delRecipePartLocked_eq (recipe : MtdRecipe) (index : UInt32) :
    delRecipePartLocked recipe index =
      if index.toNat < recipe.partitions.length then
        (0, { recipe with partitions := recipe.partitions.eraseIdx index.toNat })
      else (neg .ENOENT, recipe) := by
  unfold delRecipePartLocked
  rw [delRecipePart.loop_eq index recipe.partitions 0 index.toNat (by simp)]
  split_ifs <;> rfl

/-! ### Conversion -/

/-- An array entry made from a recipe part. -/
structure EntryFor (part : MtdRecipePart) (entry : MtdPartition) : Prop where
  name : entry.name = some part.name
  offset : entry.offset = part.offset
  size : entry.size = part.length
  writeable : entry.maskFlags &&& MTD_WRITEABLE ≠ 0 ↔ part.writable = false
  powerupLock : entry.addFlags &&& MTD_POWERUP_LOCK ≠ 0 ↔ part.powerupLockEnabled = true

theorem entryFor_fillMtdPartition (part : MtdRecipePart) :
    EntryFor part (fillMtdPartition part MtdPartition.zero) := by
  refine ⟨rfl, rfl, rfl, ?_, ?_⟩
  · cases h : part.writable <;> simp only [fillMtdPartition, MtdPartition.zero, h] <;> decide
  · cases h : part.powerupLockEnabled <;>
      simp only [fillMtdPartition, MtdPartition.zero, h] <;> decide

/-- From `idx` on, the loop overwrites one zeroed entry for each remaining node and stops with
the array it was given when a node has no entry left. -/
theorem convertRecipe.loop_eq (parts : List MtdRecipePart) :
    ∀ (done : List MtdPartition) (k : ℕ),
      convertRecipe.loop done.length parts (done ++ List.replicate k MtdPartition.zero) =
        if parts.length ≤ k then
          .ok (done ++ parts.map (fillMtdPartition · MtdPartition.zero) ++
            List.replicate (k - parts.length) MtdPartition.zero)
        else .error .arrayOverrun := by
  induction parts with
  | nil => intro done k; simp [convertRecipe.loop, pure, Except.pure]
  | cons item rest ih =>
    intro done k
    rw [convertRecipe.loop]
    cases k with
    | zero => simp [throw, throwThe, MonadExceptOf.throw]
    | succ k =>
      have hget : (done ++ List.replicate (k + 1) MtdPartition.zero)[done.length]? =
          some MtdPartition.zero := by simp [List.replicate_succ]
      have hset : (done ++ List.replicate (k + 1) MtdPartition.zero).set done.length
          (fillMtdPartition item MtdPartition.zero) =
            (done ++ [fillMtdPartition item MtdPartition.zero]) ++
              List.replicate k MtdPartition.zero := by simp [List.replicate_succ]
      have hlen : done.length + 1 =
          (done ++ [fillMtdPartition item MtdPartition.zero]).length := by simp
      simp only [hget, hset]
      rw [hlen, ih]
      simp

/-- A counter in step with a list tells whether the list is empty. -/
theorem counter_eq_zero_iff {α : Type} {count : UInt64} {l : List α}
    (h : count.toNat = l.length) : count = 0 ↔ l = [] := by
  rw [← UInt64.toNat_inj, h, ← List.length_eq_zero_iff]
  rfl

/-- **The conversion with the counter in step with the list.**  An empty list is `-EINVAL`;
otherwise the array is the list, entry for entry. -/
theorem convertRecipeToMtdPartitionsLocked_eq {recipe : MtdRecipe}
    (h : recipe.partsCount.toNat = recipe.partitions.length) :
    convertRecipeToMtdPartitionsLocked recipe true =
      if recipe.partitions = [] then .ok (neg .EINVAL, none)
      else .ok (0, some (recipe.partitions.map (fillMtdPartition · MtdPartition.zero))) := by
  have hzero := counter_eq_zero_iff h
  unfold convertRecipeToMtdPartitionsLocked
  by_cases hnil : recipe.partitions = []
  · rw [if_pos (hzero.mpr hnil), if_pos hnil]
    rfl
  · have hloop := convertRecipe.loop_eq recipe.partitions [] recipe.partsCount.toNat
    simp only [h, le_refl, if_true, Nat.sub_self, List.replicate_zero, List.append_nil,
      List.nil_append, List.length_nil] at hloop
    rw [if_neg fun h0 => hnil (hzero.mp h0), if_neg hnil, h, hloop]
    simp only [List.isEmpty_iff, hnil]
    rfl

end Mtdpartikr
