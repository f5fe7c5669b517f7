import Mtdpartikr.Kernel.Equiv.DeviceRun

/-!
# When a recipe is full

`RECIPE_ADD_PART` refuses a request for its own faults or for want of room.  The room are the
whole erase blocks of the backing MTD: every part lies in them (`RecipeInv.subset_wholeBlocks`),
and a byte of them that no part has lies in a block that no part has, since parts begin and end
between blocks (`acceptable_block`).  So a recipe refuses everything exactly when the lengths of
its parts add up to the whole blocks (`recipe_full_iff`).
-/

namespace Mtdpartikr

/-! ### Erase blocks -/

section Blocks

variable {k : ℕ}

/-- A range of whole blocks that has a byte of a block has all of it. -/
theorem mem_Ico_of_same_block {a b x y : ℕ} (ha : k ∣ a) (hb : k ∣ b) (hk : 0 < k)
    (hxy : x / k = y / k) (hx : x ∈ Finset.Ico a b) : y ∈ Finset.Ico a b := by
  obtain ⟨m, rfl⟩ := ha
  obtain ⟨n, rfl⟩ := hb
  rw [mul_comm k m, mul_comm k n] at hx ⊢
  rw [Finset.mem_Ico, ← Nat.le_div_iff_mul_le hk, ← Nat.div_lt_iff_lt_mul hk] at hx ⊢
  rwa [← hxy]

/-- The bytes of the block with the byte `b`. -/
theorem div_eq_of_mem_block {b x : ℕ}
    (hx : x ∈ Finset.Ico (b / k * k) (b / k * k + k)) : x / k = b / k := by
  rw [Finset.mem_Ico, ← Nat.succ_mul] at hx
  exact Nat.div_eq_of_lt_le hx.1 hx.2

end Blocks

/-- The bytes of the MTD that are in a whole erase block. -/
def MtdInfo.wholeBlocks (mtd : MtdInfo) : ℕ :=
  mtd.size.toNat / mtd.erasesize.toNat * mtd.erasesize.toNat

theorem MtdInfo.wholeBlocks_le (mtd : MtdInfo) : mtd.wholeBlocks ≤ mtd.size.toNat :=
  Nat.div_mul_le_self _ _

/-- A range of whole blocks inside the MTD ends with the last of them at the latest. -/
theorem MtdInfo.le_wholeBlocks {mtd : MtdInfo} {n : ℕ} (hdvd : mtd.erasesize.toNat ∣ n)
    (hle : n ≤ mtd.size.toNat) : n ≤ mtd.wholeBlocks := by
  rcases Nat.eq_zero_or_pos mtd.erasesize.toNat with hzero | hpos
  · rw [hzero] at hdvd
    rw [Nat.eq_zero_of_zero_dvd hdvd]
    exact Nat.zero_le _
  · calc n = n / mtd.erasesize.toNat * mtd.erasesize.toNat := (Nat.div_mul_cancel hdvd).symm
      _ ≤ mtd.wholeBlocks := Nat.mul_le_mul_right _ (Nat.div_le_div_right hle)

theorem Fits.le_wholeBlocks {mtd : MtdInfo} {offset length : UInt64} (h : Fits mtd offset length) :
    offset.toNat + length.toNat ≤ mtd.wholeBlocks :=
  MtdInfo.le_wholeBlocks (Nat.dvd_add h.offset_dvd h.length_dvd) h.le_size

theorem RecipeInv.subset_wholeBlocks {mtd : MtdInfo} {parts : List MtdRecipePart}
    (h : RecipeInv mtd parts) {p : MtdRecipePart} (hp : p ∈ parts) :
    p.range ⊆ Finset.range mtd.wholeBlocks := by
  intro x hx
  have hle := (h.fits p hp).le_wholeBlocks
  rw [MtdRecipePart.range, Finset.mem_Ico] at hx
  rw [Finset.mem_range]
  omega

/-! ### Room for one more part -/

/-- The ioctl adds the partition. -/
def Adds (dev : MtdpartctlDevice) (partition : ExtMtdPartitionInfo) : Prop :=
  ∃ env r, mtdpartctlChrdevIoctl env dev (.recipeAddPart (some partition)) = .ok r ∧ r.ret = 0

theorem adds_iff {dev : MtdpartctlDevice} (hinv : RecipeInv dev.backingMtd dev.recipe.partitions)
    (partition : ExtMtdPartitionInfo) :
    Adds dev partition ↔ Acceptable dev.backingMtd dev.recipe.partitions partition.base := by
  constructor
  · rintro ⟨env, r, hioctl, hret⟩
    obtain ⟨⟨ret, dev'⟩, hadd, hioctl⟩ := bind_eq_ok hioctl
    obtain rfl := Except.ok.inj hioctl
    rcases addRecipePart_cases hinv partition env.kvzalloc with
      ⟨hacc, _, _⟩ | ⟨hacc, _, _⟩ | ⟨_, heq⟩ | ⟨_, _, heq⟩
    · exact hacc
    · exact hacc
    · rw [heq] at hadd
      obtain ⟨rfl, -⟩ := Prod.mk.inj (Except.ok.inj hadd)
      exact absurd hret (neg_ne_zero .EINVAL)
    · rw [heq] at hadd
      cases hadd
  · intro hacc
    refine ⟨.succeeding, ⟨0, dev.appendPart partition, [], .none⟩, ?_, rfl⟩
    show mtdpartctlChrdevIoctl .succeeding dev (.recipeAddPart (some partition)) = _
    simp only [mtdpartctlChrdevIoctl, Env.succeeding, addRecipePart_of_acceptable hinv hacc]
    rfl

/-- The request for the erase block with the byte `b`. -/
def blockRequest (mtd : MtdInfo) (b : ℕ) : ExtMtdPartitionInfo :=
  ⟨⟨UInt64.ofNat (b / mtd.erasesize.toNat * mtd.erasesize.toNat), mtd.erasesize.toUInt64,
    CBuf.zero _⟩, false, false⟩

/-- **A byte that no part has is in a block that can be added.** -/
theorem acceptable_block {mtd : MtdInfo} {parts : List MtdRecipePart} (h : RecipeInv mtd parts)
    {b : ℕ} (hb : b < mtd.wholeBlocks) (hfree : ∀ p ∈ parts, b ∉ p.range) :
    Acceptable mtd parts (blockRequest mtd b).base := by
  have hpos : 0 < mtd.erasesize.toNat := by
    rw [Nat.pos_iff_ne_zero]
    intro hzero
    rw [MtdInfo.wholeBlocks, hzero, Nat.mul_zero] at hb
    exact Nat.not_lt_zero b hb
  have hend : b / mtd.erasesize.toNat * mtd.erasesize.toNat + mtd.erasesize.toNat ≤
      mtd.wholeBlocks := by
    rw [← Nat.succ_mul]
    exact Nat.mul_le_mul_right _ ((Nat.div_lt_iff_lt_mul hpos).mpr hb)
  have hle := mtd.wholeBlocks_le
  have hsize := mtd.size.toNat_lt
  have hoffset : (UInt64.ofNat (b / mtd.erasesize.toNat * mtd.erasesize.toNat)).toNat =
      b / mtd.erasesize.toNat * mtd.erasesize.toNat := by
    rw [UInt64.toNat_ofNat', Nat.mod_eq_of_lt (by omega)]
  have hlength : (blockRequest mtd b).base.length.toNat = mtd.erasesize.toNat :=
    UInt32.toNat_toUInt64 _
  have hfits : Fits mtd (blockRequest mtd b).base.offset (blockRequest mtd b).base.length := by
    refine ⟨?_, ?_, ?_, ?_⟩
    · rw [hlength]
      exact hpos
    · rw [hlength]
      show (UInt64.ofNat _).toNat + _ ≤ _
      rw [hoffset]
      omega
    · show _ ∣ (UInt64.ofNat _).toNat
      rw [hoffset]
      exact Nat.dvd_mul_left _ _
    · rw [hlength]
  refine ⟨hfits, fun p hp => ?_⟩
  rw [Finset.disjoint_left]
  intro x hx hblock
  have hx' : x ∈ Finset.Ico (b / mtd.erasesize.toNat * mtd.erasesize.toNat)
      (b / mtd.erasesize.toNat * mtd.erasesize.toNat + mtd.erasesize.toNat) := by
    rw [MtdPartitionInfo.range, hlength] at hblock
    rwa [← hoffset]
  -- A part with a byte of the block has `b` too.
  have hfit := h.fits p hp
  exact hfree p hp (mem_Ico_of_same_block hfit.offset_dvd
    (Nat.dvd_add hfit.offset_dvd hfit.length_dvd) hpos (div_eq_of_mem_block hx') hx)

/-- **A recipe is full when its parts take all whole erase blocks.**  `RECIPE_ADD_PART` refuses
every request exactly then. -/
theorem recipe_full_iff {dev : MtdpartctlDevice} (h : Reachable dev) :
    (∀ partition, ¬ Adds dev partition) ↔
      (dev.recipe.partitions.map fun p => p.length.toNat).sum = dev.backingMtd.wholeBlocks := by
  have hinv := h.recipeInv
  have hcard : (dev.recipe.partitions.map fun p => p.length.toNat).sum =
      (dev.recipe.partitions.map fun p => p.range.card).sum := by
    simp [MtdRecipePart.range]
  have hfull := Packing.sum_card_eq_iff MtdRecipePart.range dev.recipe.partitions hinv.disjoint
    fun p hp => hinv.subset_wholeBlocks hp
  rw [Finset.card_range, ← hcard] at hfull
  rw [hfull]
  constructor
  · intro hnone b hb
    by_contra hno
    refine hnone (blockRequest dev.backingMtd b) ((adds_iff hinv _).mpr ?_)
    refine acceptable_block hinv (Finset.mem_range.mp hb) fun p hp hmem => ?_
    exact hno ⟨p, hp, hmem⟩
  · intro hall partition hadds
    have hacc := (adds_iff hinv partition).mp hadds
    have hpos := hacc.fits.pos
    have hle := hacc.fits.le_wholeBlocks
    -- Its first byte belongs to a part already.
    obtain ⟨p, hp, hmem⟩ := hall partition.base.offset.toNat
      (Finset.mem_range.mpr (by omega))
    refine Finset.disjoint_left.mp (hacc.free p hp) hmem ?_
    rw [MtdPartitionInfo.range, Finset.mem_Ico]
    omega

/-- The device of one block has room until its block is in the recipe. -/
theorem recipe_full_iff_oneBlock :
    (¬ ∀ partition, ¬ Adds openDevice partition) ∧
      ∀ partition, ¬ Adds (openDevice.appendPart oneBlockPart) partition := by
  constructor
  · intro hnone
    exact absurd ((recipe_full_iff reachable_openDevice).mp hnone) (by decide)
  · exact (recipe_full_iff reachable_oneBlockPart).mpr (by decide)

end Mtdpartikr
