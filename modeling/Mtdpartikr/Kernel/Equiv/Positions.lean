import Mtdpartikr.Kernel.Equiv.Listing

/-!
# Live partitions by their position

A client names a partition by its position in `GET_PARTITION_LIST`, the MTD core by its index.

* `mem_copyListToUser`: a listing shows an entry of a list at the entry's own position.
* `relativeToAbsolute.loop_eq`: the walk of `mtd_relative_master_index_to_absolute_index` compares
  every partition with the position it starts from, so it finds the first partition or none.
* `delMtdPartition_iff`: `DEL_MTD_PARTITION` deletes the listed partition, and refuses a position
  behind the list, exactly at position zero and behind the list.
-/

namespace Mtdpartikr

/-! ### Positions of a listing -/

section Listing

variable {α β : Type} (entry : α → β) {copyToUser : ℕ → Bool}

/-- A listing that is asked for enough entries shows each one at its position. -/
theorem mem_copyListToUser (hcopy : ∀ i, copyToUser i = true) {parts : List α} {i : ℕ} {part : α}
    (hpart : parts[i]? = some part) {readCount : UInt32} (hi : i < readCount.toNat) :
    (i, entry part) ∈ (copyListToUser entry copyToUser readCount.toUInt64 parts).2.1 := by
  rw [copyListToUser_eq entry hcopy]
  have htake : (parts.take readCount.toNat)[i]? = some part := by
    rw [List.getElem?_take_of_lt hi]
    exact hpart
  exact List.mem_map.mpr ⟨(part, i), List.mk_mem_zipIdx_iff_getElem?.mpr htake, rfl⟩

end Listing

/-- `LIST_RECIPE_PARTS` shows each part at its position. -/
theorem listRecipeParts_mem {env : Env} (hcopy : ∀ i, env.copyToUser i = true)
    {dev : MtdpartctlDevice} (hflag : dev.proxy.aboutToRespawn = false) {i : ℕ}
    {part : MtdRecipePart} (hpart : dev.recipe.partitions[i]? = some part) {readCount : UInt32}
    (hi : i < readCount.toNat) : ∃ writes count,
      mtdpartctlChrdevIoctl env dev (.listRecipeParts (some readCount)) =
        .ok ⟨0, dev, [], .recipeParts writes count⟩ ∧ (i, listedRecipePart part) ∈ writes := by
  have hmem := mem_copyListToUser listedRecipePart hcopy hpart hi
  have hlist : copyRecipePartsListToUser env.copyToUser dev.recipe readCount.toUInt64 = _ :=
    copyListToUser_eq listedRecipePart hcopy dev.recipe.partitions readCount
  rw [copyListToUser_eq listedRecipePart hcopy] at hmem
  refine ⟨_, some (UInt32.ofNat (dev.recipe.partitions.take readCount.toNat).length), ?_, hmem⟩
  simp only [mtdpartctlChrdevIoctl, hflag, hlist]
  rfl

/-- In a list without duplicates the rest tells which element is gone. -/
theorem eraseIdx_inj {α : Type} {l : List α} (hl : l.Nodup) {i j : ℕ} (hi : i < l.length)
    (h : l.eraseIdx i = l.eraseIdx j) : i = j := by
  by_contra hne
  have hmem : l[i] ∈ l.eraseIdx j := List.mem_eraseIdx_iff_getElem.mpr ⟨i, hi, hne, rfl⟩
  rw [← h, List.mem_eraseIdx_iff_getElem] at hmem
  obtain ⟨k, hk, hki, heq⟩ := hmem
  exact hki (hl.getElem_inj_iff.mp heq)

/-- The parts of a recipe differ, since their ranges do. -/
theorem RecipeInv.nodup {mtd : MtdInfo} {parts : List MtdRecipePart} (h : RecipeInv mtd parts) :
    parts.Nodup := by
  refine h.disjoint.imp_of_mem fun {p q} hp _ hdisj heq => ?_
  have hpos := (h.fits p hp).pos
  rw [← heq, disjoint_self, Finset.bot_eq_empty, MtdRecipePart.range, Finset.Ico_eq_empty_iff]
    at hdisj
  omega

/-! ### The walk over the partitions -/

/-- The walk stops at the first partition or not at all. -/
theorem relativeToAbsolute.loop_eq (tmpIdx idx : UInt32) (children : List ChildMtd) :
    relativeToAbsolute.loop tmpIdx idx children =
      if tmpIdx = idx then (children.head?.map ChildMtd.index).getD (-1) else -1 := by
  induction children with
  | nil =>
    rw [relativeToAbsolute.loop]
    split_ifs <;> rfl
  | cons child rest ih =>
    rw [relativeToAbsolute.loop]
    by_cases h : tmpIdx = idx
    · rw [if_pos h, if_pos h]
      rfl
    · rw [if_neg h, ih, if_neg h, if_neg h]

/-! ### `DEL_MTD_PARTITION` -/

/-- The indices the MTD core gives to live partitions. -/
structure ProxyMtdInfo.Indexed (mtd : ProxyMtdInfo) : Prop where
  nonneg : ∀ child ∈ mtd.partitions, 0 ≤ child.index
  nodup : (mtd.partitions.map ChildMtd.index).Nodup

/-- `mtd_del_partition` that succeeds removes the partitions with the index it is given. -/
def MtdCore.DeletesByIndex (core : MtdCore) : Prop :=
  ∀ m i, 0 ≤ (core.mtdDelPartition m i).1 →
    (core.mtdDelPartition m i).2.partitions = m.partitions.filter fun child => child.index ≠ i

/-- `DEL_MTD_PARTITION` by the positions of `GET_PARTITION_LIST`. -/
structure DeletesListed (env : Env) (dev : MtdpartctlDevice) (idx : UInt32) : Prop where
  /-- A position on the list is deleted: the partition that is listed there goes to the MTD core,
  and if that succeeds it is the one that is gone. -/
  below : idx.toNat < dev.proxy.mtd.partitions.length → ∃ child r,
    dev.proxy.mtd.partitions[idx.toNat]? = some child ∧
    (∀ readCount : UInt32, idx.toNat < readCount.toNat → (idx.toNat, listedMtdPart child) ∈
      (copyMtdPartsListToUser (fun _ => true) dev.proxy.mtd readCount.toUInt64).2.1) ∧
    mtdpartctlChrdevIoctl env dev (.delMtdPartition (some idx)) = .ok r ∧
    r.calls = [.mtdDelPartition child.index] ∧
    (0 ≤ r.ret →
      r.dev.proxy.mtd.partitions = dev.proxy.mtd.partitions.eraseIdx idx.toNat)
  /-- A position behind the list is refused, and only that: the other case makes a call. -/
  beyond : dev.proxy.mtd.partitions.length ≤ idx.toNat →
    mtdpartctlChrdevIoctl env dev (.delMtdPartition (some idx)) = .ok ⟨neg .EINVAL, dev, [], .none⟩

section Delete

variable (env : Env) {dev : MtdpartctlDevice} (hflag : dev.proxy.aboutToRespawn = false)
  (hrefs : dev.proxy.useRefcnt = 0)

include hflag hrefs

/-- Position zero of a list that has one. -/
theorem mtdpartctlChrdevIoctl_delMtdPartition_zero {child : ChildMtd} {rest : List ChildMtd}
    (hparts : dev.proxy.mtd.partitions = child :: rest) (hpos : 0 ≤ child.index) :
    mtdpartctlChrdevIoctl env dev (.delMtdPartition (some 0)) =
      .ok ⟨(env.core.mtdDelPartition dev.proxy.mtd child.index).1,
        { dev with proxy := { dev.proxy with
            mtd := (env.core.mtdDelPartition dev.proxy.mtd child.index).2 } },
        [.mtdDelPartition child.index], .none⟩ := by
  have hwalk : mtdRelativeMasterIndexToAbsoluteIndex dev.proxy.mtd 0 = child.index := by
    unfold mtdRelativeMasterIndexToAbsoluteIndex
    rw [relativeToAbsolute.loop_eq, hparts]
    rfl
  simp only [mtdpartctlChrdevIoctl, immediateEditLocked, hflag, hrefs, ImmediateEdit.coreCall,
    hwalk, if_neg (Int32.not_lt.mpr hpos)]
  rfl

/-- Any other position, or an empty list. -/
theorem mtdpartctlChrdevIoctl_delMtdPartition_refused {idx : UInt32}
    (hidx : idx ≠ 0 ∨ dev.proxy.mtd.partitions = []) :
    mtdpartctlChrdevIoctl env dev (.delMtdPartition (some idx)) =
      .ok ⟨neg .EINVAL, dev, [], .none⟩ := by
  have hwalk : mtdRelativeMasterIndexToAbsoluteIndex dev.proxy.mtd idx = -1 := by
    unfold mtdRelativeMasterIndexToAbsoluteIndex
    rw [relativeToAbsolute.loop_eq]
    rcases hidx with hidx | hnil
    · rw [if_neg fun h => hidx h.symm]
    · rw [hnil]
      split_ifs <;> rfl
  simp only [mtdpartctlChrdevIoctl, immediateEditLocked, hflag, hrefs, ImmediateEdit.coreCall,
    hwalk]
  rfl

/-- **When `DEL_MTD_PARTITION` deletes by position**: at position zero and behind the list.  At
every other position it refuses a partition that is listed. -/
theorem delMtdPartition_iff (hindexed : dev.proxy.mtd.Indexed) (hcore : env.core.DeletesByIndex)
    (idx : UInt32) :
    DeletesListed env dev idx ↔ idx = 0 ∨ dev.proxy.mtd.partitions.length ≤ idx.toNat := by
  constructor
  · intro h
    by_contra hno
    rw [not_or, Nat.not_le] at hno
    obtain ⟨child, r, -, -, hr, hcalls, -⟩ := h.below hno.2
    rw [mtdpartctlChrdevIoctl_delMtdPartition_refused env hflag hrefs (Or.inl hno.1)] at hr
    obtain rfl := Except.ok.inj hr
    cases hcalls
  · intro h
    refine ⟨fun hlt => ?_, fun hle => ?_⟩
    · have hzero : idx = 0 := h.resolve_right (Nat.not_le.mpr hlt)
      subst hzero
      obtain ⟨child, rest, hparts⟩ := List.exists_cons_of_length_pos hlt
      have hchild : dev.proxy.mtd.partitions[(0 : UInt32).toNat]? = some child := by
        rw [hparts]
        rfl
      have hpos := hindexed.nonneg child (by rw [hparts]; exact List.mem_cons_self)
      refine ⟨child, _, hchild, fun readCount hroom => ?_,
        mtdpartctlChrdevIoctl_delMtdPartition_zero env hflag hrefs hparts hpos, rfl, fun hret => ?_⟩
      · exact mem_copyListToUser listedMtdPart (fun _ => rfl) hchild hroom
      · -- The other partitions have other indices.
        have hother : ∀ c ∈ rest, c.index ≠ child.index := by
          intro c hc heq
          have hnodup := hindexed.nodup
          rw [hparts, List.map_cons, List.nodup_cons] at hnodup
          exact hnodup.1 (heq ▸ List.mem_map_of_mem hc)
        have hkeep : rest.filter (fun c => decide (c.index ≠ child.index)) = rest :=
          List.filter_eq_self.mpr fun c hc => decide_eq_true (hother c hc)
        have hdel := hcore dev.proxy.mtd child.index hret
        show (env.core.mtdDelPartition dev.proxy.mtd child.index).2.partitions = _
        rw [hdel, hparts, List.filter_cons_of_neg (by simp), hkeep]
        rfl
    · apply mtdpartctlChrdevIoctl_delMtdPartition_refused env hflag hrefs
      rcases h with hzero | hbeyond
      · rw [hzero] at hle
        exact Or.inr (List.length_eq_zero_iff.mp (Nat.le_zero.mp hle))
      · by_cases hzero : idx = 0
        · rw [hzero] at hle
          exact Or.inr (List.length_eq_zero_iff.mp (Nat.le_zero.mp hle))
        · exact Or.inl hzero

end Delete

/-- A device of two erase blocks with a live partition on each. -/
def twoPartitions : MtdpartctlDevice :=
  { MtdpartctlDevice.create ⟨0, 0x2000, 0x1000⟩ 1 with
    proxy := ⟨⟨true, 1, [⟨2, 0, 0x1000⟩, ⟨3, 0x1000, 0x1000⟩]⟩, 0, false⟩ }

theorem twoPartitions_indexed : twoPartitions.proxy.mtd.Indexed :=
  ⟨by decide, by decide⟩

theorem deletesByIndex_answering (unregister register add del : Int) :
    (MtdCore.answering unregister register add del).DeletesByIndex := by
  intro m i h
  unfold MtdCore.answering at h ⊢
  simp only at h ⊢
  split_ifs at h ⊢ with hdel
  · exact absurd hdel (Int.not_lt.mpr h)
  · rfl

/-- The first of them can be deleted. -/
theorem delMtdPartition_iff_zero : DeletesListed .succeeding twoPartitions 0 :=
  (delMtdPartition_iff .succeeding rfl rfl twoPartitions_indexed
    (deletesByIndex_answering 0 0 0 0) 0).mpr (Or.inl rfl)

/-- The second one is listed at position one and cannot. -/
theorem delMtdPartition_one :
    twoPartitions.proxy.mtd.Indexed ∧ Env.succeeding.core.DeletesByIndex ∧
      mtdpartctlChrdevIoctl .succeeding twoPartitions (.delMtdPartition (some 1)) =
        .ok ⟨neg .EINVAL, twoPartitions, [], .none⟩ ∧
      ¬ DeletesListed .succeeding twoPartitions 1 := by
  have hrefused := @mtdpartctlChrdevIoctl_delMtdPartition_refused .succeeding twoPartitions
    rfl rfl 1 (Or.inl (by decide))
  refine ⟨twoPartitions_indexed, deletesByIndex_answering 0 0 0 0, hrefused, fun h => ?_⟩
  obtain ⟨child, r, -, -, hr, hcalls, -⟩ := h.below (by decide)
  rw [hrefused] at hr
  obtain rfl := Except.ok.inj hr
  cases hcalls

end Mtdpartikr
