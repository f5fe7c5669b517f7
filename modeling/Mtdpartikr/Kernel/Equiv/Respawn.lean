import Mtdpartikr.Kernel.Respawn

/-!
# What a respawn and an immediate edit do

* `respawnProxyMtdLocked_cases`: a respawn that returns was refused by a user, failed in
  `mtd_device_unregister`, or went on to `mtd_device_parse_register`.  It touches nothing but
  the proxy.
* `immediateEditLocked_failed`: a failed immediate edit leaves the proxy alone.
* `createRecipePartitions_error`: the ways a dispatch may fail to return.
-/

namespace Mtdpartikr

/-- The device with another state of its proxy MTD and the respawn flag clear. -/
def MtdpartctlDevice.respawned (dev : MtdpartctlDevice) (mtd : ProxyMtdInfo) :
    MtdpartctlDevice :=
  { dev with proxy := { dev.proxy with mtd := mtd, aboutToRespawn := false } }

section Respawn

variable (core : MtdCore) (dev : MtdpartctlDevice)

/-- **The outcomes of a respawn.** -/
theorem respawnProxyMtdLocked_cases (partitions : Option (List MtdPartition)) (n : UInt64)
    {r : Int × MtdpartctlDevice × List CoreCall}
    (h : respawnProxyMtdLocked core dev partitions n = .ok r) :
    (dev.proxy.useRefcnt ≠ 0 ∧ r = (neg .EBUSY, dev.respawned dev.proxy.mtd, [])) ∨
    (dev.proxy.useRefcnt = 0 ∧ (core.mtdDeviceUnregister dev.proxy.mtd).1 < 0 ∧
      r = ((core.mtdDeviceUnregister dev.proxy.mtd).1, dev.respawned dev.proxy.mtd,
        [.mtdDeviceUnregister])) ∨
    (dev.proxy.useRefcnt = 0 ∧ 0 ≤ (core.mtdDeviceUnregister dev.proxy.mtd).1 ∧
      ∃ reg, reg = core.mtdDeviceParseRegister (core.mtdDeviceUnregister dev.proxy.mtd).2
          partitions n ∧
        r = (reg.1, dev.respawned reg.2,
          [.mtdDeviceUnregister, .mtdDeviceParseRegister partitions n])) := by
  unfold respawnProxyMtdLocked respawnFlagged setProxyMtdAboutToRespawn at h
  simp only at h
  by_cases hneg : dev.proxy.useRefcnt < 0
  · rw [if_pos hneg] at h
    cases h
  rw [if_neg hneg] at h
  by_cases hzero : dev.proxy.useRefcnt = 0
  · rw [if_neg (not_not_intro hzero)] at h
    by_cases hunreg : (core.mtdDeviceUnregister dev.proxy.mtd).1 < 0
    · rw [if_pos hunreg] at h
      refine Or.inr (Or.inl ⟨hzero, hunreg, ?_⟩)
      rw [core.unregister_failed _ hunreg] at h
      exact (Except.ok.inj h).symm
    · rw [if_neg hunreg] at h
      exact Or.inr (Or.inr ⟨hzero, Int.not_lt.mp hunreg, _, rfl, (Except.ok.inj h).symm⟩)
  · rw [if_pos hzero] at h
    exact Or.inl ⟨hzero, (Except.ok.inj h).symm⟩

/-- A respawn changes the proxy only. -/
theorem respawnProxyMtdLocked_frame {partitions : Option (List MtdPartition)} {n : UInt64}
    {r : Int × MtdpartctlDevice × List CoreCall}
    (h : respawnProxyMtdLocked core dev partitions n = .ok r) :
    ∃ mtd, r.2.1 = dev.respawned mtd := by
  rcases respawnProxyMtdLocked_cases core dev partitions n h with
    ⟨_, rfl⟩ | ⟨_, _, rfl⟩ | ⟨_, _, reg, _, rfl⟩
  · exact ⟨_, rfl⟩
  · exact ⟨_, rfl⟩
  · exact ⟨_, rfl⟩

/-- The only `BUG_ON` inside a respawn is the one on a negative count. -/
theorem respawnProxyMtdLocked_error {partitions : Option (List MtdPartition)} {n : UInt64}
    {o : Oops} (h : respawnProxyMtdLocked core dev partitions n = .error o) :
    o = .negativeRefcnt := by
  unfold respawnProxyMtdLocked respawnFlagged setProxyMtdAboutToRespawn at h
  simp only at h
  by_cases hneg : dev.proxy.useRefcnt < 0
  · rw [if_pos hneg] at h
    exact (Except.error.inj h).symm
  · rw [if_neg hneg] at h
    split_ifs at h <;> cases h

/-! ### The dispatch of a recipe -/

/-- A dispatch returns the conversion's failure, or what the respawn with the converted array
returns. -/
theorem createRecipePartitions_cases (kvzalloc : Bool)
    {r : Int × MtdpartctlDevice × List CoreCall}
    (h : createRecipePartitions core dev kvzalloc = .ok r) :
    (∃ ret partitions, convertRecipeToMtdPartitionsLocked dev.recipe kvzalloc =
        .ok (ret, partitions) ∧ ret < 0 ∧ r = (ret, dev, [])) ∨
    (∃ ret partitions, convertRecipeToMtdPartitionsLocked dev.recipe kvzalloc =
        .ok (ret, partitions) ∧ 0 ≤ ret ∧
      respawnProxyMtdLocked core dev partitions dev.recipe.partsCount = .ok r) := by
  obtain ⟨⟨ret, partitions⟩, hconv, h⟩ := bind_eq_ok h
  by_cases hret : ret < 0
  · simp only [if_pos hret] at h
    exact Or.inl ⟨ret, partitions, hconv, hret, (Except.ok.inj h).symm⟩
  · simp only [if_neg hret] at h
    split_ifs at h
    · cases h
    · exact Or.inr ⟨ret, partitions, hconv, Int.not_lt.mp hret, h⟩

/-- The conversion loop fails only by running out of array entries. -/
theorem convertRecipe.loop_error (parts : List MtdRecipePart) :
    ∀ (idx : ℕ) (partitions : List MtdPartition) (o : Oops),
      convertRecipe.loop idx parts partitions = .error o → o = .arrayOverrun := by
  induction parts with
  | nil => intro idx partitions o h; cases h
  | cons item rest ih =>
    intro idx partitions o h
    rw [convertRecipe.loop] at h
    cases hget : partitions[idx]? with
    | none => rw [hget] at h; exact (Except.error.inj h).symm
    | some p => rw [hget] at h; exact ih _ _ _ h

theorem convertRecipeToMtdPartitionsLocked_error {recipe : MtdRecipe} {kvzalloc : Bool} {o : Oops}
    (h : convertRecipeToMtdPartitionsLocked recipe kvzalloc = .error o) :
    o = .emptyRecipe ∨ o = .arrayOverrun := by
  unfold convertRecipeToMtdPartitionsLocked at h
  by_cases hzero : recipe.partsCount = 0
  · rw [if_pos hzero] at h
    cases h
  rw [if_neg hzero] at h
  by_cases hempty : recipe.partitions.isEmpty = true
  · rw [if_pos hempty] at h
    exact Or.inl (Except.error.inj h).symm
  rw [if_neg hempty] at h
  cases kvzalloc with
  | false => cases h
  | true =>
    rcases bind_eq_error h with hloop | ⟨_, _, h⟩
    · exact Or.inr (convertRecipe.loop_error _ _ _ _ hloop)
    · cases h

/-- The ways in which a dispatch may not return. -/
theorem createRecipePartitions_error {kvzalloc : Bool} {o : Oops}
    (h : createRecipePartitions core dev kvzalloc = .error o) :
    o = .emptyRecipe ∨ o = .arrayOverrun ∨ o = .zeroPartsCount ∨ o = .negativeRefcnt := by
  rcases bind_eq_error h with hconv | ⟨⟨ret, partitions⟩, _, h⟩
  · rcases convertRecipeToMtdPartitionsLocked_error hconv with rfl | rfl
    · exact Or.inl rfl
    · exact Or.inr (Or.inl rfl)
  · simp only at h
    split_ifs at h
    · cases h
    · exact Or.inr (Or.inr (Or.inl (Except.error.inj h).symm))
    · exact Or.inr (Or.inr (Or.inr (respawnProxyMtdLocked_error core dev h)))

end Respawn

/-! ### Immediate edits -/

/-- A failed immediate edit leaves the proxy alone. -/
theorem immediateEditLocked_failed (core : MtdCore) (proxy : ProxyMtd) (edit : ImmediateEdit)
    (h : (immediateEditLocked core proxy edit).1 < 0) :
    (immediateEditLocked core proxy edit).2.1 = proxy := by
  unfold immediateEditLocked at h ⊢
  split_ifs at h ⊢ with hbusy
  · rfl
  · cases hcall : edit.coreCall proxy.mtd with
    | none => rfl
    | some call =>
      rw [hcall] at h
      have hmtd : (core.answer proxy.mtd call).2 = proxy.mtd := by
        cases edit with
        | add partInfo =>
          obtain rfl := Option.some.inj hcall
          exact core.addPartition_failed _ _ _ _ h
        | del idx =>
          unfold ImmediateEdit.coreCall at hcall
          simp only at hcall
          split_ifs at hcall
          obtain rfl := Option.some.inj hcall
          exact core.delPartition_failed _ _ h
      simp only [hmtd]

/-- An immediate edit touches neither the count nor the respawn flag. -/
theorem immediateEditLocked_frame (core : MtdCore) (proxy : ProxyMtd) (edit : ImmediateEdit) :
    ∃ mtd, (immediateEditLocked core proxy edit).2.1 = { proxy with mtd := mtd } := by
  unfold immediateEditLocked
  split_ifs
  · exact ⟨_, rfl⟩
  · cases edit.coreCall proxy.mtd with
    | none => exact ⟨_, rfl⟩
    | some call => exact ⟨_, rfl⟩

/-- An immediate edit never calls `mtd_device_parse_register`. -/
theorem parseRegister_notMem_immediateEdit (core : MtdCore) (proxy : ProxyMtd)
    (edit : ImmediateEdit) (partitions : Option (List MtdPartition)) (n : UInt64) :
    .mtdDeviceParseRegister partitions n ∉ (immediateEditLocked core proxy edit).2.2 := by
  unfold immediateEditLocked
  split_ifs
  · simp
  · cases edit with
    | add partInfo => simp [ImmediateEdit.coreCall]
    | del idx =>
      unfold ImmediateEdit.coreCall
      simp only
      split_ifs <;> simp

end Mtdpartikr
