import Mtdpartikr.Kernel.Equiv.DeviceRun

/-!
# Partition names on the two creation paths

A name array reaches the MTD core in `ADD_MTD_PARTITION` as userspace filled it, and on the
recipe path as `add_recipe_part` copied it.

* `recipePathNames`: every name a dispatch hands over is the string of its request, cut to 127
  bytes, whatever the array.
* `partitionName_iff`: both paths hand over that string exactly for the arrays that contain a
  NUL.  `ADD_MTD_PARTITION` lacks the terminator `add_recipe_part` writes.
-/

namespace Mtdpartikr

/-- The name a request stands for: the bytes before the first NUL, cut to 127. -/
def requestName (name : NameBuf) : List UInt8 :=
  (strBytes name.bytes).take (MTD_PARTITION_NAME_MAX_LENGTH - 1)

/-- Whenever `ADD_MTD_PARTITION` with this name array gets to the MTD core, the core is given
the request's name as a terminated string. -/
def AddPathNames (name : NameBuf) : Prop :=
  ∀ env dev partInfo r nm offset length, Reachable dev → partInfo.name = name →
    mtdpartctlChrdevIoctl env dev (.addMtdPartition (some partInfo)) = .ok r →
    .mtdAddPartition nm offset length ∈ r.calls → nm.cString = some (requestName name)

/-- Whenever a dispatch gets to the MTD core, the recipe is a list of requests made in the run,
and the entry of each request with this name array points to the request's name as a terminated
string. -/
def RecipePathNames (name : NameBuf) : Prop :=
  ∀ dev dev' es env r partitions n, dev.Created → deviceSystem.run dev es = some dev' →
    mtdpartctlChrdevIoctl env dev' .recipeCreatePartitions = .ok r →
    .mtdDeviceParseRegister partitions n ∈ r.calls →
    ∃ (requests : List ExtMtdPartitionInfo) (entries : List MtdPartition),
      partitions = some entries ∧
      dev'.recipe.partitions = requests.map newRecipePart ∧
      (∀ q ∈ requests, ∃ env', (env', .ioctl (.recipeAddPart (some q))) ∈ es) ∧
      ∀ (i : ℕ) (q : ExtMtdPartitionInfo), requests[i]? = some q → q.base.name = name →
        ∃ (entry : MtdPartition) (nm : NameBuf), entries[i]? = some entry ∧ entry.name = some nm ∧
          nm.cString = some (requestName name)

/-! ### The recipe path -/

/-- A converted array starts with the entries of the list, whatever the counter says. -/
theorem convertRecipeToMtdPartitionsLocked_prefix {recipe : MtdRecipe} {kvzalloc : Bool}
    {ret : Int} {partitions : Option (List MtdPartition)}
    (h : convertRecipeToMtdPartitionsLocked recipe kvzalloc = .ok (ret, partitions))
    (hret : 0 ≤ ret) :
    ∃ rest, partitions =
      some (recipe.partitions.map (fillMtdPartition · MtdPartition.zero) ++ rest) := by
  have hfail : ∀ e, ret ≠ neg e := fun e he => by
    rw [he] at hret
    exact absurd hret (not_nonneg_neg e)
  unfold convertRecipeToMtdPartitionsLocked at h
  by_cases hzero : recipe.partsCount = 0
  · rw [if_pos hzero] at h
    exact absurd (Prod.mk.inj (Except.ok.inj h)).1.symm (hfail _)
  rw [if_neg hzero] at h
  by_cases hempty : recipe.partitions.isEmpty = true
  · rw [if_pos hempty] at h
    cases h
  rw [if_neg hempty] at h
  cases kvzalloc with
  | false => exact absurd (Prod.mk.inj (Except.ok.inj h)).1.symm (hfail _)
  | true =>
    obtain ⟨entries, hloop, h⟩ := bind_eq_ok h
    obtain ⟨-, rfl⟩ := Prod.mk.inj (Except.ok.inj h)
    have heq := convertRecipe.loop_eq recipe.partitions [] recipe.partsCount.toNat
    rw [List.length_nil, List.nil_append, hloop] at heq
    split_ifs at heq
    exact ⟨_, congrArg some (Except.ok.inj heq)⟩

/-- **The recipe path names every partition right.** -/
theorem recipePathNames (name : NameBuf) : RecipePathNames name := by
  intro dev dev' es env r partitions n hdev hrun hr hcall
  obtain ⟨requests, hreq, hfrom⟩ := run_requests hdev hrun
  obtain ⟨r', hcreate, hr⟩ := bind_eq_ok hr
  obtain rfl := Except.ok.inj hr
  obtain ⟨-, ret, hconv, hret⟩ := createRecipePartitions_parseRegister hcreate hcall
  obtain ⟨rest, rfl⟩ := convertRecipeToMtdPartitionsLocked_prefix hconv hret
  refine ⟨requests, _, rfl, hreq, hfrom, fun i q hq hname => ?_⟩
  have hlt : i < requests.length := (List.getElem?_eq_some_iff.mp hq).1
  refine ⟨fillMtdPartition (newRecipePart q) MtdPartition.zero, (newRecipePart q).name, ?_, rfl, ?_⟩
  · rw [List.getElem?_append_left (by simpa [hreq] using hlt), hreq]
    simp [hq]
  · rw [newRecipePart_cString, hname]
    rfl

/-! ### The immediate path -/

/-- `ADD_MTD_PARTITION` hands the array it was given to the core. -/
theorem addMtdPartition_name {env : Env} {dev : MtdpartctlDevice} {partInfo : MtdPartitionInfo}
    {r : IoctlResult} {nm : NameBuf} {offset length : Int64}
    (h : mtdpartctlChrdevIoctl env dev (.addMtdPartition (some partInfo)) = .ok r)
    (hcall : .mtdAddPartition nm offset length ∈ r.calls) : nm = partInfo.name := by
  obtain ⟨⟨ret, partInfo'⟩, hprep, h⟩ := bind_eq_ok h
  -- The preparation adapts the length at most.
  have hname : partInfo'.name = partInfo.name := by
    have hadapt : (adaptPossibleFullMtdPartitionLength dev partInfo).2.name = partInfo.name := by
      unfold adaptPossibleFullMtdPartitionLength
      simp only
      split_ifs <;> rfl
    unfold prepareAddMtdPartition at hprep
    simp only at hprep
    split_ifs at hprep
    · obtain ⟨-, rfl⟩ := Prod.mk.inj (Except.ok.inj hprep)
      exact hadapt
    · obtain ⟨_, -, hprep⟩ := bind_eq_ok hprep
      obtain ⟨-, rfl⟩ := Prod.mk.inj (Except.ok.inj hprep)
      exact hadapt
  simp only at h
  split_ifs at h
  · obtain rfl := Except.ok.inj h
    simp at hcall
  · obtain rfl := Except.ok.inj h
    rw [← hname]
    unfold immediateEditLocked at hcall
    split_ifs at hcall
    · simp at hcall
    · simp only [ImmediateEdit.coreCall, List.mem_singleton, CoreCall.mtdAddPartition.injEq]
        at hcall
      exact hcall.1

/-- On `openDevice` a request for the whole device gets to the core. -/
theorem addMtdPartition_openDevice (name : NameBuf) :
    ∃ r, mtdpartctlChrdevIoctl .succeeding openDevice
        (.addMtdPartition (some ⟨0, 0x1000, name⟩)) = .ok r ∧
      r.calls = [.mtdAddPartition name 0 0x1000] := by
  have hfits : Fits openDevice.backingMtd (0 : UInt64) (0x1000 : UInt64) := by decide
  have hverify : verifyPartitionBasicConditions openDevice ⟨0, 0x1000, name⟩ = .ok 0 :=
    verifyPartitionBasicConditions_of_fits hfits
  have hlen : (0x1000 : UInt64) ≠ 0 := by decide
  have hadapt : adaptPossibleFullMtdPartitionLength openDevice ⟨0, 0x1000, name⟩ =
      (0, ⟨0, 0x1000, name⟩) := if_neg hlen
  have hprep : prepareAddMtdPartition openDevice ⟨0, 0x1000, name⟩ =
      .ok (0, ⟨0, 0x1000, name⟩) := by
    simp only [prepareAddMtdPartition, hadapt, hverify]
    rfl
  simp only [mtdpartctlChrdevIoctl, hprep]
  exact ⟨_, rfl, rfl⟩

/-- The immediate path is right exactly for arrays with a NUL. -/
theorem addPathNames_iff (name : NameBuf) : AddPathNames name ↔ (0 : UInt8) ∈ name.bytes := by
  constructor
  · intro h
    obtain ⟨r, hr, hcalls⟩ := addMtdPartition_openDevice name
    have hstring := h .succeeding openDevice _ r name 0 0x1000 reachable_openDevice rfl hr
      (by rw [hcalls]; exact List.mem_singleton.mpr rfl)
    rw [← CBuf.cString_isSome_iff, hstring]
    rfl
  · intro h env dev partInfo r nm offset length _ hname hr hcall
    obtain rfl := addMtdPartition_name hr hcall
    obtain rfl := hname
    have hlt := CBuf.length_strBytes_lt h
    rw [CBuf.cString, if_pos h, requestName, List.take_of_length_le (by omega)]

/-! ### Both paths -/

/-- **The two paths give a request the same name exactly when its array contains a NUL.** -/
theorem partitionName_iff (name : NameBuf) :
    (AddPathNames name ∧ RecipePathNames name) ↔ (0 : UInt8) ∈ name.bytes := by
  rw [addPathNames_iff]
  exact and_iff_left (recipePathNames name)

/-- The name array a client sends for a name of 128 or more letters. -/
def fullName : NameBuf := ⟨List.replicate 128 0x41, List.length_replicate⟩

/-- The core is handed a name that does not end inside its buffer. -/
theorem addMtdPartition_unterminated :
    ∃ r, mtdpartctlChrdevIoctl .succeeding openDevice
        (.addMtdPartition (some ⟨0, 0x1000, fullName⟩)) = .ok r ∧
      r.calls = [.mtdAddPartition fullName 0 0x1000] ∧ fullName.cString = none ∧
      ¬ AddPathNames fullName := by
  have hno : (0 : UInt8) ∉ fullName.bytes := by
    intro h
    exact absurd (List.eq_of_mem_replicate h) (by decide)
  obtain ⟨r, hr, hcalls⟩ := addMtdPartition_openDevice fullName
  exact ⟨r, hr, hcalls, if_neg hno, fun h => hno ((addPathNames_iff fullName).mp h)⟩

end Mtdpartikr
