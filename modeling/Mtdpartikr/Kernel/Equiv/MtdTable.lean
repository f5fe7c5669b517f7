import Mtdpartikr.Kernel.MtdTable

/-!
# Which MTDs the walk visits

* `mtdForEachMaster_eq`: the walk is one call of the callback for each MTD that passes its test,
  in the order of the indices, numbered from 0, up to the first that fails.
* `mtdForEachMaster_visits_iff`: these are the masters the filter names, except that the loop
  for NAND tests for `MTD_NORFLASH` where it means `MTD_NANDFLASH`.
-/

namespace Mtdpartikr

variable {σ S : Type}

/-! ### The walk as a list -/

/-- The callback on the MTDs of a list, numbered from `idx` on. -/
def runCallbacks (func : HandleMtdFunc σ S) :
    ℕ → List (MtdDev σ) → S → Except InitOops (Int × S)
  | _, [], s => pure (0, s)
  | idx, mtd :: rest, s => do
    let (ret, s) ← func s idx mtd
    if ret < 0 then
      return (ret, s)
    runCallbacks func (idx + 1) rest s

/-- `__mtd_next_device` gives the lowest registered index at or above its argument. -/
theorem mtdNextDevice_eq {table : MtdTable σ} {done rest : List (MtdDev σ)} {i : ℕ}
    (htable : table.mtds = done ++ rest) (hdone : ∀ mtd ∈ done, mtd.index < i)
    (hrest : ∀ mtd ∈ rest, i ≤ mtd.index) : mtdNextDevice table i = rest.head? := by
  have hnone : done.find? (fun mtd => decide (i ≤ mtd.index)) = none := by
    rw [List.find?_eq_none]
    intro mtd hmtd
    have hlt := hdone mtd hmtd
    simpa using hlt
  rw [mtdNextDevice, htable, List.find?_append, hnone, Option.none_or]
  cases rest with
  | nil => rfl
  | cons mtd rest =>
    have hle : i ≤ mtd.index := hrest mtd List.mem_cons_self
    rw [List.find?_cons_of_pos (by simpa using hle), List.head?_cons]

/-- From the head of the rest of the table on, the walk calls back for the MTDs of the rest. -/
theorem mtdForEachDevice.loop_eq {table : MtdTable σ} (skip : MtdDev σ → Bool)
    (func : HandleMtdFunc σ S) (rest : List (MtdDev σ)) :
    ∀ (done : List (MtdDev σ)) (fuel idx : ℕ) (s : S), table.mtds = done ++ rest →
      rest.length ≤ fuel →
      mtdForEachDevice.loop table skip func fuel rest.head? idx s =
        runCallbacks func idx (rest.filter fun mtd => !skip mtd) s := by
  induction rest with
  | nil =>
    intro done fuel idx s _ _
    rw [List.head?_nil, mtdForEachDevice.loop]
    rfl
  | cons mtd rest ih =>
    intro done fuel idx s htable hfuel
    obtain ⟨fuel, rfl⟩ : ∃ n, fuel = n + 1 :=
      ⟨fuel - 1, by rw [List.length_cons] at hfuel; omega⟩
    have hfuel' : rest.length ≤ fuel := by
      rw [List.length_cons] at hfuel
      omega
    have hsorted := table.sorted
    rw [htable, List.pairwise_append, List.pairwise_cons] at hsorted
    have htable' : table.mtds = (done ++ [mtd]) ++ rest := by
      rw [htable, List.append_assoc, List.singleton_append]
    -- Everything up to `mtd` lies below the next index, everything behind it does not.
    have hnext : mtdNextDevice table (mtd.index + 1) = rest.head? := by
      refine mtdNextDevice_eq htable' (fun m hm => ?_) fun m hm => ?_
      · rcases List.mem_append.mp hm with hm | hm
        · have hlt := hsorted.2.2 m hm mtd List.mem_cons_self
          omega
        · rw [List.mem_singleton] at hm
          rw [hm]
          omega
      · have hlt := hsorted.2.1.1 m hm
        omega
    rw [List.head?_cons, mtdForEachDevice.loop, hnext]
    cases hskip : skip mtd with
    | true =>
      rw [List.filter_cons_of_neg (by simp [hskip]), if_pos rfl]
      exact ih (done ++ [mtd]) fuel idx s htable' hfuel'
    | false =>
      rw [List.filter_cons_of_pos (by simp [hskip]), runCallbacks, if_neg (by simp)]
      have hrec := fun s => ih (done ++ [mtd]) fuel (idx + 1) s htable' hfuel'
      simp only [hrec]

/-- The MTDs the walk of a filter does not skip, in table order. -/
def visitedMtds (filter : MtdDeviceTypeFilter) (table : MtdTable σ) : List (MtdDev σ) :=
  table.mtds.filter fun mtd => !skips filter mtd

/-- **The walk calls back for the MTDs it does not skip, one after the other.** -/
theorem mtdForEachMaster_eq (table : MtdTable σ) (func : HandleMtdFunc σ S)
    (filter : MtdDeviceTypeFilter) (s : S) :
    mtdForEachMasterDeviceFilteredLocked table func filter s =
      runCallbacks func 0 (visitedMtds filter table) s := by
  have hfirst : mtdNextDevice table 0 = table.mtds.head? :=
    mtdNextDevice_eq (List.nil_append _).symm (fun _ hm => nomatch hm) fun _ _ => Nat.zero_le _
  unfold mtdForEachMasterDeviceFilteredLocked mtdForEachDevice
  rw [hfirst]
  exact mtdForEachDevice.loop_eq (skips filter) func table.mtds [] _ 0 s rfl le_rfl

/-! ### What a filter names -/

/-- The types of MTD a filter stands for. -/
def MtdDeviceTypeFilter.Names : MtdDeviceTypeFilter → UInt8 → Prop
  | .all, _ => True
  | .nor, type => type = MTD_NORFLASH
  | .nand, type => type = MTD_NANDFLASH ∨ type = MTD_MLCNANDFLASH

instance : ∀ (filter : MtdDeviceTypeFilter) (type : UInt8), Decidable (filter.Names type)
  | .all, _ => inferInstanceAs (Decidable True)
  | .nor, type => inferInstanceAs (Decidable (type = MTD_NORFLASH))
  | .nand, type => inferInstanceAs (Decidable (type = MTD_NANDFLASH ∨ type = MTD_MLCNANDFLASH))

/-- The masters a filter names, in table order. -/
def namedMasters (filter : MtdDeviceTypeFilter) (table : MtdTable σ) : List (MtdDev σ) :=
  table.mtds.filter fun mtd => !mtd.isPartition && decide (filter.Names mtd.type)

/-- A callback that also notes what it is called with. -/
def logged (func : HandleMtdFunc σ S) : HandleMtdFunc σ (S × List (ℕ × MtdDev σ)) :=
  fun s idx mtd => do
    let (ret, s') ← func s.1 idx mtd
    return (ret, (s', s.2 ++ [(idx, mtd)]))

/-- The callback returns no error. -/
def Succeeds (func : HandleMtdFunc σ S) : Prop :=
  ∀ s idx mtd, ∃ ret s', func s idx mtd = .ok (ret, s') ∧ 0 ≤ ret

/-- A callback that succeeds is called for every MTD of the list, with its place. -/
theorem runCallbacks_logged {func : HandleMtdFunc σ S} (h : Succeeds func)
    (mtds : List (MtdDev σ)) :
    ∀ (idx : ℕ) (s : S) (log : List (ℕ × MtdDev σ)),
      ∃ s', runCallbacks (logged func) idx mtds (s, log) =
        .ok (0, (s', log ++ (mtds.zipIdx idx).map Prod.swap)) := by
  induction mtds with
  | nil =>
    intro idx s log
    refine ⟨s, ?_⟩
    rw [List.zipIdx_nil, List.map_nil, List.append_nil]
    rfl
  | cons mtd rest ih =>
    intro idx s log
    obtain ⟨ret, s₁, hcall, hret⟩ := h s idx mtd
    obtain ⟨s', hrest⟩ := ih (idx + 1) s₁ (log ++ [(idx, mtd)])
    refine ⟨s', ?_⟩
    have hlogged : logged func (s, log) idx mtd = .ok (ret, (s₁, log ++ [(idx, mtd)])) := by
      simp only [logged, hcall]
      rfl
    rw [runCallbacks, hlogged]
    show (if ret < 0 then _ else _) = _
    rw [if_neg (Int.not_lt.mpr hret), hrest, List.append_assoc]
    rfl

/-- The loops for ALL and NOR test for what their filter names.  The loop for NAND lets
`MTD_NORFLASH` through and skips `MTD_NANDFLASH`. -/
theorem skips_iff (filter : MtdDeviceTypeFilter) (mtd : MtdDev σ) :
    (!skips filter mtd) = (!mtd.isPartition && decide (filter.Names mtd.type)) ↔
      (filter = .nand → mtd.isPartition = false →
        mtd.type ≠ MTD_NORFLASH ∧ mtd.type ≠ MTD_NANDFLASH) := by
  rw [Bool.eq_iff_iff, Bool.and_eq_true, decide_eq_true_iff]
  cases hpart : mtd.isPartition with
  | true => cases filter <;> simp [skips, hpart]
  | false =>
    cases filter with
    | all => simp [skips, hpart, MtdDeviceTypeFilter.Names]
    | nor => simp [skips, hpart, MtdDeviceTypeFilter.Names]
    | nand =>
      have hne : MTD_NORFLASH ≠ MTD_NANDFLASH ∧ MTD_NORFLASH ≠ MTD_MLCNANDFLASH ∧
          MTD_NANDFLASH ≠ MTD_MLCNANDFLASH := by decide
      by_cases hnor : mtd.type = MTD_NORFLASH
      · simp [skips, hpart, MtdDeviceTypeFilter.Names, hnor, hne.1, hne.2.1]
      · by_cases hnand : mtd.type = MTD_NANDFLASH
        · simp [skips, hpart, MtdDeviceTypeFilter.Names, hnand, hne.1.symm, hne.2.2]
        · simp [skips, hpart, MtdDeviceTypeFilter.Names, hnor, hnand]

/-- The masters visited are the masters named exactly when the test is right for every one. -/
theorem visitedMtds_eq_iff (filter : MtdDeviceTypeFilter) (table : MtdTable σ) :
    visitedMtds filter table = namedMasters filter table ↔
      (filter = .nand → ∀ mtd ∈ table.mtds, mtd.isPartition = false →
        mtd.type ≠ MTD_NORFLASH ∧ mtd.type ≠ MTD_NANDFLASH) := by
  constructor
  · intro heq hnand mtd hmtd
    refine (skips_iff filter mtd).mp ?_ hnand
    have hiff : mtd ∈ visitedMtds filter table ↔ mtd ∈ namedMasters filter table := by rw [heq]
    rw [visitedMtds, namedMasters, List.mem_filter, List.mem_filter] at hiff
    simp only [hmtd, true_and] at hiff
    exact Bool.eq_iff_iff.mpr hiff
  · intro h
    apply List.filter_congr
    intro mtd hmtd
    exact (skips_iff filter mtd).mpr fun hnand => h hnand mtd hmtd

/-- **The walk visits exactly the masters its filter names**, once each, in the order of their
indices and numbered from 0, if and only if the filter is not NAND or no master has the type
`MTD_NORFLASH` or `MTD_NANDFLASH`. -/
theorem mtdForEachMaster_visits_iff (table : MtdTable σ) (filter : MtdDeviceTypeFilter)
    {func : HandleMtdFunc σ S} (h : Succeeds func) (s : S) :
    (∃ s', mtdForEachMasterDeviceFilteredLocked table (logged func) filter (s, []) =
      .ok (0, (s', (namedMasters filter table).zipIdx.map Prod.swap))) ↔
      (filter = .nand → ∀ mtd ∈ table.mtds, mtd.isPartition = false →
        mtd.type ≠ MTD_NORFLASH ∧ mtd.type ≠ MTD_NANDFLASH) := by
  obtain ⟨s', hrun⟩ := runCallbacks_logged h (visitedMtds filter table) 0 s []
  rw [List.nil_append] at hrun
  rw [← visitedMtds_eq_iff, mtdForEachMaster_eq, hrun]
  constructor
  · rintro ⟨s'', heq⟩
    have hlog := (Prod.mk.inj (Prod.mk.inj (Except.ok.inj heq)).2).2
    have hmap := congrArg (List.map Prod.snd) hlog
    rw [List.map_map, List.map_map] at hmap
    show visitedMtds filter table = namedMasters filter table
    rw [← List.zipIdx_map_fst 0 (visitedMtds filter table),
      ← List.zipIdx_map_fst 0 (namedMasters filter table)]
    exact hmap
  · intro heq
    exact ⟨s', by rw [heq]⟩

/-- A callback that counts its calls, as `add_mtd_count` does. -/
def countCalls : HandleMtdFunc Unit ℕ := fun n _ _ => pure (0, n + 1)

/-- Two MLC NAND chips, and between them a partition of the first one and a chip of RAM, whose type
is 1.  The indices 0, 3 and 5 are not in use. -/
def mixedTable : MtdTable Unit where
  mtds := [{ MtdDev.zero with index := 1, type := MTD_MLCNANDFLASH },
    { MtdDev.zero with index := 2, type := MTD_MLCNANDFLASH, isPartition := true },
    { MtdDev.zero with index := 4, type := 1 },
    { MtdDev.zero with index := 6, type := MTD_MLCNANDFLASH }]
  sorted := by decide

/-- The two MLC NAND chips are visited for NAND, numbered from 0. -/
theorem mtdForEachMaster_visits_mixed :
    (∃ n, mtdForEachMasterDeviceFilteredLocked mixedTable (logged countCalls) .nand (0, []) =
      .ok (0, (n, (namedMasters .nand mixedTable).zipIdx.map Prod.swap))) ∧
    ((namedMasters .nand mixedTable).map MtdDev.index).zipIdx = [(1, 0), (6, 1)] := by
  have hsucceeds : Succeeds countCalls := fun n _ _ => ⟨0, n + 1, rfl, Int.le_refl 0⟩
  refine ⟨(mtdForEachMaster_visits_iff mixedTable .nand hsucceeds 0).mpr ?_, rfl⟩
  intro _ mtd hmtd _
  simp only [mixedTable, List.mem_cons, List.not_mem_nil, or_false] at hmtd
  rcases hmtd with rfl | rfl | rfl | rfl <;> exact ⟨by decide, by decide⟩

/-- A table with one NAND chip. -/
def nandTable : MtdTable Unit :=
  ⟨[{ MtdDev.zero with type := MTD_NANDFLASH }], List.pairwise_singleton _ _⟩

/-- A NAND chip is not visited for NAND. -/
theorem mtdForEachMaster_skips_nand :
    mtdForEachMasterDeviceFilteredLocked nandTable (logged countCalls) .nand (0, []) =
        .ok (0, (0, [])) ∧
      (namedMasters .nand nandTable).length = 1 ∧
      ¬ ∃ n, mtdForEachMasterDeviceFilteredLocked nandTable (logged countCalls) .nand (0, []) =
        .ok (0, (n, (namedMasters .nand nandTable).zipIdx.map Prod.swap)) := by
  refine ⟨rfl, rfl, ?_⟩
  rintro ⟨n, heq⟩
  have hlog := (Prod.mk.inj (Prod.mk.inj (Except.ok.inj heq)).2).2
  cases hlog

end Mtdpartikr
