import Mtdpartikr.Kernel.Equiv.Ioctl

/-!
# The recipe over whole runs of a device

`RecipeStep` says once what a call can do to the recipe (`deviceCall_recipe`); the invariants of
a run follow from it.

* `reachable_recipe`: after any run every part fits the backing MTD, has a terminated name and
  overlaps no other part, so the overflow `BUG_ON`s are out of reach and the parts together, and
  their number, are bounded by the backing MTD.
* `recipeConsistent_run_iff`: the counter `parts_count` agrees with the list, and a dispatch
  hands exactly the list to the MTD core, in all states of a run if and only if the run makes no
  `RECIPE_DEL_PART` call that finds its part.
-/

namespace Mtdpartikr

/-! ### What a call does to the recipe -/

/-- The call is a `RECIPE_DEL_PART` whose index is on the list. -/
def DeletesPart (dev : MtdpartctlDevice) (call : DevCall) : Prop :=
  ∃ idx, call = .ioctl (.recipeDelPart (some idx)) ∧
    idx.toNat < dev.recipe.partitions.length

/-- The recipes a call can leave behind. -/
inductive RecipeStep (dev : MtdpartctlDevice) (call : DevCall) : MtdRecipe → Prop
  | same : ¬ DeletesPart dev call → RecipeStep dev call dev.recipe
  | restarted : ¬ DeletesPart dev call → RecipeStep dev call ⟨[], 0⟩
  | added (partition : ExtMtdPartitionInfo) :
      call = .ioctl (.recipeAddPart (some partition)) →
      Acceptable dev.backingMtd dev.recipe.partitions partition.base →
      RecipeStep dev call (dev.appendPart partition).recipe
  | deleted (i : ℕ) : DeletesPart dev call → i < dev.recipe.partitions.length →
      RecipeStep dev call { dev.recipe with partitions := dev.recipe.partitions.eraseIdx i }

/-- `RECIPE_ADD_PART` as a step of the recipe. -/
theorem addRecipePart_recipe {dev : MtdpartctlDevice}
    (hinv : RecipeInv dev.backingMtd dev.recipe.partitions) {partition : ExtMtdPartitionInfo}
    {kvzalloc : Bool} {r : Int × MtdpartctlDevice}
    (h : addRecipePart dev partition kvzalloc = .ok r) :
    r.2.backingMtd = dev.backingMtd ∧
      RecipeStep dev (.ioctl (.recipeAddPart (some partition))) r.2.recipe := by
  have hcall : ¬ DeletesPart dev (.ioctl (.recipeAddPart (some partition))) :=
    fun ⟨_, heq, _⟩ => by cases heq
  rcases addRecipePart_cases hinv partition kvzalloc with
    ⟨hacc, _, heq⟩ | ⟨_, _, heq⟩ | ⟨_, heq⟩ | ⟨_, _, heq⟩
  · rw [heq] at h
    obtain rfl := Except.ok.inj h
    exact ⟨rfl, .added partition rfl hacc⟩
  · rw [heq] at h
    obtain rfl := Except.ok.inj h
    exact ⟨rfl, .same hcall⟩
  · rw [heq] at h
    obtain rfl := Except.ok.inj h
    exact ⟨rfl, .same hcall⟩
  · rw [heq] at h
    cases h

/-- `RECIPE_DEL_PART` as a step of the recipe. -/
theorem delRecipePart_recipe (dev : MtdpartctlDevice) (idx : UInt32) :
    (delRecipePart dev idx).2.backingMtd = dev.backingMtd ∧
      RecipeStep dev (.ioctl (.recipeDelPart (some idx))) (delRecipePart dev idx).2.recipe := by
  refine ⟨rfl, ?_⟩
  show RecipeStep dev _ (delRecipePartLocked dev.recipe idx).2
  rw [delRecipePartLocked_eq]
  by_cases hidx : idx.toNat < dev.recipe.partitions.length
  · rw [if_pos hidx]
    exact .deleted _ ⟨idx, rfl, hidx⟩ hidx
  · -- An index behind the end is refused, and that is no deletion.
    rw [if_neg hidx]
    refine .same ?_
    rintro ⟨idx', heq, hidx'⟩
    obtain rfl := Option.some.inj (Ioctl.recipeDelPart.inj (DevCall.ioctl.inj heq))
    exact hidx hidx'

/-- **Every ioctl is a step of the recipe.** -/
theorem ioctl_recipe {env : Env} {dev : MtdpartctlDevice} {cmd : Ioctl} {r : IoctlResult}
    (hinv : RecipeInv dev.backingMtd dev.recipe.partitions)
    (h : mtdpartctlChrdevIoctl env dev cmd = .ok r) :
    r.dev.backingMtd = dev.backingMtd ∧ RecipeStep dev (.ioctl cmd) r.dev.recipe := by
  -- Only `RECIPE_DEL_PART` can delete.
  have hother : (∀ idx, cmd ≠ .recipeDelPart (some idx)) → ¬ DeletesPart dev (.ioctl cmd) :=
    fun hcmd ⟨idx, heq, _⟩ => hcmd idx (DevCall.ioctl.inj heq)
  cases ioctl_outcome h with
  | read hcmd => exact ⟨rfl, .same (hother hcmd)⟩
  | recipeAdd hadd => exact addRecipePart_recipe hinv hadd
  | recipeDel idx => exact delRecipePart_recipe dev idx
  | restart => exact ⟨rfl, .restarted (hother (by simp))⟩
  | create hcreate =>
    rcases createRecipePartitions_frame hcreate with hdev | ⟨mtd, hdev⟩
    · rw [hdev]
      exact ⟨rfl, .same (hother (by simp))⟩
    · rw [hdev]
      exact ⟨rfl, .same (hother (by simp))⟩
  | delete hdelete =>
    obtain ⟨mtd, hmtd⟩ := respawnProxyMtdLocked_frame env.core dev hdelete
    simp only [hmtd]
    exact ⟨rfl, .same (hother (by simp))⟩
  | edit e hcmd => exact ⟨rfl, .same (hother hcmd)⟩

/-- **Every call is a step of the recipe.** -/
theorem deviceCall_recipe {env : Env} {dev dev' : MtdpartctlDevice} {call : DevCall} {ret : Int}
    (hinv : RecipeInv dev.backingMtd dev.recipe.partitions)
    (h : deviceCall env dev call = .ok (ret, dev')) :
    dev'.backingMtd = dev.backingMtd ∧ RecipeStep dev call dev'.recipe := by
  cases call with
  | ioctl cmd =>
    obtain ⟨r, hioctl, h⟩ := bind_eq_ok h
    obtain ⟨-, rfl⟩ := Prod.mk.inj (Except.ok.inj h)
    exact ioctl_recipe hinv hioctl
  | «open» =>
    have hcall : ¬ DeletesPart dev .open := fun ⟨_, heq, _⟩ => by cases heq
    unfold deviceCall mtdpartctlChrdevOpen at h
    split_ifs at h
    · obtain ⟨-, rfl⟩ := Prod.mk.inj (Except.ok.inj h)
      exact ⟨rfl, .same hcall⟩
    · obtain ⟨-, rfl⟩ := Prod.mk.inj (Except.ok.inj h)
      exact ⟨rfl, .restarted hcall⟩
  | release =>
    obtain ⟨-, rfl⟩ := Prod.mk.inj (Except.ok.inj h)
    exact ⟨rfl, .same fun ⟨_, heq, _⟩ => by cases heq⟩
  | getDevice =>
    obtain ⟨-, rfl⟩ := Prod.mk.inj (Except.ok.inj h)
    exact ⟨rfl, .same fun ⟨_, heq, _⟩ => by cases heq⟩
  | putDevice =>
    obtain ⟨proxy, hput, h⟩ := bind_eq_ok h
    obtain ⟨-, rfl⟩ := Prod.mk.inj (Except.ok.inj h)
    exact ⟨rfl, .same fun ⟨_, heq, _⟩ => by cases heq⟩

/-! ### The recipe invariant holds of every run -/

/-- A step of the recipe keeps the invariant. -/
theorem RecipeStep.inv {dev : MtdpartctlDevice} {call : DevCall} {recipe : MtdRecipe}
    (h : RecipeStep dev call recipe) (hinv : RecipeInv dev.backingMtd dev.recipe.partitions) :
    RecipeInv dev.backingMtd recipe.partitions := by
  cases h with
  | same _ => exact hinv
  | restarted _ => exact RecipeInv.nil _
  | added partition _ hacc => exact hinv.append hacc
  | deleted i _ _ => exact hinv.sublist (List.eraseIdx_sublist _ _)

/-- A call keeps the invariant. -/
theorem step_recipeInv {dev dev' : MtdpartctlDevice} {e : Env × DevCall}
    (hinv : RecipeInv dev.backingMtd dev.recipe.partitions)
    (h : deviceSystem.step dev e = some dev') :
    RecipeInv dev'.backingMtd dev'.recipe.partitions ∧ dev'.backingMtd = dev.backingMtd ∧
      RecipeStep dev e.2 dev'.recipe := by
  obtain ⟨ret, hcall⟩ := deviceCall_of_step h
  obtain ⟨hmtd, hstep⟩ := deviceCall_recipe hinv hcall
  exact ⟨hmtd ▸ hstep.inv hinv, hmtd, hstep⟩

theorem Created.recipeInv {dev : MtdpartctlDevice} (h : dev.Created) :
    RecipeInv dev.backingMtd dev.recipe.partitions := by
  rw [h.recipe]
  exact RecipeInv.nil _

theorem Reachable.recipeInv {dev : MtdpartctlDevice} (h : Reachable dev) :
    RecipeInv dev.backingMtd dev.recipe.partitions :=
  TransitionSystem.Reach.invariant (fun _ hc => Created.recipeInv hc)
    (fun _ _ _ hinv _ hstep => (step_recipeInv hinv hstep).1) h

/-! ### The parts are the accepted requests -/

/-- The requests among the events, in order. -/
def submitted (es : List (Env × DevCall)) : List ExtMtdPartitionInfo :=
  es.filterMap fun e => match e.2 with
    | .ioctl (.recipeAddPart (some partition)) => some partition
    | _ => none

theorem mem_submitted {es : List (Env × DevCall)} {partition : ExtMtdPartitionInfo}
    (h : partition ∈ submitted es) :
    ∃ env, (env, .ioctl (.recipeAddPart (some partition))) ∈ es := by
  obtain ⟨⟨env, call⟩, hmem, hcall⟩ := List.mem_filterMap.mp h
  refine ⟨env, ?_⟩
  split at hcall
  · rename_i heq
    obtain rfl := Option.some.inj hcall
    exact heq ▸ hmem
  · cases hcall

/-- A step of the recipe keeps a list of requests: its own one joins at the end. -/
theorem RecipeStep.requests {dev : MtdpartctlDevice} {e : Env × DevCall} {recipe : MtdRecipe}
    (h : RecipeStep dev e.2 recipe) {requests earlier : List ExtMtdPartitionInfo}
    (heq : dev.recipe.partitions = requests.map newRecipePart) (hsub : requests.Sublist earlier) :
    ∃ requests' : List ExtMtdPartitionInfo, recipe.partitions = requests'.map newRecipePart ∧
      requests'.Sublist (earlier ++ submitted [e]) := by
  have hkeep : requests.Sublist (earlier ++ submitted [e]) :=
    hsub.trans (List.sublist_append_left _ _)
  cases h with
  | same _ => exact ⟨requests, heq, hkeep⟩
  | restarted _ => exact ⟨[], rfl, List.nil_sublist _⟩
  | added partition hcall _ =>
    have hown : submitted [e] = [partition] := by
      simp only [submitted, List.filterMap_cons, hcall, List.filterMap_nil]
    refine ⟨requests ++ [partition], ?_, ?_⟩
    · simp only [MtdpartctlDevice.appendPart, heq, List.map_append, List.map_singleton]
    · rw [hown]
      exact hsub.append (List.Sublist.refl _)
  | deleted i _ _ =>
    refine ⟨requests.eraseIdx i, ?_, (List.eraseIdx_sublist _ _).trans hkeep⟩
    simp only [heq, List.eraseIdx_map]

/-- The parts after the events are requests from before or among them, in order. -/
theorem run_submitted_from (es : List (Env × DevCall)) :
    ∀ {dev dev' : MtdpartctlDevice} (requests earlier : List ExtMtdPartitionInfo),
      RecipeInv dev.backingMtd dev.recipe.partitions →
      dev.recipe.partitions = requests.map newRecipePart → requests.Sublist earlier →
      deviceSystem.run dev es = some dev' →
      ∃ requests' : List ExtMtdPartitionInfo, dev'.recipe.partitions = requests'.map newRecipePart ∧
        requests'.Sublist (earlier ++ submitted es) := by
  induction es with
  | nil =>
    intro dev dev' requests earlier _ heq hsub hrun
    obtain rfl := Option.some.inj hrun
    exact ⟨requests, heq, hsub.trans (List.sublist_append_left _ _)⟩
  | cons e es ih =>
    intro dev dev' requests earlier hinv heq hsub hrun
    rw [TransitionSystem.run, Option.bind_eq_some_iff] at hrun
    obtain ⟨dev₁, hstep, hrun⟩ := hrun
    obtain ⟨hinv₁, -, hrec⟩ := step_recipeInv hinv hstep
    obtain ⟨requests₁, heq₁, hsub₁⟩ := hrec.requests heq hsub
    obtain ⟨requests', heq', hsub'⟩ := ih requests₁ _ hinv₁ heq₁ hsub₁ hrun
    refine ⟨requests', heq', ?_⟩
    rw [List.append_assoc] at hsub'
    have hcons : submitted [e] ++ submitted es = submitted (e :: es) :=
      (List.filterMap_append (l := [e])).symm
    rwa [hcons] at hsub'

/-- **The recipe of a run lists requests of the run**, in the order they were submitted in. -/
theorem run_submitted {dev dev' : MtdpartctlDevice} (h : dev.Created) {es : List (Env × DevCall)}
    (hrun : deviceSystem.run dev es = some dev') :
    ∃ requests : List ExtMtdPartitionInfo,
      dev'.recipe.partitions = requests.map newRecipePart ∧ requests.Sublist (submitted es) :=
  run_submitted_from es [] [] (Created.recipeInv h) (by rw [h.recipe]; rfl) (List.nil_sublist _)
    hrun

/-- Each part of a run was made from a request of the run. -/
theorem run_requests {dev dev' : MtdpartctlDevice} (h : dev.Created) {es : List (Env × DevCall)}
    (hrun : deviceSystem.run dev es = some dev') :
    ∃ requests : List ExtMtdPartitionInfo,
      dev'.recipe.partitions = requests.map newRecipePart ∧
      ∀ q ∈ requests, ∃ env, (env, .ioctl (.recipeAddPart (some q))) ∈ es := by
  obtain ⟨requests, heq, hsub⟩ := run_submitted h hrun
  exact ⟨requests, heq, fun q hq => mem_submitted (hsub.subset hq)⟩

/-! ### Bounds -/

/-- A part's bytes lie inside the backing MTD. -/
theorem RecipeInv.range_subset {mtd : MtdInfo} {parts : List MtdRecipePart}
    (h : RecipeInv mtd parts) {p : MtdRecipePart} (hp : p ∈ parts) :
    p.range ⊆ Finset.range mtd.size.toNat := by
  intro x hx
  have hle := (h.fits p hp).le_size
  rw [MtdRecipePart.range, Finset.mem_Ico] at hx
  rw [Finset.mem_range]
  omega

/-- The parts together are no longer than the backing MTD. -/
theorem RecipeInv.sum_length_le {mtd : MtdInfo} {parts : List MtdRecipePart}
    (h : RecipeInv mtd parts) :
    (parts.map fun p => p.length.toNat).sum ≤ mtd.size.toNat := by
  have hsum := Packing.sum_card_le MtdRecipePart.range parts h.disjoint
    (Finset.range mtd.size.toNat) fun p hp => h.range_subset hp
  simpa [MtdRecipePart.range] using hsum

/-- Every part takes at least one erase block. -/
theorem RecipeInv.length_le {mtd : MtdInfo} {parts : List MtdRecipePart}
    (h : RecipeInv mtd parts) :
    parts.length ≤ mtd.size.toNat / mtd.erasesize.toNat := by
  by_cases hnil : parts = []
  · simp [hnil]
  -- A part that fits shows that the erase size is not zero.
  obtain ⟨p, hp⟩ := List.exists_mem_of_ne_nil parts hnil
  have herase : 0 < mtd.erasesize.toNat := by
    rw [Nat.pos_iff_ne_zero]
    exact fun h0 => (h.fits p hp).erasesize_ne_zero (UInt32.toNat_inj.mp h0)
  have hdiv := Packing.length_le_div MtdRecipePart.range herase parts h.disjoint
    (fun q hq => h.range_subset hq) fun q hq => by
      have hle := Nat.le_of_dvd (h.fits q hq).pos (h.fits q hq).length_dvd
      simpa [MtdRecipePart.range] using hle
  simpa using hdiv

/-- There are fewer parts than the counter can count. -/
theorem RecipeInv.length_lt_two_pow {mtd : MtdInfo} {parts : List MtdRecipePart}
    (h : RecipeInv mtd parts) : parts.length < 2 ^ 64 :=
  h.length_le.trans_lt ((Nat.div_le_self _ _).trans_lt mtd.size.toNat_lt)

/-! ### The overflow checks are out of reach -/

/-- On a list with the invariant an add stops at most at a zero erase size. -/
theorem addRecipePart_error {dev : MtdpartctlDevice}
    (hinv : RecipeInv dev.backingMtd dev.recipe.partitions) {partition : ExtMtdPartitionInfo}
    {kvzalloc : Bool} {o : Oops} (h : addRecipePart dev partition kvzalloc = .error o) :
    o = .divideError ∧
      DividesByZero dev.backingMtd partition.base.offset partition.base.length := by
  rcases addRecipePart_cases hinv partition kvzalloc with
    ⟨_, _, heq⟩ | ⟨_, _, heq⟩ | ⟨_, heq⟩ | ⟨_, hdiv, heq⟩
  all_goals rw [heq] at h; cases h
  exact ⟨rfl, hdiv⟩

/-- The ways in which an ioctl may not return on a list with the invariant. -/
theorem ioctl_error {env : Env} {dev : MtdpartctlDevice} {cmd : Ioctl} {o : Oops}
    (hinv : RecipeInv dev.backingMtd dev.recipe.partitions)
    (h : mtdpartctlChrdevIoctl env dev cmd = .error o) :
    o ≠ .existingEndOverflow ∧ o ≠ .newEndOverflow := by
  cases cmd with
  | recipeAddPart arg =>
    cases arg with
    | none => cases h
    | some partition =>
      rcases bind_eq_error h with hadd | ⟨_, _, h⟩
      · rw [(addRecipePart_error hinv hadd).1]
        decide
      · cases h
  | recipeCreatePartitions =>
    rcases bind_eq_error h with hcreate | ⟨_, _, h⟩
    · rcases createRecipePartitions_error env.core dev hcreate with rfl | rfl | rfl | rfl <;>
        decide
    · cases h
  | deleteMtdPartitions =>
    rcases bind_eq_error h with hdelete | ⟨_, _, h⟩
    · rw [respawnProxyMtdLocked_error env.core dev hdelete]
      decide
    · cases h
  | addMtdPartition arg =>
    cases arg with
    | none => cases h
    | some partInfo =>
      rcases bind_eq_error h with hprep | ⟨r, _, h⟩
      · -- Only the divisions of the basic check can stop the preparation.
        unfold prepareAddMtdPartition at hprep
        simp only at hprep
        split_ifs at hprep
        · cases hprep
        · rcases bind_eq_error hprep with hverify | ⟨_, _, h⟩
          · rcases verifyPartitionBasicConditions_cases dev
              (adaptPossibleFullMtdPartitionLength dev partInfo).2 with
              ⟨_, heq⟩ | ⟨_, heq⟩ | ⟨_, _, heq⟩
            all_goals rw [heq] at hverify; cases hverify
            decide
          · cases h
      · simp only at h
        split_ifs at h <;> cases h
  | recipeDelPart arg | delMtdPartition arg => cases arg <;> cases h
  | listRecipeParts arg | getPartitionList arg =>
    cases arg with
    | none => cases h
    | some readCount =>
      unfold mtdpartctlChrdevIoctl at h
      split_ifs at h <;> cases h
  | getInfo =>
    unfold mtdpartctlChrdevIoctl at h
    split_ifs at h <;> cases h
  | restartRecipe | unknown => cases h

/-- **Every reachable recipe is a packing of the backing MTD.**  The overflow `BUG_ON`s of
`existing_partition_contains_range` are never reached, the parts together fit the backing MTD,
and there are at most `size / erasesize` of them. -/
theorem reachable_recipe {dev : MtdpartctlDevice} (h : Reachable dev) :
    RecipeInv dev.backingMtd dev.recipe.partitions ∧
    (∀ env cmd, mtdpartctlChrdevIoctl env dev cmd ≠ .error .existingEndOverflow ∧
      mtdpartctlChrdevIoctl env dev cmd ≠ .error .newEndOverflow) ∧
    (dev.recipe.partitions.map fun p => p.length.toNat).sum ≤ dev.backingMtd.size.toNat ∧
    dev.recipe.partitions.length ≤
      dev.backingMtd.size.toNat / dev.backingMtd.erasesize.toNat :=
  ⟨h.recipeInv,
    fun _ _ => ⟨fun he => (ioctl_error h.recipeInv he).1 rfl,
      fun he => (ioctl_error h.recipeInv he).2 rfl⟩,
    h.recipeInv.sum_length_le, h.recipeInv.length_le⟩

/-- An allocation that succeeds adds a part the recipe has room for. -/
theorem addRecipePart_of_acceptable {dev : MtdpartctlDevice} {partition : ExtMtdPartitionInfo}
    (hinv : RecipeInv dev.backingMtd dev.recipe.partitions)
    (hacc : Acceptable dev.backingMtd dev.recipe.partitions partition.base) :
    addRecipePart dev partition true = .ok (0, dev.appendPart partition) := by
  rcases addRecipePart_cases hinv partition true with
    ⟨_, _, heq⟩ | ⟨_, hno, _⟩ | ⟨hno, _⟩ | ⟨hno, _⟩
  · exact heq
  · cases hno
  · exact absurd hacc hno
  · exact absurd hacc hno

/-- Such an add as a step of the device. -/
theorem step_addPart {dev : MtdpartctlDevice} {env : Env} {partition : ExtMtdPartitionInfo}
    (hinv : RecipeInv dev.backingMtd dev.recipe.partitions)
    (hacc : Acceptable dev.backingMtd dev.recipe.partitions partition.base)
    (hk : env.kvzalloc = true) :
    deviceSystem.step dev (env, .ioctl (.recipeAddPart (some partition))) =
      some (dev.appendPart partition) := by
  simp only [deviceSystem, deviceCall, mtdpartctlChrdevIoctl, hk,
    addRecipePart_of_acceptable hinv hacc]
  rfl

/-- A request for the whole of `openDevice`. -/
def oneBlockPart : ExtMtdPartitionInfo := ⟨⟨0, 0x1000, CBuf.zero _⟩, false, false⟩

theorem step_oneBlockPart :
    deviceSystem.step openDevice (.succeeding, .ioctl (.recipeAddPart (some oneBlockPart))) =
      some (openDevice.appendPart oneBlockPart) :=
  step_addPart (RecipeInv.nil _) ⟨by decide, fun _ hp => nomatch hp⟩ rfl

theorem reachable_oneBlockPart : Reachable (openDevice.appendPart oneBlockPart) :=
  .step reachable_openDevice trivial step_oneBlockPart

/-- An opened device of three erase blocks. -/
def threeBlocks : MtdpartctlDevice := { openDevice with backingMtd := ⟨0, 0x3000, 0x1000⟩ }

/-- A request for its `k`-th block. -/
def blockPart (k : UInt64) : ExtMtdPartitionInfo :=
  ⟨⟨0x1000 * k, 0x1000, CBuf.zero _⟩, false, false⟩

theorem reachable_threeBlocks : Reachable threeBlocks :=
  .step (e := (.succeeding, .open))
    (.init (MtdpartctlDevice.created_create ⟨0, 0x3000, 0x1000⟩ 1)) trivial rfl

theorem reachable_firstBlock : Reachable (threeBlocks.appendPart (blockPart 0)) :=
  .step (e := (.succeeding, .ioctl (.recipeAddPart (some (blockPart 0))))) reachable_threeBlocks
    trivial rfl

theorem reachable_recipe_oneBlockPart :
    RecipeInv openDevice.backingMtd [newRecipePart oneBlockPart] ∧ [oneBlockPart].length ≤ 1 :=
  ⟨(reachable_recipe reachable_oneBlockPart).1,
    (reachable_recipe reachable_oneBlockPart).2.2.2⟩

/-! ### The counter and the dispatch -/

/-- The counter agrees with the list, and what a dispatch does is determined by the list: it
trips no check on the two, its conversion refuses exactly the empty list, and the array and the
count it hands to the MTD core are the list, entry for entry. -/
structure RecipeConsistent (dev : MtdpartctlDevice) : Prop where
  count : dev.recipe.partsCount.toNat = dev.recipe.partitions.length
  no_bug : ∀ env : Env, ∀ o, createRecipePartitions env.core dev env.kvzalloc = .error o →
    o = .negativeRefcnt
  einval_iff : convertRecipeToMtdPartitionsLocked dev.recipe true = .ok (neg .EINVAL, none) ↔
    dev.recipe.partitions = []
  handed : ∀ env r partitions n,
    mtdpartctlChrdevIoctl env dev .recipeCreatePartitions = .ok r →
      .mtdDeviceParseRegister partitions n ∈ r.calls →
        ∃ entries, partitions = some entries ∧ n.toNat = entries.length ∧
          List.Forall₂ EntryFor dev.recipe.partitions entries

/-- Every entry of the converted array is made from the part at its place. -/
theorem forall₂_entryFor (parts : List MtdRecipePart) :
    List.Forall₂ EntryFor parts (parts.map (fillMtdPartition · MtdPartition.zero)) := by
  rw [List.forall₂_map_right_iff]
  exact List.forall₂_same.mpr fun part _ => entryFor_fillMtdPartition part

/-- A conversion that fails to allocate returns before it fills an entry. -/
theorem convertRecipeToMtdPartitionsLocked_noMem {recipe : MtdRecipe}
    (h : recipe.partsCount.toNat = recipe.partitions.length) :
    convertRecipeToMtdPartitionsLocked recipe false =
      .ok (if recipe.partitions = [] then neg .EINVAL else neg .ENOMEM, none) := by
  have hzero := counter_eq_zero_iff h
  unfold convertRecipeToMtdPartitionsLocked
  by_cases hnil : recipe.partitions = []
  · rw [if_pos (hzero.mpr hnil), if_pos hnil]
    rfl
  · rw [if_neg fun h0 => hnil (hzero.mp h0), if_neg hnil]
    simp only [List.isEmpty_iff, hnil]
    rfl

/-- The calls of a dispatch that reaches `mtd_device_parse_register`. -/
theorem createRecipePartitions_parseRegister {core : MtdCore} {dev : MtdpartctlDevice}
    {kvzalloc : Bool} {r : Int × MtdpartctlDevice × List CoreCall}
    {partitions : Option (List MtdPartition)} {n : UInt64}
    (h : createRecipePartitions core dev kvzalloc = .ok r)
    (hcall : .mtdDeviceParseRegister partitions n ∈ r.2.2) :
    n = dev.recipe.partsCount ∧
      ∃ ret, convertRecipeToMtdPartitionsLocked dev.recipe kvzalloc = .ok (ret, partitions) ∧
        0 ≤ ret := by
  rcases createRecipePartitions_cases core dev kvzalloc h with
    ⟨_, _, _, _, rfl⟩ | ⟨ret, ps, hconv, hret, hresp⟩
  · simp at hcall
  · rcases respawnProxyMtdLocked_cases core dev ps _ hresp with
      ⟨_, rfl⟩ | ⟨_, _, rfl⟩ | ⟨_, _, reg, _, rfl⟩
    · simp at hcall
    · simp at hcall
    · simp only [List.mem_cons, reduceCtorEq, CoreCall.mtdDeviceParseRegister.injEq,
        List.not_mem_nil, or_false, false_or] at hcall
      obtain ⟨rfl, rfl⟩ := hcall
      exact ⟨rfl, ret, hconv, hret⟩

/-- Everything about the dispatch follows from the counter. -/
theorem recipeConsistent_of_count {dev : MtdpartctlDevice}
    (h : dev.recipe.partsCount.toNat = dev.recipe.partitions.length) : RecipeConsistent dev where
  count := h
  no_bug env o ho := by
    rcases bind_eq_error ho with hconv | ⟨⟨ret, ps⟩, hconv, ho⟩
    · -- The conversion itself always returns.
      cases hk : env.kvzalloc with
      | true =>
        rw [hk, convertRecipeToMtdPartitionsLocked_eq h] at hconv
        split_ifs at hconv
      | false =>
        rw [hk, convertRecipeToMtdPartitionsLocked_noMem h] at hconv
        cases hconv
    · simp only at ho
      split_ifs at ho with hret hzero
      · cases ho
      · -- With a counter of zero the conversion has refused.
        unfold convertRecipeToMtdPartitionsLocked at hconv
        rw [if_pos hzero] at hconv
        obtain ⟨rfl, -⟩ := Prod.mk.inj (Except.ok.inj hconv)
        exact absurd (neg_lt_zero _) hret
      · exact respawnProxyMtdLocked_error env.core dev ho
  einval_iff := by
    rw [convertRecipeToMtdPartitionsLocked_eq h]
    by_cases hnil : dev.recipe.partitions = []
    · simp [hnil]
    · rw [if_neg hnil]
      simp [hnil]
  handed env r partitions n hr hcall := by
    obtain ⟨r', hcreate, hr⟩ := bind_eq_ok hr
    obtain rfl := Except.ok.inj hr
    obtain ⟨rfl, ret, hconv, hret⟩ := createRecipePartitions_parseRegister hcreate hcall
    have hfail : ∀ e, ret ≠ neg e := fun e he => by
      rw [he] at hret
      exact absurd hret (not_nonneg_neg e)
    cases hk : env.kvzalloc with
    | true =>
      rw [hk, convertRecipeToMtdPartitionsLocked_eq h] at hconv
      split_ifs at hconv
      · exact absurd (Prod.mk.inj (Except.ok.inj hconv)).1.symm (hfail _)
      · obtain ⟨-, rfl⟩ := Prod.mk.inj (Except.ok.inj hconv)
        exact ⟨_, rfl, by simpa using h, forall₂_entryFor _⟩
    | false =>
      rw [hk, convertRecipeToMtdPartitionsLocked_noMem h] at hconv
      have hret' := (Prod.mk.inj (Except.ok.inj hconv)).1
      split_ifs at hret'
      · exact absurd hret'.symm (hfail _)
      · exact absurd hret'.symm (hfail _)

/-- A step of the recipe keeps the counter exactly when it is not a deletion. -/
theorem RecipeStep.count_iff {dev : MtdpartctlDevice} {call : DevCall} {recipe : MtdRecipe}
    (h : RecipeStep dev call recipe) (hinv : RecipeInv dev.backingMtd dev.recipe.partitions)
    (hcount : dev.recipe.partsCount.toNat = dev.recipe.partitions.length) :
    recipe.partsCount.toNat = recipe.partitions.length ↔ ¬ DeletesPart dev call := by
  have hbound := (h.inv hinv).length_lt_two_pow
  cases h with
  | same hcall => exact iff_of_true hcount hcall
  | restarted hcall => exact iff_of_true rfl hcall
  | added partition hcall _ =>
    refine iff_of_true ?_ fun ⟨_, heq, _⟩ => by rw [hcall] at heq; cases heq
    -- The list is far too short for the counter to wrap.
    simp only [MtdpartctlDevice.appendPart, List.length_append, List.length_singleton] at hbound ⊢
    rw [toNat_add_of_lt (by rw [hcount]; exact hbound), hcount]
    rfl
  | deleted i hcall hi =>
    refine iff_of_false ?_ (not_not_intro hcall)
    simp only [List.length_eraseIdx, hi, if_true, hcount]
    omega

/-- **The counter is right exactly in runs without a deletion.**  `del_recipe_part` unlinks the
node and leaves `parts_count` as it is. -/
theorem recipeConsistent_run_iff {dev : MtdpartctlDevice} (h : dev.Created)
    (es : List (Env × DevCall)) :
    (∀ s ∈ deviceSystem.visited dev es, RecipeConsistent s) ↔
      ∀ x ∈ deviceSystem.taken dev es, ¬ DeletesPart x.1 x.2.2 := by
  have hstart : RecipeConsistent dev := by
    apply recipeConsistent_of_count
    rw [h.recipe]
    rfl
  refine TransitionSystem.forall_visited_iff
    (I := fun s => RecipeInv s.backingMtd s.recipe.partitions)
    (A := fun s e => ¬ DeletesPart s e.2) ?_ ?_ es dev (Created.recipeInv h) hstart
  · intro s e s' hinv hstep
    exact (step_recipeInv hinv hstep).1
  · intro s e s' hinv hs hstep
    rw [← (step_recipeInv hinv hstep).2.2.count_iff hinv hs.count]
    exact ⟨fun hs' => hs'.count, recipeConsistent_of_count⟩

/-- A run that opens the device and adds a part stays consistent. -/
theorem recipeConsistent_run_iff_add :
    deviceSystem.run (MtdpartctlDevice.create ⟨0, 0x1000, 0x1000⟩ 1)
      [(.succeeding, .open), (.succeeding, .ioctl (.recipeAddPart (some oneBlockPart)))] =
        some (openDevice.appendPart oneBlockPart) ∧
    ∀ s ∈ deviceSystem.visited (MtdpartctlDevice.create ⟨0, 0x1000, 0x1000⟩ 1)
      [(.succeeding, .open), (.succeeding, .ioctl (.recipeAddPart (some oneBlockPart)))],
      RecipeConsistent s := by
  have hopen : deviceSystem.step (MtdpartctlDevice.create ⟨0, 0x1000, 0x1000⟩ 1)
      (.succeeding, .open) = some openDevice := rfl
  constructor
  · simp only [TransitionSystem.run, hopen, step_oneBlockPart, Option.bind_some]
  refine (recipeConsistent_run_iff (MtdpartctlDevice.created_create _ _) _).mpr ?_
  rintro x hx ⟨idx, hdel, -⟩
  simp only [TransitionSystem.taken, hopen, step_oneBlockPart, List.mem_cons, List.not_mem_nil,
    or_false] at hx
  rcases hx with rfl | rfl <;> cases hdel

/-- Opening the device, adding a part and deleting it again leaves `parts_count` at one over an
empty list, and the next dispatch trips `BUG_ON(list_empty)`. -/
theorem recipeConsistent_delete :
    ∃ dev, deviceSystem.run (MtdpartctlDevice.create ⟨0, 0x1000, 0x1000⟩ 1)
        [(.succeeding, .open), (.succeeding, .ioctl (.recipeAddPart (some oneBlockPart))),
          (.succeeding, .ioctl (.recipeDelPart (some 0)))] = some dev ∧
      dev.recipe = ⟨[], 1⟩ ∧ ¬ RecipeConsistent dev ∧
      createRecipePartitions (MtdCore.answering 0 0 0 0) dev true = .error .emptyRecipe := by
  have hopen : deviceSystem.step (MtdpartctlDevice.create ⟨0, 0x1000, 0x1000⟩ 1)
      (.succeeding, .open) = some openDevice := rfl
  have hdel : deviceSystem.step (openDevice.appendPart oneBlockPart)
      (.succeeding, .ioctl (.recipeDelPart (some 0))) =
        some { openDevice with recipe := ⟨[], 1⟩ } := rfl
  refine ⟨{ openDevice with recipe := ⟨[], 1⟩ }, ?_, rfl, fun h => ?_, rfl⟩
  · simp only [TransitionSystem.run, hopen, step_oneBlockPart, hdel, Option.bind_some]
  · exact absurd h.count (by decide)

end Mtdpartikr
