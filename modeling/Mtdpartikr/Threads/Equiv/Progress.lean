import Mtdpartikr.Lib.Progress
import Mtdpartikr.Threads.Equiv.Deadlock
import Mtdpartikr.Threads.Equiv.PartitionService
import Mtdpartikr.Threads.Equiv.Sequential

/-!
# Every call comes to an end, or to a deadlock

No function of the module waits for anything but a mutex, and none repeats itself: `stepsLeft`
bounds the steps a thread at a point still takes before it is outside of the module again.

`threads_return`: threads that start nothing new come to rest within a bounded number of steps, and
then all of them are outside; or a `LIST` and a respawn wait for each other, or a hook and an
immediate edit do, or one of three `BUG_ON`s has fired.
-/

namespace Mtdpartikr

open Threads (Instr LockInv CircularWait Coexist Descends AtLock)

/-! ### Steps to the end of a call -/

/-- The number of steps a thread takes at most until it is outside of the module. -/
def stepsLeft : Pc → ℕ
  | .idle | .holding => 0
  | .hookLeave _ | .infoUnlock | .partsUnlock | .listUnlock | .editUnlock | .recipeUnlock
  | .respawnLeave => 1
  | .hookUnlock _ _ | .infoRead | .partsCopy | .listUnlockRecipe | .editLeave | .recipeBody _
  | .clearUnlock => 2
  | .hookBody _ _ | .infoLock | .partsCheck | .listCopy | .editCore _ | .recipeLock _
  | .clearFlag _ => 3
  | .hookLock _ _ | .partsLock | .listLockRecipe | .editTable _ | .clearLock _ => 4
  | .hookTable _ | .listCheck | .editCheck _ | .regLeave => 5
  | .listLock | .editLock _ | .regCore _ => 6
  | .regTable _ => 7
  | .unregLeave _ _ => 8
  | .unregCore _ => 9
  | .unregTable _ => 10
  | .testRefcnt _ => 11
  | .bugRefcnt _ => 12
  | .setUnlock _ => 13
  | .setFlag _ => 14
  | .setLock _ => 15
  | .createConvert | .deleteLock => 16
  | .createLock => 17

theorem stepsLeft_le (pc : Pc) : stepsLeft pc ≤ 17 := by
  cases pc <;> simp [stepsLeft]

theorem Acts.stepsLeft_lt {e : Event} {dev dev' : MtdpartctlDevice} {pc pc' : Pc}
    (h : Acts e dev pc dev' pc') (hpos : 0 < stepsLeft pc) : stepsLeft pc' < stepsLeft pc := by
  cases h with
  | call _ _ _ | put => exact absurd hpos (lt_irrefl 0)
  | _ => simp [stepsLeft]

/-- Every instruction inside of the module is one of the steps left. -/
theorem descends_stepsLeft : Descends driver stepsLeft where
  act hpos hcode hf := (acts_of_code hcode hf).stepsLeft_lt hpos
  lock {pc l pc'} hpos hcode := by
    cases pc <;> cases hcode <;> simp [stepsLeft]
  unlock {pc l pc'} hpos hcode := by
    cases pc with
    | hookUnlock underTable held =>
      cases hcode
      split_ifs <;> simp [stepsLeft]
    | hookLeave held =>
      cases hcode
      split_ifs <;> simp [stepsLeft]
    | unregLeave args done =>
      cases hcode
      split_ifs <;> simp [stepsLeft]
    | _ => cases hcode <;> simp [stepsLeft]

/-- A thread that holds a mutex is inside. -/
theorem stepsLeft_pos_of_holds (pc : Pc) (l : Lock) (h : driver.holds pc l = true) :
    0 < stepsLeft pc := by
  have hmem : l ∈ locks pc := of_decide_eq_true h
  cases pc with
  | idle | holding => cases hmem
  | _ => simp [stepsLeft]

/-! ### Waiting in a circle -/

/-- A thread that holds `recipe.lock` and waits for `mtd_table_mutex` is in the flagged part of a
respawn. -/
theorem flagged_of_lock_table {pc pc' : Pc} (h : driver.code pc = .lock .table pc')
    (hheld : driver.holds pc .recipe = true) : flagged pc = true := by
  have hmem : Lock.recipe ∈ locks pc := of_decide_eq_true hheld
  cases pc with
  | unregTable args | regTable args => rfl
  | hookTable hook => cases hmem
  | editTable call => simp [locks] at hmem
  | _ => cases h

section

variable {T : Type*}

/-- A thread that found the flag clear and waits for `recipe.lock` keeps every respawn from
`mtd_table_mutex`. -/
theorem not_flagged_of_listWaits {s : ThreadState T} (hinv : FlagInv s) {t : T}
    (ht : listWaits (s.pc t) = true) (u : T) : flagged (s.pc u) = false := by
  rw [Bool.eq_false_iff]
  intro hu
  have hclear := hinv.sawClear t (by rw [listWaits_iff.mp ht]; rfl)
  exact absurd ((hinv.flag.mpr ⟨u, hu⟩).symm.trans hclear) (by decide)

/-- **There are two deadlocks only**, also over all three mutexes. -/
theorem circularWait_cases {s : ThreadState T} (hinv : FlagInv s)
    (h : CircularWait driver Set.univ s) :
    Coexist listWaits respawnEnters s.pc ∨ Coexist hookWaits editWaits s.pc := by
  by_contra hno
  rw [not_or] at hno
  obtain ⟨hlr, hhe⟩ := hno
  -- Without a hook or without an edit, and with a `LIST` or without one, the mutexes have an order.
  by_cases hlist : ∃ t, listWaits (s.pc t) = true
  · obtain ⟨t, ht⟩ := hlist
    have hflag := not_flagged_of_listWaits hinv ht
    by_cases hhook : ∃ t, hookWaits (s.pc t) = true
    · refine Threads.not_circularWait_of_rank hinv.locks
        (fun l => match l with | .table => 0 | .proxy => 1 | .recipe => 2) ?_ h
      rintro u l - ⟨pc, hcode⟩ l' - hheld
      rcases held_of_lock hcode hheld with ⟨rfl, rfl, -⟩ | ⟨rfl, rfl, -⟩ | ⟨-, -, hedit⟩ |
        ⟨-, -, henter | hfl⟩ | ⟨rfl, rfl⟩
      · decide
      · decide
      · exact absurd ⟨hhook, u, hedit⟩ hhe
      · exact absurd ⟨⟨t, ht⟩, u, henter⟩ hlr
      · exact absurd hfl (by simp [hflag u])
      · exact absurd (flagged_of_lock_table hcode hheld) (by simp [hflag u])
    · refine Threads.not_circularWait_of_rank hinv.locks
        (fun l => match l with | .proxy => 0 | .table => 1 | .recipe => 1) ?_ h
      rintro u l - ⟨pc, hcode⟩ l' - hheld
      rcases held_of_lock hcode hheld with ⟨-, -, hwait⟩ | ⟨rfl, rfl, -⟩ | ⟨rfl, rfl, -⟩ |
        ⟨-, -, henter | hfl⟩ | ⟨rfl, rfl⟩
      · exact absurd ⟨u, hwait⟩ hhook
      · decide
      · decide
      · exact absurd ⟨⟨t, ht⟩, u, henter⟩ hlr
      · exact absurd hfl (by simp [hflag u])
      · exact absurd (flagged_of_lock_table hcode hheld) (by simp [hflag u])
  · by_cases hhook : ∃ t, hookWaits (s.pc t) = true
    · refine Threads.not_circularWait_of_rank hinv.locks
        (fun l => match l with | .recipe => 0 | .table => 1 | .proxy => 2) ?_ h
      rintro u l - ⟨pc, hcode⟩ l' - hheld
      rcases held_of_lock hcode hheld with ⟨rfl, rfl, -⟩ | ⟨-, -, hwait⟩ | ⟨-, -, hedit⟩ |
        ⟨rfl, rfl, -⟩ | ⟨rfl, rfl⟩
      · decide
      · exact absurd ⟨u, hwait⟩ hlist
      · exact absurd ⟨hhook, u, hedit⟩ hhe
      · decide
      · decide
    · refine Threads.not_circularWait_of_rank hinv.locks
        (fun l => match l with | .recipe => 0 | .proxy => 1 | .table => 2) ?_ h
      rintro u l - ⟨pc, hcode⟩ l' - hheld
      rcases held_of_lock hcode hheld with ⟨-, -, hwait⟩ | ⟨-, -, hwait⟩ | ⟨rfl, rfl, -⟩ |
        ⟨rfl, rfl, -⟩ | ⟨rfl, rfl⟩
      · exact absurd ⟨u, hwait⟩ hhook
      · exact absurd ⟨u, hwait⟩ hlist
      · decide
      · decide
      · decide

end

/-! ### Stopped threads -/

/-- The `BUG_ON`s that stop a thread for good. -/
inductive BugOn (dev : MtdpartctlDevice) : Pc → Prop
  | putDevice {underTable : Bool} : dev.proxy.useRefcnt = 0 → BugOn dev (.hookBody .put underTable)
  | respawn {args : RespawnArgs} : dev.proxy.useRefcnt < 0 → BugOn dev (.bugRefcnt args)
  | convert : dev.recipe.partsCount ≠ 0 → dev.recipe.partitions = [] → BugOn dev .createConvert

instance : Inhabited Event := ⟨event .release⟩

/-- An action that always returns stops nobody. -/
theorem runAct_ne_none {f : Event → MtdpartctlDevice → Option (MtdpartctlDevice × Pc)}
    {g : Event → MtdpartctlDevice → MtdpartctlDevice × Pc} (e : Event) (dev : MtdpartctlDevice)
    (hcode : runAct g = .act f) : f e dev ≠ none := by
  obtain rfl := Instr.act.inj hcode
  exact Option.some_ne_none _

/-- Nor does one that returns this time. -/
theorem tryAct_ne_none {f : Event → MtdpartctlDevice → Option (MtdpartctlDevice × Pc)}
    {g : Event → MtdpartctlDevice → Except Oops (MtdpartctlDevice × Pc)} {e : Event}
    {dev : MtdpartctlDevice} {r : MtdpartctlDevice × Pc} (hcode : tryAct g = .act f)
    (hg : g e dev = .ok r) : f e dev ≠ none := by
  obtain rfl := Instr.act.inj hcode
  simp only [hg]
  exact Option.some_ne_none _

/-- The critical section of a recipe edit returns, on a recipe that is a packing. -/
theorem recipeSection_ok {dev : MtdpartctlDevice} {edit : RecipeEdit}
    (hinv : RecipeInv dev.backingMtd dev.recipe.partitions) (hedit : Relies dev (.recipeBody edit))
    (env : Env) : ∃ dev', recipeSection edit env dev = .ok dev' := by
  cases edit with
  | add partition =>
    have hlocked := addRecipePartLocked_eq hinv partition env.kvzalloc hedit
    simp only [recipeSection, hlocked]
    exact ⟨_, rfl⟩
  | del idx | restart => exact ⟨_, rfl⟩

/-- The conversion returns when there is no memory for its array, or nothing to convert. -/
theorem convertSection_ok {dev : MtdpartctlDevice} {env : Env} (hmem : env.kvzalloc = false)
    (h : dev.recipe.partsCount = 0 ∨ dev.recipe.partitions ≠ []) :
    convertSection env dev = .ok .respawnLeave := by
  by_cases hzero : dev.recipe.partsCount = 0
  · simp only [convertSection, convertRecipeToMtdPartitionsLocked, hzero, if_true, pure,
      Except.pure, bind, Except.bind, neg_lt_zero]
  · have hne : dev.recipe.partitions.isEmpty = false := by
      rw [List.isEmpty_eq_false_iff]
      exact h.resolve_left hzero
    simp only [convertSection, convertRecipeToMtdPartitionsLocked, hzero, hne, hmem, if_false,
      Bool.false_eq_true, Bool.not_false, if_true, pure, Except.pure, bind, Except.bind,
      neg_lt_zero]

section

variable {T : Type*}

/-- **Only those three stop a thread.** -/
theorem bugOn_of_stopped {s : ThreadState T} {t : T}
    (hinv : RecipeInv s.shared.backingMtd s.shared.recipe.partitions)
    (hrely : Relies s.shared (s.pc t)) (hinside : 0 < stepsLeft (s.pc t))
    (h : Threads.Stopped driver s t) : BugOn s.shared (s.pc t) := by
  obtain ⟨f, hcode, hnone⟩ := h
  generalize s.pc t = pc at hcode hrely hinside
  cases pc with
  | idle | holding => exact absurd hinside (lt_irrefl 0)
  | hookBody hook underTable =>
    cases hook with
    | get => exact absurd (hnone default) (tryAct_ne_none hcode rfl)
    | put =>
      refine .putDevice ?_
      by_contra hrefs
      have hput : proxyMtdPutDevice s.shared.proxy =
          .ok { s.shared.proxy with useRefcnt := s.shared.proxy.useRefcnt - 1 } := if_neg hrefs
      refine absurd (hnone default) (tryAct_ne_none hcode (r :=
        (withRefcnt s.shared (s.shared.proxy.useRefcnt - 1), .hookUnlock underTable false)) ?_)
      simp only [hookSection, hput]
      rfl
  | recipeBody edit =>
    -- The checks were made before the lock, so the section has nothing left to trip over.
    obtain ⟨dev', hbody⟩ := recipeSection_ok hinv hrely (default : Event).env
    refine absurd (hnone default) (tryAct_ne_none hcode (r := (dev', .recipeUnlock)) ?_)
    simp only [hbody]
    rfl
  | createConvert =>
    have herr : ¬ (s.shared.recipe.partsCount = 0 ∨ s.shared.recipe.partitions ≠ []) := by
      intro hor
      -- The event decides whether there is memory; without it the conversion gives up.
      let env : Env := ⟨false, fun _ => true, .keeping⟩
      have hok : convertSection env s.shared = .ok .respawnLeave := convertSection_ok rfl hor
      refine absurd (hnone ⟨.release, true, env⟩)
        (tryAct_ne_none hcode (r := (s.shared, .respawnLeave)) ?_)
      simp only [hok]
      rfl
    rw [not_or, not_not] at herr
    exact .convert herr.1 herr.2
  | bugRefcnt args =>
    refine .respawn ?_
    by_contra hneg
    refine absurd (hnone default)
      (tryAct_ne_none hcode (r := (s.shared, .testRefcnt args)) ?_)
    simp only [hneg, if_false]
    rfl
  | _ => first | (cases hcode; done) | exact absurd (hnone default) (runAct_ne_none _ _ hcode)

end

/-! ### The end of a run -/

section

variable {T : Type*} [DecidableEq T]

/-- The invariants of every interleaving. -/
theorem Reach.relies {s : ThreadState T} (h : (threadSystem T).Reach (fun _ _ => True) s) :
    FlagInv s ∧ RecipeInv s.shared.backingMtd s.shared.recipe.partitions ∧
      ∀ t, Relies s.shared (s.pc t) := by
  refine TransitionSystem.Reach.invariant (P := fun s : ThreadState T => FlagInv s ∧
    RecipeInv s.shared.backingMtd s.shared.recipe.partitions ∧ ∀ t, Relies s.shared (s.pc t))
    ?_ ?_ h
  · intro s hs
    refine ⟨flagInv_init hs, Created.recipeInv hs.1, fun t => ?_⟩
    rw [hs.2.2 t]
    trivial
  · rintro s e s' ⟨hflag, hinv, hrely⟩ - hstep
    have hmoves := Threads.moves_of_step hstep
    refine ⟨flagInv_step hflag hmoves, ?_, relies_of_moves hflag hrely hmoves⟩
    cases hmoves with
    | act hcode hf =>
      simp only [(acts_of_code hcode hf).backingMtd]
      exact recipeInv_of_edits hinv (edits_of_code hcode hf) (hrely e.1)
    | lock _ _ | unlock _ => exact hinv

/-- No thread inside of the module can move. -/
def Stuck (s : ThreadState T) : Prop :=
  ∀ t e, 0 < stepsLeft (s.pc t) → (threadSystem T).step s (t, e) = none

/-- **Threads that start nothing new come to rest.**  From any state, all threads together take at
most seventeen steps each; and where they cannot go on, every call has returned, or one of the two
deadlocks has come about, or a thread is stopped by a `BUG_ON`. -/
theorem threads_return [Fintype T] {s s' : ThreadState T} {es : List (T × Event)}
    (hs : (threadSystem T).Reach (fun _ _ => True) s)
    (hinside : ∀ x ∈ (threadSystem T).taken s es, 0 < stepsLeft (x.1.pc x.2.1))
    (hrun : (threadSystem T).run s es = some s') :
    es.length ≤ 17 * Fintype.card T ∧
      (Stuck s' → (∀ t, s'.pc t = .idle ∨ s'.pc t = .holding) ∨
        Coexist listWaits respawnEnters s'.pc ∨ Coexist hookWaits editWaits s'.pc ∨
        ∃ t, BugOn s'.shared (s'.pc t)) := by
  constructor
  · -- Every step inside of a call comes closer to its end.
    have hlen := descends_stepsLeft.length_le es hinside hrun
    have hsum : Threads.totalRank stepsLeft s ≤ ∑ _t : T, 17 :=
      Finset.sum_le_sum fun t _ => stepsLeft_le (s.pc t)
    rw [Finset.sum_const, Finset.card_univ, smul_eq_mul, mul_comm] at hsum
    omega
  · intro hstuck
    obtain ⟨hflag, hinv, hrely⟩ :=
      Reach.relies (TransitionSystem.Reach.of_run es (fun _ _ => trivial) hs hrun)
    -- Everybody is outside, or somebody is stopped, or somebody waits in a circle.
    rcases Threads.stuck_cases driver_noRelock stepsLeft_pos_of_holds hflag.locks hstuck with
      hout | ⟨t, hin, hstop⟩ | hcirc
    · refine Or.inl fun t => ?_
      have hzero := hout t
      generalize s'.pc t = pc at hzero
      cases pc with
      | idle => exact Or.inl rfl
      | holding => exact Or.inr rfl
      | _ => simp [stepsLeft] at hzero
    · exact Or.inr (Or.inr (Or.inr ⟨t, bugOn_of_stopped hinv (hrely t) hin hstop⟩))
    · exact Or.inr ((circularWait_cases hflag hcirc).imp_right Or.inl)

end

/-- A `DELETE` and a `get_mtd_device` have started. -/
def bothStart : List (Bool × Event) :=
  callSteps false .open 3 ++ callSteps false (.ioctl .deleteMtdPartitions) 0 ++
    callSteps true .getMtdDevice 0

/-- Their other steps: the `DELETE` has to wait for `mtd_table_mutex`. -/
def bothFinish : List (Bool × Event) :=
  callSteps false (.ioctl .deleteMtdPartitions) 3 ++ callSteps true .getMtdDevice 2 ++
    callSteps false (.ioctl .deleteMtdPartitions) 1 ++ callSteps true .getMtdDevice 1 ++
    callSteps false (.ioctl .deleteMtdPartitions) 9

/-- Both return. -/
theorem threads_return_both :
    ∃ s s', (threadSystem Bool).run (idleThreads Bool createdDevice) bothStart = some s ∧
      (threadSystem Bool).run s bothFinish = some s' ∧ Stuck s' ∧ bothFinish.length ≤ 34 ∧
      ((∀ t, s'.pc t = .idle ∨ s'.pc t = .holding) ∨
        Coexist listWaits respawnEnters s'.pc ∨ Coexist hookWaits editWaits s'.pc ∨
        ∃ t, BugOn s'.shared (s'.pc t)) := by
  obtain ⟨s, hstart, s', hfinish, hinside, hout⟩ :
      ∃ s, (threadSystem Bool).run (idleThreads Bool createdDevice) bothStart = some s ∧
        ∃ s', (threadSystem Bool).run s bothFinish = some s' ∧
          (∀ x ∈ (threadSystem Bool).taken s bothFinish, 0 < stepsLeft (x.1.pc x.2.1)) ∧
          ∀ t, s'.pc t = .idle :=
    ⟨_, rfl, _, rfl, by decide, by decide⟩
  have hreach : (threadSystem Bool).Reach (fun _ _ => True) s :=
    .of_run bothStart (fun _ _ => trivial)
      (.init (init_idleThreads (MtdpartctlDevice.created_create _ _))) hstart
  -- Nobody is inside of the module any more.
  have hstuck : Stuck s' := by
    intro t e hin
    rw [hout t] at hin
    cases hin
  obtain ⟨hlength, hend⟩ := threads_return hreach hinside hfinish
  exact ⟨s, s', hstart, hfinish, hstuck, hlength, hend hstuck⟩

end Mtdpartikr
