import Mtdpartikr.Threads.Equiv.Step

/-!
# Deadlocks

`held_of_lock` lists the orders in which the program nests its mutexes.  Two of them go against
the others, and each makes a deadlock with one other kind of thread:

* `LIST_RECIPE_PARTS` takes `recipe.lock` inside `proxy.lock`, a respawn takes `proxy.lock` inside
  `recipe.lock`.  `moduleDeadlock_run_iff`: a run is free of circular waits on the two exactly
  when no step brings a `LIST` that found the flag clear together with a respawn that is about to
  set it.
* An immediate edit takes `mtd_table_mutex` inside `proxy.lock`, the hooks are called the other
  way round.  `tableDeadlock_run_iff` is the same for these two.
-/

namespace Mtdpartikr

open Threads (Instr Moves LockInv AtLock CircularWait Coexist)

/-! ### The nesting of the mutexes -/

/-- A `LIST` that found the flag clear and waits for `recipe.lock`. -/
def listWaits : Pc → Bool
  | .listLockRecipe => true
  | _ => false

/-- A respawn that is about to set the flag. -/
def respawnEnters : Pc → Bool
  | .setLock _ => true
  | _ => false

/-- A hook called under `mtd_table_mutex` that waits for `proxy.lock`. -/
def hookWaits : Pc → Bool
  | .hookLock _ underTable => underTable
  | _ => false

/-- An immediate edit on its way into the core. -/
def editWaits : Pc → Bool
  | .editTable _ => true
  | _ => false

/-- A hook that is about to take `mtd_table_mutex`. -/
def takesTable : Pc → Bool
  | .hookTable _ => true
  | _ => false

/-- An immediate edit that is about to test whether the proxy is in use. -/
def testsBusy : Pc → Bool
  | .editCheck _ => true
  | _ => false

theorem listWaits_iff {pc : Pc} : listWaits pc = true ↔ pc = .listLockRecipe := by
  cases pc <;> simp [listWaits]

theorem respawnEnters_iff {pc : Pc} : respawnEnters pc = true ↔ ∃ args, pc = .setLock args := by
  cases pc <;> simp [respawnEnters]

theorem hookWaits_iff {pc : Pc} : hookWaits pc = true ↔ ∃ hook, pc = .hookLock hook true := by
  cases pc <;> simp [hookWaits]

theorem editWaits_iff {pc : Pc} : editWaits pc = true ↔ ∃ call, pc = .editTable call := by
  cases pc <;> simp [editWaits]

/-- **What a thread holds while it waits.** -/
theorem held_of_lock {pc pc' : Pc} {l l' : Lock} (h : driver.code pc = .lock l pc')
    (h' : driver.holds pc l' = true) :
    (l' = .table ∧ l = .proxy ∧ hookWaits pc = true) ∨
    (l' = .proxy ∧ l = .recipe ∧ listWaits pc = true) ∨
    (l' = .proxy ∧ l = .table ∧ editWaits pc = true) ∨
    (l' = .recipe ∧ l = .proxy ∧ (respawnEnters pc = true ∨ flagged pc = true)) ∨
    (l' = .recipe ∧ l = .table) := by
  have hmem : l' ∈ locks pc := of_decide_eq_true h'
  cases pc with
  | hookLock hook underTable =>
    obtain ⟨rfl, -⟩ := Instr.lock.inj h
    cases underTable with
    | false => cases hmem
    | true => exact Or.inl ⟨List.mem_singleton.mp hmem, rfl, rfl⟩
  | listLockRecipe =>
    obtain ⟨rfl, -⟩ := Instr.lock.inj h
    exact Or.inr (Or.inl ⟨List.mem_singleton.mp hmem, rfl, rfl⟩)
  | editTable call =>
    obtain ⟨rfl, -⟩ := Instr.lock.inj h
    exact Or.inr (Or.inr (Or.inl ⟨List.mem_singleton.mp hmem, rfl, rfl⟩))
  | setLock args =>
    obtain ⟨rfl, -⟩ := Instr.lock.inj h
    exact Or.inr (Or.inr (Or.inr (Or.inl ⟨List.mem_singleton.mp hmem, rfl, Or.inl rfl⟩)))
  | clearLock tested =>
    obtain ⟨rfl, -⟩ := Instr.lock.inj h
    exact Or.inr (Or.inr (Or.inr (Or.inl ⟨List.mem_singleton.mp hmem, rfl, Or.inr rfl⟩)))
  | unregTable args | regTable args =>
    obtain ⟨rfl, -⟩ := Instr.lock.inj h
    exact Or.inr (Or.inr (Or.inr (Or.inr ⟨List.mem_singleton.mp hmem, rfl⟩)))
  | hookTable _ | infoLock | partsLock | listLock | editLock _ | recipeLock _ | createLock
  | deleteLock => cases hmem
  | _ => cases h

section

variable {T : Type*}

/-- A thread at a point that holds a mutex owns it. -/
theorem owner_eq {s : ThreadState T} (hinv : LockInv driver s) {l : Lock} {t : T}
    (h : l ∈ locks (s.pc t)) : s.owner l = some t :=
  (hinv l t).mpr (decide_eq_true h)

/-! ### The two mutexes of the module -/

/-- The deadlock on `recipe.lock` and `proxy.lock`: a `LIST` and a respawn. -/
theorem moduleDeadlock_iff {s : ThreadState T} (hinv : FlagInv s) :
    CircularWait driver {.recipe, .proxy} s ↔ Coexist listWaits respawnEnters s.pc := by
  constructor
  · intro hcirc
    by_contra hno
    by_cases hlist : ∃ t, listWaits (s.pc t) = true
    · -- The flag is clear, so no respawn waits for `proxy.lock` inside `recipe.lock`.
      obtain ⟨t, ht⟩ := hlist
      have hflag : ¬ ∃ u, flagged (s.pc u) = true := by
        rw [← hinv.flag, hinv.sawClear t (by rw [listWaits_iff.mp ht]; rfl)]
        exact Bool.false_ne_true
      refine Threads.not_circularWait_of_rank hinv.locks
        (fun l => if l = .recipe then 1 else 0) ?_ hcirc
      rintro u l hl ⟨pc, hcode⟩ l' hl' hheld
      rcases held_of_lock hcode hheld with ⟨rfl, -, -⟩ | ⟨rfl, rfl, -⟩ | ⟨-, rfl, -⟩ |
        ⟨-, -, henter | hfl⟩ | ⟨-, rfl⟩
      · simp at hl'
      · decide
      · simp at hl
      · exact absurd ⟨⟨t, ht⟩, u, henter⟩ hno
      · exact absurd ⟨u, hfl⟩ hflag
      · simp at hl
    · refine Threads.not_circularWait_of_rank hinv.locks
        (fun l => if l = .proxy then 1 else 0) ?_ hcirc
      rintro u l hl ⟨pc, hcode⟩ l' hl' hheld
      rcases held_of_lock hcode hheld with ⟨rfl, -, -⟩ | ⟨-, -, hwait⟩ | ⟨-, rfl, -⟩ |
        ⟨rfl, rfl, -⟩ | ⟨-, rfl⟩
      · simp at hl'
      · exact absurd ⟨u, hwait⟩ hlist
      · simp at hl
      · decide
      · simp at hl
  · rintro ⟨⟨t, ht⟩, u, hu⟩
    have hpct := listWaits_iff.mp ht
    obtain ⟨args, hpcu⟩ := respawnEnters_iff.mp hu
    refine Threads.circularWait_pair (t := t) (u := u) (l := .recipe) (m := .proxy) ?_ (by simp)
      (by simp) ⟨_, by rw [hpct]; rfl⟩ ⟨_, by rw [hpcu]; rfl⟩
      (owner_eq hinv.locks (by rw [hpcu]; simp [locks]))
      (owner_eq hinv.locks (by rw [hpct]; simp [locks]))
    rintro rfl
    rw [hpct] at hpcu
    cases hpcu

/-- The deadlock on `proxy.lock` and `mtd_table_mutex`: a hook and an immediate edit. -/
theorem tableDeadlock_iff {s : ThreadState T} (hinv : LockInv driver s) :
    CircularWait driver {.proxy, .table} s ↔ Coexist hookWaits editWaits s.pc := by
  constructor
  · intro hcirc
    by_contra hno
    by_cases hhook : ∃ t, hookWaits (s.pc t) = true
    · refine Threads.not_circularWait_of_rank hinv
        (fun l => if l = .proxy then 1 else 0) ?_ hcirc
      rintro u l hl ⟨pc, hcode⟩ l' hl' hheld
      rcases held_of_lock hcode hheld with ⟨rfl, rfl, -⟩ | ⟨-, rfl, -⟩ | ⟨-, -, hwait⟩ |
        ⟨rfl, -, -⟩ | ⟨rfl, -⟩
      · decide
      · simp at hl
      · exact absurd ⟨hhook, u, hwait⟩ hno
      · simp at hl'
      · simp at hl'
    · refine Threads.not_circularWait_of_rank hinv
        (fun l => if l = .table then 1 else 0) ?_ hcirc
      rintro u l hl ⟨pc, hcode⟩ l' hl' hheld
      rcases held_of_lock hcode hheld with ⟨-, -, hwait⟩ | ⟨-, rfl, -⟩ | ⟨rfl, rfl, -⟩ |
        ⟨rfl, -, -⟩ | ⟨rfl, -⟩
      · exact absurd ⟨u, hwait⟩ hhook
      · simp at hl
      · decide
      · simp at hl'
      · simp at hl'
  · rintro ⟨⟨t, ht⟩, u, hu⟩
    obtain ⟨hook, hpct⟩ := hookWaits_iff.mp ht
    obtain ⟨call, hpcu⟩ := editWaits_iff.mp hu
    refine Threads.circularWait_pair (t := t) (u := u) (l := .proxy) (m := .table) ?_ (by simp)
      (by simp) ⟨_, by rw [hpct]; rfl⟩ ⟨_, by rw [hpcu]; rfl⟩
      (owner_eq hinv (by rw [hpcu]; simp [locks])) (owner_eq hinv (by rw [hpct]; simp [locks]))
    rintro rfl
    rw [hpct] at hpcu
    cases hpcu

end

/-! ### Entering a wait -/

/-- No wait on an inner mutex is entered from outside. -/
theorem waits_of_isEntry {c : Pc} (h : isEntry c = true) :
    listWaits c = false ∧ respawnEnters c = false ∧ hookWaits c = false ∧
      editWaits c = false := by
  unfold isEntry at h
  split at h
  all_goals first | (cases h; done) | exact ⟨rfl, rfl, rfl, rfl⟩

/-- Nor by a release. -/
theorem waits_of_unlock {pc c : Pc} {l : Lock} (h : driver.code pc = .unlock l c) :
    listWaits c = false ∧ respawnEnters c = false ∧ hookWaits c = false ∧
      editWaits c = false := by
  cases pc <;> cases h <;> first | exact ⟨rfl, rfl, rfl, rfl⟩ |
    (split_ifs <;> exact ⟨rfl, rfl, rfl, rfl⟩)

section

variable {e : Event} {dev : MtdpartctlDevice} {pc c : Pc}

/-- A thread becomes a waiting `LIST` by finding the flag clear. -/
theorem goes_listWaits (h : Goes e dev pc c) :
    listWaits c = true ↔ pc = .listCheck ∧ dev.proxy.aboutToRespawn = false := by
  constructor
  · intro hc
    cases h with
    | act hacts =>
      cases hacts with
      | call _ _ hentry => rw [(waits_of_isEntry hentry).1] at hc; cases hc
      | put => unfold hookEntry at hc; split_ifs at hc <;> cases hc
      | listFree hflag => exact ⟨rfl, hflag⟩
      | _ => cases hc
    | lock hcode => cases pc <;> cases hcode <;> cases hc
    | unlock hcode => rw [(waits_of_unlock hcode).1] at hc; cases hc
  · rintro ⟨rfl, hflag⟩
    cases h with
    | act hacts =>
      cases hacts with
      | listBusy hbusy => rw [hflag] at hbusy; cases hbusy
      | listFree _ => rfl
    | lock hcode => cases hcode
    | unlock hcode => cases hcode

/-- A respawn comes to set the flag with the arguments its recipe converts to, or with none. -/
theorem goes_respawnEnters (h : Goes e dev pc c) :
    respawnEnters c = true ↔ pc = .deleteLock ∨
      pc = .createConvert ∧ ∃ args, convertSection e.env dev = .ok (.setLock args) := by
  constructor
  · intro hc
    cases h with
    | act hacts =>
      cases hacts with
      | call _ _ hentry => rw [(waits_of_isEntry hentry).2.1] at hc; cases hc
      | put => unfold hookEntry at hc; split_ifs at hc <;> cases hc
      | converted hconv => exact Or.inr ⟨rfl, _, hconv⟩
      | _ => cases hc
    | lock hcode => cases pc <;> cases hcode <;> first | exact Or.inl rfl | cases hc
    | unlock hcode => rw [(waits_of_unlock hcode).2.1] at hc; cases hc
  · rintro (rfl | ⟨rfl, args, hconv⟩)
    · cases h with
      | act hacts => cases hacts
      | lock hcode => cases hcode; rfl
      | unlock hcode => cases hcode
    · cases h with
      | act hacts =>
        cases hacts with
        | convertFailed hfail => rw [hconv] at hfail; cases hfail
        | converted _ => rfl
      | lock hcode => cases hcode
      | unlock hcode => cases hcode

/-- A hook comes to wait for `proxy.lock` under `mtd_table_mutex` by taking that. -/
theorem goes_hookWaits (h : Goes e dev pc c) :
    hookWaits c = true ↔ ∃ hook, pc = .hookTable hook := by
  constructor
  · intro hc
    cases h with
    | act hacts =>
      cases hacts with
      | call _ _ hentry => rw [(waits_of_isEntry hentry).2.2.1] at hc; cases hc
      | put => unfold hookEntry at hc; split_ifs at hc <;> cases hc
      | _ => cases hc
    | lock hcode => cases pc <;> cases hcode <;> first | exact ⟨_, rfl⟩ | cases hc
    | unlock hcode => rw [(waits_of_unlock hcode).2.2.1] at hc; cases hc
  · rintro ⟨hook, rfl⟩
    cases h with
    | act hacts => cases hacts
    | lock hcode => cases hcode; rfl
    | unlock hcode => cases hcode

/-- An immediate edit comes to wait for `mtd_table_mutex` by passing its test. -/
theorem goes_editWaits (h : Goes e dev pc c) :
    editWaits c = true ↔ ∃ edit call, pc = .editCheck edit ∧
      editTest edit dev = .editTable call := by
  constructor
  · intro hc
    cases h with
    | act hacts =>
      cases hacts with
      | call _ _ hentry => rw [(waits_of_isEntry hentry).2.2.2] at hc; cases hc
      | put => unfold hookEntry at hc; split_ifs at hc <;> cases hc
      | editPassed htest _ _ => exact ⟨_, _, rfl, htest⟩
      | _ => cases hc
    | lock hcode => cases pc <;> cases hcode <;> cases hc
    | unlock hcode => rw [(waits_of_unlock hcode).2.2.2] at hc; cases hc
  · rintro ⟨edit, call, rfl, htest⟩
    cases h with
    | act hacts =>
      cases hacts with
      | editRefused hno => rw [htest] at hno; cases hno
      | editPassed _ _ _ => rfl
    | lock hcode => cases hcode
    | unlock hcode => cases hcode

end

/-! ### Runs without a circular wait -/

section

variable {T : Type*} [DecidableEq T]

/-- The step brings a `LIST` that found the flag clear together with a respawn that is about to
set it: one of them comes to that point while another thread is at the other. -/
def ListMeetsRespawn (s : ThreadState T) (e : T × Event) : Prop :=
  (s.pc e.1 = .listCheck ∧ s.shared.proxy.aboutToRespawn = false ∧
    ∃ u, u ≠ e.1 ∧ ∃ args, s.pc u = .setLock args) ∨
  ((s.pc e.1 = .deleteLock ∨ s.pc e.1 = .createConvert ∧
      ∃ args, convertSection e.2.env s.shared = .ok (.setLock args)) ∧
    ∃ u, u ≠ e.1 ∧ s.pc u = .listLockRecipe)

/-- The step brings an immediate edit that passed its test together with a hook that waits for
`proxy.lock` under `mtd_table_mutex`. -/
def EditMeetsHook (s : ThreadState T) (e : T × Event) : Prop :=
  ((∃ hook, s.pc e.1 = .hookTable hook) ∧ ∃ u, u ≠ e.1 ∧ ∃ call, s.pc u = .editTable call) ∨
  ((∃ edit call, s.pc e.1 = .editCheck edit ∧ editTest edit s.shared = .editTable call) ∧
    ∃ u, u ≠ e.1 ∧ ∃ hook, s.pc u = .hookLock hook true)

/-- **Deadlock on the module's mutexes.**  A run never has a circular wait on `recipe.lock` and
`proxy.lock` exactly when none of its steps brings a `LIST` and a respawn together. -/
theorem moduleDeadlock_run_iff {s : ThreadState T} (h : (threadSystem T).init s)
    (es : List (T × Event)) :
    (∀ s' ∈ (threadSystem T).visited s es, ¬ CircularWait driver {.recipe, .proxy} s') ↔
      ∀ x ∈ (threadSystem T).taken s es, ¬ ListMeetsRespawn x.1 x.2 := by
  refine TransitionSystem.forall_visited_iff (I := FlagInv)
    (A := fun s e => ¬ ListMeetsRespawn s e) ?_ ?_ es s (flagInv_init h) ?_
  · intro s e s' hinv hstep
    exact flagInv_step hinv (Threads.moves_of_step hstep)
  · intro s e s' hinv hno hstep
    have hmoves := Threads.moves_of_step hstep
    obtain ⟨c, hpc, hgoes⟩ := goes_of_moves hmoves
    rw [moduleDeadlock_iff hinv] at hno
    rw [moduleDeadlock_iff (flagInv_step hinv hmoves), hpc, Threads.coexist_update ?_ hno,
      goes_listWaits hgoes, goes_respawnEnters hgoes]
    · simp only [listWaits_iff, respawnEnters_iff, ListMeetsRespawn, and_assoc]
    · intro pc hlist
      rw [listWaits_iff.mp hlist]
      rfl
  · rw [moduleDeadlock_iff (flagInv_init h)]
    rintro ⟨⟨t, ht⟩, -⟩
    rw [h.2.2 t] at ht
    cases ht

end

section

variable {T : Type*}

/-- What keeps a `LIST` and a respawn apart in one step. -/
theorem not_listMeetsRespawn {s : ThreadState T} {e : T × Event}
    (hlist : s.pc e.1 = .listCheck → s.shared.proxy.aboutToRespawn = false →
      ∀ u, respawnEnters (s.pc u) = false)
    (hrespawn : s.pc e.1 = .deleteLock ∨ s.pc e.1 = .createConvert →
      ∀ u, listWaits (s.pc u) = false) : ¬ ListMeetsRespawn s e := by
  rintro (⟨hcheck, hclear, u, -, hu⟩ | ⟨hpc, u, -, hu⟩)
  · have henters := hlist hcheck hclear u
    rw [respawnEnters_iff.mpr hu] at henters
    cases henters
  · have hwaits := hrespawn (hpc.imp_right And.left) u
    rw [listWaits_iff.mpr hu] at hwaits
    cases hwaits

end

/-- A `LIST` that finds the flag clear, and one that finds it set in the middle of a `DELETE` that
has taken `recipe.lock`. -/
def listsAroundDelete : List (Bool × Event) :=
  callSteps false .open 3 ++ callSteps true (.ioctl (.listRecipeParts (some 0))) 6 ++
    callSteps false (.ioctl .deleteMtdPartitions) 4 ++
    callSteps true (.ioctl (.listRecipeParts (some 0))) 3 ++
    callSteps false (.ioctl .deleteMtdPartitions) 11

/-- All of them return, and nobody ever waits in a circle. -/
theorem moduleDeadlock_run_iff_lists :
    (((threadSystem Bool).run (idleThreads Bool createdDevice) listsAroundDelete).map
      fun s => (s.pc false, s.pc true)) = some (.idle, .idle) ∧
    ∀ s ∈ (threadSystem Bool).visited (idleThreads Bool createdDevice) listsAroundDelete,
      ¬ CircularWait driver {.recipe, .proxy} s := by
  refine ⟨rfl, (moduleDeadlock_run_iff
    (init_idleThreads (MtdpartctlDevice.created_create _ _)) _).mpr ?_⟩
  have hlist : ∀ x ∈ (threadSystem Bool).taken (idleThreads Bool createdDevice) listsAroundDelete,
      x.1.pc x.2.1 = .listCheck → x.1.shared.proxy.aboutToRespawn = false →
        ∀ u, respawnEnters (x.1.pc u) = false := by
    decide
  have hrespawn : ∀ x ∈ (threadSystem Bool).taken (idleThreads Bool createdDevice)
      listsAroundDelete, x.1.pc x.2.1 = .deleteLock ∨ x.1.pc x.2.1 = .createConvert →
        ∀ u, listWaits (x.1.pc u) = false := by
    decide
  intro x hx
  exact not_listMeetsRespawn (hlist x hx) (hrespawn x hx)

/-- A `DELETE` has taken `recipe.lock` and a `LIST` has taken `proxy.lock`: each waits for the
other. -/
theorem moduleDeadlock_delete_list :
    ∃ s, (threadSystem Bool).Reach (fun _ _ => True) s ∧
      CircularWait driver {.recipe, .proxy} s := by
  have hrun : (threadSystem Bool).Reach (fun _ _ => True) _ := TransitionSystem.Reach.of_run
    (callSteps false .open 3 ++ callSteps false (.ioctl .deleteMtdPartitions) 1 ++
      callSteps true (.ioctl (.listRecipeParts (some 0))) 2) (fun _ _ => trivial)
    (.init (init_idleThreads (MtdpartctlDevice.created_create ⟨0, 0x1000, 0x1000⟩ 1))) rfl
  exact ⟨_, hrun, Threads.circularWait_pair (t := true) (u := false) (l := .recipe)
    (m := .proxy) (by decide) (by simp) (by simp) ⟨_, rfl⟩ ⟨_, rfl⟩ rfl rfl⟩

section

variable {T : Type*} [DecidableEq T]

/-- **Deadlock with the MTD core.**  A run never has a circular wait on `proxy.lock` and
`mtd_table_mutex` exactly when none of its steps brings an immediate edit and a hook together. -/
theorem tableDeadlock_run_iff {s : ThreadState T} (h : (threadSystem T).init s)
    (es : List (T × Event)) :
    (∀ s' ∈ (threadSystem T).visited s es, ¬ CircularWait driver {.proxy, .table} s') ↔
      ∀ x ∈ (threadSystem T).taken s es, ¬ EditMeetsHook x.1 x.2 := by
  refine TransitionSystem.forall_visited_iff (I := fun s => LockInv driver s)
    (A := fun s e => ¬ EditMeetsHook s e) ?_ ?_ es s
    (Threads.lockInv_init driver_wellLocked h) ?_
  · intro s e s' hinv hstep
    exact Threads.lockInv_step driver_wellLocked hinv (Threads.moves_of_step hstep)
  · intro s e s' hinv hno hstep
    have hmoves := Threads.moves_of_step hstep
    obtain ⟨c, hpc, hgoes⟩ := goes_of_moves hmoves
    rw [tableDeadlock_iff hinv] at hno
    rw [tableDeadlock_iff (Threads.lockInv_step driver_wellLocked hinv hmoves), hpc,
      Threads.coexist_update ?_ hno, goes_hookWaits hgoes, goes_editWaits hgoes]
    · simp only [hookWaits_iff, editWaits_iff, EditMeetsHook]
    · intro pc hhook
      obtain ⟨hook, rfl⟩ := hookWaits_iff.mp hhook
      rfl
  · rw [tableDeadlock_iff (Threads.lockInv_init driver_wellLocked h)]
    rintro ⟨⟨t, ht⟩, -⟩
    rw [h.2.2 t] at ht
    cases ht

end

section

variable {T : Type*}

/-- What keeps an immediate edit and a hook apart in one step. -/
theorem not_editMeetsHook {s : ThreadState T} {e : T × Event}
    (hhook : takesTable (s.pc e.1) = true → ∀ u, editWaits (s.pc u) = false)
    (hedit : testsBusy (s.pc e.1) = true → ∀ u, hookWaits (s.pc u) = false) :
    ¬ EditMeetsHook s e := by
  rintro (⟨⟨hook, hpc⟩, u, -, hu⟩ | ⟨⟨edit, _, hpc, -⟩, u, -, hu⟩)
  · have hwaits := hhook (by rw [hpc]; rfl) u
    rw [editWaits_iff.mpr hu] at hwaits
    cases hwaits
  · have hwaits := hedit (by rw [hpc]; rfl) u
    rw [hookWaits_iff.mpr hu] at hwaits
    cases hwaits

end

/-- A created device whose proxy has one partition. -/
def partitionedDevice : MtdpartctlDevice := withMtd createdDevice ⟨true, 1, [⟨2, 0, 0x1000⟩]⟩

theorem created_partitionedDevice : partitionedDevice.Created := ⟨rfl, rfl, rfl, rfl, rfl⟩

/-- A user comes into `get_mtd_device` while a `DEL_MTD_PARTITION` is in the core, and into the
hook before `proxy.lock` is free again. -/
def getDuringDel : List (Bool × Event) :=
  callSteps false .open 3 ++ callSteps false (.ioctl (.delMtdPartition (some 0))) 3 ++
    callSteps true .getMtdDevice 0 ++
    callSteps false (.ioctl (.delMtdPartition (some 0))) 1 ++ callSteps true .getMtdDevice 0 ++
    callSteps false (.ioctl (.delMtdPartition (some 0))) 0 ++ callSteps true .getMtdDevice 3

/-- The edit returns, the user has its reference, and nobody ever waits in a circle. -/
theorem tableDeadlock_run_iff_get :
    (((threadSystem Bool).run (idleThreads Bool partitionedDevice) getDuringDel).map
      fun s => (s.pc false, s.pc true)) = some (.idle, .holding) ∧
    ∀ s ∈ (threadSystem Bool).visited (idleThreads Bool partitionedDevice) getDuringDel,
      ¬ CircularWait driver {.proxy, .table} s := by
  refine ⟨rfl, (tableDeadlock_run_iff (init_idleThreads created_partitionedDevice) _).mpr ?_⟩
  have hhook : ∀ x ∈ (threadSystem Bool).taken (idleThreads Bool partitionedDevice) getDuringDel,
      takesTable (x.1.pc x.2.1) = true → ∀ u, editWaits (x.1.pc u) = false := by
    decide
  have hedit : ∀ x ∈ (threadSystem Bool).taken (idleThreads Bool partitionedDevice) getDuringDel,
      testsBusy (x.1.pc x.2.1) = true → ∀ u, hookWaits (x.1.pc u) = false := by
    decide
  intro x hx
  exact not_editMeetsHook (hhook x hx) (hedit x hx)

/-- A user inside `get_mtd_device` has taken `mtd_table_mutex` and a `DEL_MTD_PARTITION` has taken
`proxy.lock`: each waits for the other. -/
theorem tableDeadlock_get_del :
    ∃ s, (threadSystem Bool).Reach (fun _ _ => True) s ∧
      CircularWait driver {.proxy, .table} s := by
  have hrun : (threadSystem Bool).Reach (fun _ _ => True) _ := TransitionSystem.Reach.of_run
    (callSteps false .open 3 ++ callSteps true .getMtdDevice 1 ++
      callSteps false (.ioctl (.delMtdPartition (some 0))) 2) (fun _ _ => trivial)
    (.init (init_idleThreads created_partitionedDevice)) rfl
  exact ⟨_, hrun, Threads.circularWait_pair (t := true) (u := false) (l := .proxy)
    (m := .table) (by decide) (by simp) (by simp) ⟨_, rfl⟩ ⟨_, rfl⟩ rfl rfl⟩

end Mtdpartikr
