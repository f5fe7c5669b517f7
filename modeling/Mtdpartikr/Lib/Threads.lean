import Mathlib.Data.Fintype.Card
import Mathlib.Data.Set.Finite.Lemmas
import Mathlib.Logic.Function.Basic
import Mathlib.Logic.Relation
import Mtdpartikr.Lib.Transition

/-!
# Threads that share a state and mutexes

A `Program` puts an instruction at every program counter: an atomic action on the shared state,
or taking or releasing one mutex.  A `State` is the shared state, the owner of each mutex and the
program counter of each thread; `step` lets one thread execute its instruction, and a thread that
is to take a mutex can move only while nobody owns it.

* `LockInv` ties the owners to the annotation `holds` of the program counters.  Every
  well-annotated program keeps it (`lockInv_step`), so two threads are never at program counters
  that hold the same mutex (`LockInv.unique`).
* `CircularWait` is a set of threads each of which is at a mutex owned by another thread of the
  set.  `not_circularWait_of_rank`: there is none when every waiting thread holds only mutexes
  of lower rank than the one it waits for; `circularWait_pair`: two threads that wait for each
  other are one.
* `Coexist p q pc` says that threads are at two kinds of points at once; `coexist_update` says
  which moves bring that about.
* `Solo P e` is the relation between what a thread that runs on its own starts from and comes to.
  `reach_of_solo`: while no other thread holds a mutex, such a run is a run of the threads.
* `count p pc` is the number of threads at program counters with `p`; `count_update` says how a
  move changes it.
-/

namespace Threads

variable {σ L Pc Ev T : Type*}

/-- The instruction at a program counter, with the program counter after it. -/
inductive Instr (σ L Pc Ev : Type*)
  | act (f : Ev → σ → Option (σ × Pc))
  | lock (l : L) (pc : Pc)
  | unlock (l : L) (pc : Pc)

/-- The program of every thread.  An event resolves the choices of an action; `holds pc l`
annotates the mutexes a thread at `pc` has taken. -/
structure Program (σ L Pc Ev : Type*) where
  idle : Pc
  code : Pc → Instr σ L Pc Ev
  holds : Pc → L → Bool

/-- The state of all threads. -/
structure State (σ L Pc T : Type*) where
  shared : σ
  owner : L → Option T
  pc : T → Pc

/-- A mutex is owned by the thread that is at a program counter holding it. -/
def LockInv (P : Program σ L Pc Ev) (s : State σ L Pc T) : Prop :=
  ∀ l t, s.owner l = some t ↔ P.holds (s.pc t) l = true

/-- Two threads do not hold the same mutex. -/
theorem LockInv.unique {P : Program σ L Pc Ev} {s : State σ L Pc T} (h : LockInv P s) {l : L}
    {t u : T} (ht : P.holds (s.pc t) l = true) (hu : P.holds (s.pc u) l = true) : t = u :=
  Option.some.inj (((h l t).mpr ht).symm.trans ((h l u).mpr hu))

/-! ### Steps -/

section Step

variable [DecidableEq L] [DecidableEq T]

/-- One step of one thread. -/
def step (P : Program σ L Pc Ev) (s : State σ L Pc T) (e : T × Ev) : Option (State σ L Pc T) :=
  match P.code (s.pc e.1) with
  | .act f => (f e.2 s.shared).map fun (shared, pc) =>
    ⟨shared, s.owner, Function.update s.pc e.1 pc⟩
  | .lock l pc =>
    if s.owner l = none then
      some ⟨s.shared, Function.update s.owner l (some e.1), Function.update s.pc e.1 pc⟩
    else none
  | .unlock l pc =>
    some ⟨s.shared, Function.update s.owner l none, Function.update s.pc e.1 pc⟩

/-- The threads as a transition system: all idle at first, and no mutex taken. -/
def system (P : Program σ L Pc Ev) (T : Type*) [DecidableEq T] (init : σ → Prop) :
    TransitionSystem (State σ L Pc T) (T × Ev) where
  init s := init s.shared ∧ (∀ l, s.owner l = none) ∧ ∀ t, s.pc t = P.idle
  step := step P

/-- What one step can be. -/
inductive Moves (P : Program σ L Pc Ev) (s : State σ L Pc T) (t : T) (e : Ev) :
    State σ L Pc T → Prop
  | act {f : Ev → σ → Option (σ × Pc)} {shared : σ} {pc : Pc} :
      P.code (s.pc t) = .act f → f e s.shared = some (shared, pc) →
      Moves P s t e ⟨shared, s.owner, Function.update s.pc t pc⟩
  | lock {l : L} {pc : Pc} : P.code (s.pc t) = .lock l pc → s.owner l = none →
      Moves P s t e ⟨s.shared, Function.update s.owner l (some t), Function.update s.pc t pc⟩
  | unlock {l : L} {pc : Pc} : P.code (s.pc t) = .unlock l pc →
      Moves P s t e ⟨s.shared, Function.update s.owner l none, Function.update s.pc t pc⟩

theorem moves_of_step {P : Program σ L Pc Ev} {s s' : State σ L Pc T} {e : T × Ev}
    (h : step P s e = some s') : Moves P s e.1 e.2 s' := by
  unfold step at h
  split at h
  · rename_i f hcode
    obtain ⟨⟨shared, pc⟩, hf, rfl⟩ := Option.map_eq_some_iff.mp h
    exact .act hcode hf
  · rename_i l pc hcode
    split_ifs at h with hfree
    obtain rfl := Option.some.inj h
    exact .lock hcode hfree
  · rename_i l pc hcode
    obtain rfl := Option.some.inj h
    exact .unlock hcode

/-! ### Mutual exclusion -/

/-- The annotation follows the instructions. -/
structure WellLocked (P : Program σ L Pc Ev) : Prop where
  idle : ∀ l, P.holds P.idle l = false
  act : ∀ {pc f e s s' pc'}, P.code pc = .act f → f e s = some (s', pc') →
    P.holds pc' = P.holds pc
  lock : ∀ {pc l pc'}, P.code pc = .lock l pc' →
    P.holds pc' = Function.update (P.holds pc) l true
  unlock : ∀ {pc l pc'}, P.code pc = .unlock l pc' →
    P.holds pc l = true ∧ P.holds pc' = Function.update (P.holds pc) l false

theorem lockInv_init {P : Program σ L Pc Ev} (hP : WellLocked P) {init : σ → Prop}
    {s : State σ L Pc T} (h : (system P T init).init s) : LockInv P s := by
  intro l t
  rw [h.2.1 l, h.2.2 t, hP.idle l]
  simp

/-- **Every step of a well-annotated program keeps the owners right.** -/
theorem lockInv_step {P : Program σ L Pc Ev} (hP : WellLocked P) {s s' : State σ L Pc T}
    {t : T} {e : Ev} (hinv : LockInv P s) (h : Moves P s t e s') : LockInv P s' := by
  intro l u
  cases h with
  | act hcode hf =>
    simp only
    rw [hinv l u]
    by_cases hu : u = t
    · subst hu
      rw [Function.update_self, hP.act hcode hf]
    · rw [Function.update_of_ne hu]
  | @lock l' pc hcode hfree =>
    simp only
    by_cases hl : l = l'
    · subst hl
      rw [Function.update_self]
      by_cases hu : u = t
      · subst hu
        simp [hP.lock hcode]
      · rw [Function.update_of_ne hu, ← hinv l u, hfree]
        simp [Ne.symm hu]
    · rw [Function.update_of_ne hl, hinv l u]
      by_cases hu : u = t
      · subst hu
        rw [Function.update_self, hP.lock hcode, Function.update_of_ne hl]
      · rw [Function.update_of_ne hu]
  | @unlock l' pc hcode =>
    obtain ⟨hheld, hholds⟩ := hP.unlock hcode
    simp only
    by_cases hl : l = l'
    · subst hl
      rw [Function.update_self]
      by_cases hu : u = t
      · subst hu
        simp [hholds]
      · -- Nobody else held the mutex that was released.
        rw [Function.update_of_ne hu]
        exact iff_of_false (by simp) fun hcon => hu (hinv.unique hcon hheld)
    · rw [Function.update_of_ne hl, hinv l u]
      by_cases hu : u = t
      · subst hu
        rw [Function.update_self, hholds, Function.update_of_ne hl]
      · rw [Function.update_of_ne hu]

/-! ### What the threads rely on -/

/-- A step keeps what every thread relies on at its point, if it establishes what the thread that
moves relies on next and does not disturb the others. -/
theorem relies_step {P : Program σ L Pc Ev} {R : σ → Pc → Prop} {s s' : State σ L Pc T} {t : T}
    {e : Ev} (hrely : ∀ u, R s.shared (s.pc u)) (h : Moves P s t e s')
    (hact : ∀ f shared pc, P.code (s.pc t) = .act f → f e s.shared = some (shared, pc) →
      R shared pc ∧ ∀ u, u ≠ t → R shared (s.pc u))
    (hlock : ∀ l pc, P.code (s.pc t) = .lock l pc → R s.shared pc)
    (hunlock : ∀ l pc, P.code (s.pc t) = .unlock l pc → R s.shared pc) :
    ∀ u, R s'.shared (s'.pc u) := by
  -- The points after the step are those before it, but for the thread that moved.
  have hupdate : ∀ {shared : σ} {pc : Pc}, R shared pc →
      (∀ u, u ≠ t → R shared (s.pc u)) →
        ∀ u, R shared (Function.update s.pc t pc u) := by
    intro shared pc hself hothers u
    by_cases hu : u = t
    · rw [hu, Function.update_self]
      exact hself
    · rw [Function.update_of_ne hu]
      exact hothers u hu
  cases h with
  | act hcode hf =>
    obtain ⟨hself, hothers⟩ := hact _ _ _ hcode hf
    exact hupdate hself hothers
  | lock hcode _ => exact hupdate (hlock _ _ hcode) fun u _ => hrely u
  | unlock hcode => exact hupdate (hunlock _ _ hcode) fun u _ => hrely u

end Step

/-! ### A thread on its own -/

section Solo

/-- One step of a thread that finds every mutex free. -/
def soloStep (P : Program σ L Pc Ev) (e : Ev) (x : σ × Pc) : Option (σ × Pc) :=
  match P.code x.2 with
  | .act f => f e x.1
  | .lock _ pc => some (x.1, pc)
  | .unlock _ pc => some (x.1, pc)

/-- Some number of such steps, with the same choices in each. -/
def Solo (P : Program σ L Pc Ev) (e : Ev) : σ × Pc → σ × Pc → Prop :=
  Relation.ReflTransGen fun x y => soloStep P e x = some y

theorem Solo.refl {P : Program σ L Pc Ev} {e : Ev} {x : σ × Pc} : Solo P e x x :=
  Relation.ReflTransGen.refl

theorem Solo.step {P : Program σ L Pc Ev} {e : Ev} {x y z : σ × Pc}
    (h : soloStep P e x = some y) (hrest : Solo P e y z) : Solo P e x z :=
  Relation.ReflTransGen.head h hrest

/-- No instruction takes a mutex that the thread already has. -/
def NoRelock (P : Program σ L Pc Ev) : Prop :=
  ∀ {pc l pc'}, P.code pc = .lock l pc' → P.holds pc l = false

variable [DecidableEq L] [DecidableEq T]

/-- While no other thread holds a mutex, a thread can do what it would do on its own. -/
theorem step_of_soloStep {P : Program σ L Pc Ev} (hno : NoRelock P) {s : State σ L Pc T} {t : T}
    {e : Ev} (hinv : LockInv P s) (halone : ∀ u, u ≠ t → ∀ l, P.holds (s.pc u) l = false)
    {y : σ × Pc} (h : soloStep P e (s.shared, s.pc t) = some y) :
    ∃ s', step P s (t, e) = some s' ∧ s'.shared = y.1 ∧
      s'.pc = Function.update s.pc t y.2 := by
  unfold soloStep at h
  unfold step
  cases hcode : P.code (s.pc t) with
  | act f =>
    simp only [hcode] at h
    exact ⟨_, by simp only [h]; rfl, rfl, rfl⟩
  | lock l pc =>
    simp only [hcode] at h
    obtain rfl := Option.some.inj h
    have hfree : s.owner l = none := by
      -- Its owner would be another thread, or this one would take it again.
      rw [Option.eq_none_iff_forall_ne_some]
      intro u howner
      have hu : P.holds (s.pc u) l = true := (hinv l u).mp howner
      by_cases hut : u = t
      · rw [hut, hno hcode] at hu
        cases hu
      · rw [halone u hut l] at hu
        cases hu
    exact ⟨_, if_pos hfree, rfl, rfl⟩
  | unlock l pc =>
    simp only [hcode] at h
    obtain rfl := Option.some.inj h
    exact ⟨_, rfl, rfl, rfl⟩

/-- The owners are right at the end of every run. -/
theorem Reach.lockInv {P : Program σ L Pc Ev} (hP : WellLocked P) {init : σ → Prop}
    {ok : State σ L Pc T → T × Ev → Prop} {s : State σ L Pc T}
    (h : (system P T init).Reach ok s) : LockInv P s := by
  refine TransitionSystem.Reach.invariant
    (fun s (hs : (system P T init).init s) => lockInv_init hP hs) ?_ h
  intro s e s' hs _ hstep
  exact lockInv_step (t := e.1) (e := e.2) hP hs (moves_of_step hstep)

/-- **A thread on its own is not held up.**  What it does is a run of the threads. -/
theorem reach_of_solo {P : Program σ L Pc Ev} (hP : WellLocked P) (hno : NoRelock P)
    {init : σ → Prop} {s : State σ L Pc T} {t : T} {e : Ev}
    (halone : ∀ u, u ≠ t → ∀ l, P.holds (s.pc u) l = false)
    (hs : (system P T init).Reach (fun _ _ => True) s) {y : σ × Pc}
    (h : Solo P e (s.shared, s.pc t) y) :
    ∃ s', (system P T init).Reach (fun _ _ => True) s' ∧ s'.shared = y.1 ∧
      s'.pc = Function.update s.pc t y.2 := by
  induction h with
  | refl => exact ⟨s, hs, rfl, (Function.update_eq_self t s.pc).symm⟩
  | @tail y z _ hstep ih =>
    obtain ⟨s₁, hs₁, hshared, hpc⟩ := ih
    have halone₁ : ∀ u, u ≠ t → ∀ l, P.holds (s₁.pc u) l = false := by
      intro u hu l
      rw [hpc, Function.update_of_ne hu]
      exact halone u hu l
    have hsolo : soloStep P e (s₁.shared, s₁.pc t) = some z := by
      rw [hshared, hpc, Function.update_self]
      exact hstep
    obtain ⟨s₂, hstep₂, hshared₂, hpc₂⟩ :=
      step_of_soloStep hno (Reach.lockInv hP hs₁) halone₁ hsolo
    refine ⟨s₂, .step hs₁ trivial hstep₂, hshared₂, ?_⟩
    rw [hpc₂, hpc, Function.update_idem]

end Solo

/-- An observation that a thread's move does not change is the same for all threads. -/
theorem obs_update [DecidableEq T] {α : Type*} {p : Pc → α} {pc : T → Pc} {t : T} {c : Pc}
    (h : p c = p (pc t)) (u : T) : p (Function.update pc t c u) = p (pc u) := by
  by_cases hu : u = t
  · subst hu
    rw [Function.update_self, h]
  · rw [Function.update_of_ne hu]

/-- What holds of a thread after a move holds of the one that moved, or held before. -/
theorem of_update [DecidableEq T] {p : Pc → Bool} {pc : T → Pc} {t : T} {c : Pc} {u : T}
    (h : p (Function.update pc t c u) = true) :
    (u = t ∧ p c = true) ∨ (u ≠ t ∧ p (pc u) = true) := by
  by_cases hu : u = t
  · subst hu
    rw [Function.update_self] at h
    exact Or.inl ⟨rfl, h⟩
  · rw [Function.update_of_ne hu] at h
    exact Or.inr ⟨hu, h⟩

/-! ### Circular waits -/

/-- The thread's next step takes the mutex. -/
def AtLock (P : Program σ L Pc Ev) (s : State σ L Pc T) (t : T) (l : L) : Prop :=
  ∃ pc, P.code (s.pc t) = .lock l pc

/-- A set of threads, each blocked on one of the mutexes `ls`, which another thread of the set
owns. -/
def CircularWait (P : Program σ L Pc Ev) (ls : Set L) (s : State σ L Pc T) : Prop :=
  ∃ D : Set T, D.Nonempty ∧
    ∀ t ∈ D, ∃ l ∈ ls, AtLock P s t l ∧ ∃ u ∈ D, u ≠ t ∧ s.owner l = some u

/-- **Lock order.**  When every thread at a mutex of `ls` holds only mutexes of `ls` of lower
rank, there is no circular wait. -/
theorem not_circularWait_of_rank [Finite L] {P : Program σ L Pc Ev} {ls : Set L}
    {s : State σ L Pc T} (hinv : LockInv P s) (rank : L → ℕ)
    (hrank : ∀ t, ∀ l ∈ ls, AtLock P s t l → ∀ l' ∈ ls, P.holds (s.pc t) l' = true →
      rank l' < rank l) : ¬ CircularWait P ls s := by
  rintro ⟨D, ⟨t₀, ht₀⟩, hD⟩
  -- Take the mutex of highest rank over which the set waits.
  let waited : Set L := {l | l ∈ ls ∧ ∃ u ∈ D, s.owner l = some u}
  have hne : waited.Nonempty := by
    obtain ⟨l, hl, -, u, hu, -, howner⟩ := hD t₀ ht₀
    exact ⟨l, hl, u, hu, howner⟩
  obtain ⟨l, ⟨hl, u, hu, howner⟩, hmax⟩ :=
    Set.exists_max_image waited rank (Set.toFinite _) hne
  -- Its owner waits for a mutex of higher rank still.
  obtain ⟨l', hl', hat, v, hv, -, howner'⟩ := hD u hu
  have hlt : rank l < rank l' := hrank u l' hl' hat l hl ((hinv l u).mp howner)
  exact absurd (hmax l' ⟨hl', v, hv, howner'⟩) (not_le.mpr hlt)

/-- Two threads that wait for each other. -/
theorem circularWait_pair {P : Program σ L Pc Ev} {ls : Set L} {s : State σ L Pc T} {t u : T}
    {l m : L} (hne : t ≠ u) (hl : l ∈ ls) (hm : m ∈ ls) (ht : AtLock P s t l)
    (hu : AtLock P s u m) (howner : s.owner l = some u) (howner₂ : s.owner m = some t) :
    CircularWait P ls s := by
  refine ⟨{t, u}, Set.insert_nonempty _ _, ?_⟩
  rintro v (rfl | rfl)
  · exact ⟨l, hl, ht, u, Set.mem_insert_of_mem _ rfl, hne.symm, howner⟩
  · exact ⟨m, hm, hu, t, Set.mem_insert _ _, hne, howner₂⟩

/-! ### Two kinds of points -/

/-- One thread is at a point with `p` and one at a point with `q`. -/
def Coexist (p q : Pc → Bool) (pc : T → Pc) : Prop :=
  (∃ t, p (pc t) = true) ∧ ∃ u, q (pc u) = true

/-- A move makes two exclusive kinds of points coexist only by entering one of them while
another thread is at the other. -/
theorem coexist_update [DecidableEq T] {p q : Pc → Bool} (hpq : ∀ c, p c = true → q c = false)
    {pc : T → Pc} (hno : ¬ Coexist p q pc) (t : T) (c : Pc) :
    Coexist p q (Function.update pc t c) ↔
      (p c = true ∧ ∃ u, u ≠ t ∧ q (pc u) = true) ∨
      (q c = true ∧ ∃ u, u ≠ t ∧ p (pc u) = true) := by
  constructor
  · rintro ⟨⟨v, hv⟩, w, hw⟩
    rcases of_update hv with ⟨rfl, hv'⟩ | ⟨hvt, hv'⟩
    · rcases of_update hw with ⟨_, hw'⟩ | ⟨hwt, hw'⟩
      · rw [hpq c hv'] at hw'
        cases hw'
      · exact Or.inl ⟨hv', w, hwt, hw'⟩
    · rcases of_update hw with ⟨rfl, hw'⟩ | ⟨_, hw'⟩
      · exact Or.inr ⟨hw', v, hvt, hv'⟩
      · exact absurd ⟨⟨v, hv'⟩, w, hw'⟩ hno
  · rintro (⟨hc, u, hne, hu⟩ | ⟨hc, u, hne, hu⟩)
    · exact ⟨⟨t, by rwa [Function.update_self]⟩, u, by rwa [Function.update_of_ne hne]⟩
    · exact ⟨⟨u, by rwa [Function.update_of_ne hne]⟩, t, by rwa [Function.update_self]⟩

/-! ### Counting threads -/

section Count

variable [Fintype T]

/-- The number of threads at program counters with `p`. -/
def count (p : Pc → Bool) (pc : T → Pc) : ℕ :=
  (Finset.univ.filter fun t => p (pc t) = true).card

/-- A count is positive when some thread is counted. -/
theorem count_pos {p : Pc → Bool} {pc : T → Pc} {t : T} (h : p (pc t) = true) :
    0 < count p pc := by
  rw [count, Finset.card_pos]
  exact ⟨t, by simpa using h⟩

theorem count_eq_zero {p : Pc → Bool} {pc : T → Pc} (h : ∀ t, p (pc t) = false) :
    count p pc = 0 := by
  rw [count, Finset.card_eq_zero, Finset.filter_eq_empty_iff]
  intro t _ ht
  rw [h t] at ht
  cases ht

theorem count_le_card (p : Pc → Bool) (pc : T → Pc) : count p pc ≤ Fintype.card T :=
  Finset.card_le_univ _

variable [DecidableEq T]

/-- **One thread moves.**  The count loses the thread where it was and gains it where it is. -/
theorem count_update (p : Pc → Bool) (pc : T → Pc) (t : T) (c : Pc) :
    count p (Function.update pc t c) + (p (pc t)).toNat = count p pc + (p c).toNat := by
  have hrest : (Finset.univ.filter fun u => p (Function.update pc t c u) = true).erase t =
      (Finset.univ.filter fun u => p (pc u) = true).erase t := by
    ext u
    simp only [Finset.mem_erase, Finset.mem_filter, Finset.mem_univ, true_and]
    refine and_congr_right fun hu => ?_
    rw [Function.update_of_ne hu]
  have hcard : ∀ q : T → Bool, (Finset.univ.filter fun u => q u = true).card =
      ((Finset.univ.filter fun u => q u = true).erase t).card + (q t).toNat := by
    intro q
    cases hq : q t with
    | false => rw [Finset.erase_eq_of_notMem (by simp [hq])]; rfl
    | true =>
      have hmem : t ∈ Finset.univ.filter fun u => q u = true := by simp [hq]
      exact (Finset.card_erase_add_one hmem).symm
  have hnew := hcard fun u => p (Function.update pc t c u)
  have hold := hcard fun u => p (pc u)
  simp only [Function.update_self] at hnew
  rw [hrest] at hnew
  unfold count
  omega

/-- A move that does not change the observation does not change the count. -/
theorem count_update_of_eq {p : Pc → Bool} {pc : T → Pc} {t : T} {c : Pc}
    (h : p c = p (pc t)) : count p (Function.update pc t c) = count p pc := by
  have hcount := count_update p pc t c
  rw [h] at hcount
  omega

end Count

end Threads
