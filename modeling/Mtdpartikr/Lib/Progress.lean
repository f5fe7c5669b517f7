import Mathlib.Algebra.Order.BigOperators.Group.Finset
import Mtdpartikr.Lib.Threads

/-!
# Threads come to an end

`Descends P rank` says that every instruction away from rank `0` lowers the rank of its thread.
Then a run in which no thread leaves rank `0` is no longer than the ranks it starts from
(`Descends.length_le`), and at a state where it cannot go on every thread is at rank `0`, or some
thread is at an action without a result, or the threads wait in a circle (`stuck_cases`).
-/

namespace Threads

variable {σ L Pc Ev T : Type*}

/-- Every instruction at a point of positive rank leads to one of lower rank. -/
structure Descends (P : Program σ L Pc Ev) (rank : Pc → ℕ) : Prop where
  act : ∀ {pc f e s s' pc'}, 0 < rank pc → P.code pc = .act f → f e s = some (s', pc') →
    rank pc' < rank pc
  lock : ∀ {pc l pc'}, 0 < rank pc → P.code pc = .lock l pc' → rank pc' < rank pc
  unlock : ∀ {pc l pc'}, 0 < rank pc → P.code pc = .unlock l pc' → rank pc' < rank pc

variable [DecidableEq L] [DecidableEq T]

/-- A step lowers the rank of the thread that moves and no other. -/
theorem Descends.moves {P : Program σ L Pc Ev} {rank : Pc → ℕ} (hP : Descends P rank)
    {s s' : State σ L Pc T} {t : T} {e : Ev} (hpos : 0 < rank (s.pc t)) (h : Moves P s t e s') :
    rank (s'.pc t) < rank (s.pc t) ∧ ∀ u, u ≠ t → s'.pc u = s.pc u := by
  cases h with
  | act hcode hf =>
    simp only [Function.update_self]
    exact ⟨hP.act hpos hcode hf, fun u hu => Function.update_of_ne hu _ _⟩
  | lock hcode _ =>
    simp only [Function.update_self]
    exact ⟨hP.lock hpos hcode, fun u hu => Function.update_of_ne hu _ _⟩
  | unlock hcode =>
    simp only [Function.update_self]
    exact ⟨hP.unlock hpos hcode, fun u hu => Function.update_of_ne hu _ _⟩

section Sum

variable [Fintype T]

/-- The steps that all threads together have before them. -/
def totalRank (rank : Pc → ℕ) (s : State σ L Pc T) : ℕ := ∑ t, rank (s.pc t)

theorem Descends.totalRank_lt {P : Program σ L Pc Ev} {rank : Pc → ℕ} (hP : Descends P rank)
    {s s' : State σ L Pc T} {t : T} {e : Ev} (hpos : 0 < rank (s.pc t)) (h : Moves P s t e s') :
    totalRank rank s' < totalRank rank s := by
  obtain ⟨hlt, hothers⟩ := hP.moves hpos h
  apply Finset.sum_lt_sum
  · intro u _
    by_cases hu : u = t
    · rw [hu]
      exact hlt.le
    · rw [hothers u hu]
  · exact ⟨t, Finset.mem_univ t, hlt⟩

/-- **A run of threads that are on their way is short.** -/
theorem Descends.length_le {P : Program σ L Pc Ev} {rank : Pc → ℕ} (hP : Descends P rank)
    {init : σ → Prop} (es : List (T × Ev)) : ∀ {s s' : State σ L Pc T},
      (∀ x ∈ (system P T init).taken s es, 0 < rank (x.1.pc x.2.1)) →
      (system P T init).run s es = some s' → es.length + totalRank rank s' ≤ totalRank rank s := by
  induction es with
  | nil =>
    intro s s' _ hrun
    obtain rfl := Option.some.inj hrun
    rw [List.length_nil, zero_add]
  | cons e es ih =>
    intro s s' hpos hrun
    rw [TransitionSystem.run, Option.bind_eq_some_iff] at hrun
    obtain ⟨s₁, hstep, hrun⟩ := hrun
    simp only [TransitionSystem.taken, hstep, List.mem_cons, forall_eq_or_imp] at hpos
    have hlt := hP.totalRank_lt hpos.1 (moves_of_step (P := P) hstep)
    have hrest := ih hpos.2 hrun
    rw [List.length_cons]
    omega

end Sum

/-- A thread at an action that has no result, whatever the event. -/
def Stopped (P : Program σ L Pc Ev) (s : State σ L Pc T) (t : T) : Prop :=
  ∃ f, P.code (s.pc t) = .act f ∧ ∀ e, f e s.shared = none

/-- **Why threads cannot go on.**  When no thread on its way can move, there is none, or one of
them is stopped, or they wait for each other. -/
theorem stuck_cases [Inhabited Ev] {P : Program σ L Pc Ev} (hno : NoRelock P) {rank : Pc → ℕ}
    (hholds : ∀ pc l, P.holds pc l = true → 0 < rank pc) {s : State σ L Pc T}
    (hinv : LockInv P s) (hstuck : ∀ t e, 0 < rank (s.pc t) → step P s (t, e) = none) :
    (∀ t, rank (s.pc t) = 0) ∨ (∃ t, 0 < rank (s.pc t) ∧ Stopped P s t) ∨
      CircularWait P Set.univ s := by
  by_cases hstop : ∃ t, 0 < rank (s.pc t) ∧ Stopped P s t
  · exact Or.inr (Or.inl hstop)
  by_cases hnone : ∀ t, rank (s.pc t) = 0
  · exact Or.inl hnone
  -- All threads on their way wait for each other.
  obtain ⟨t₀, ht₀⟩ := not_forall.mp hnone
  refine Or.inr (Or.inr ⟨{t | 0 < rank (s.pc t)}, ⟨t₀, Nat.pos_of_ne_zero ht₀⟩, ?_⟩)
  intro t ht
  cases hcode : P.code (s.pc t) with
  | act f =>
    refine absurd ⟨t, ht, f, hcode, fun e => ?_⟩ hstop
    have hnext := hstuck t e ht
    simp only [step, hcode, Option.map_eq_none_iff] at hnext
    exact hnext
  | unlock l pc =>
    have hnext := hstuck t default ht
    simp only [step, hcode] at hnext
    cases hnext
  | lock l pc =>
    have hnext := hstuck t default ht
    simp only [step, hcode] at hnext
    cases howner : s.owner l with
    | none =>
      rw [if_pos howner] at hnext
      cases hnext
    | some u =>
      have hheld : P.holds (s.pc u) l = true := (hinv l u).mp howner
      refine ⟨l, Set.mem_univ l, ⟨pc, hcode⟩, u, hholds _ _ hheld, ?_, howner⟩
      rintro rfl
      rw [hno hcode] at hheld
      cases hheld

end Threads
