import Mathlib.Data.List.Basic

/-!
# Runs of a deterministic transition system

A `TransitionSystem` has initial states and a partial step function driven by events; an event
carries every choice the environment makes, and `none` means that the event is not enabled.

`Reach ok s` says that `s` ends a run from an initial state in which every event taken meets
`ok`, a condition on the state before the step and the event; `Reach.invariant` is the induction
rule for such runs.  `run` executes a list of events and `Reach.of_run` turns an executed list
into reachability.

For statements about every state of one given run, `visited s es` lists the states a run goes
through and `taken s es` the steps it makes.  `forall_visited_iff` is the rule for an exact
condition: when each step from a good state leads to a good state iff it meets `ok`, the states
of a run are all good iff all its steps meet `ok`.  `exists_between` is the rule for taking turns:
between two steps of a run that exclude each other there is one that gives the turn back.
-/

/-- States, events and the steps between them. -/
structure TransitionSystem (σ ε : Type*) where
  init : σ → Prop
  step : σ → ε → Option σ

namespace TransitionSystem

variable {σ ε : Type*} (S : TransitionSystem σ ε)

/-! ### Reachability -/

/-- The states at the end of runs whose steps all meet `ok`. -/
inductive Reach (ok : σ → ε → Prop) : σ → Prop
  | init {s : σ} : S.init s → Reach ok s
  | step {s s' : σ} {e : ε} : Reach ok s → ok s e → S.step s e = some s' → Reach ok s'

variable {S}

/-- **The invariant rule.**  A property of the initial states that every step meeting `ok` keeps
holds at the end of every run. -/
theorem Reach.invariant {ok : σ → ε → Prop} {P : σ → Prop} (hinit : ∀ s, S.init s → P s)
    (hstep : ∀ s e s', P s → ok s e → S.step s e = some s' → P s') {s : σ}
    (h : S.Reach ok s) : P s := by
  induction h with
  | init hs => exact hinit _ hs
  | step _ hok hs ih => exact hstep _ _ _ ih hok hs

/-- A run stays a run under a weaker condition on its steps. -/
theorem Reach.mono {ok ok' : σ → ε → Prop} (h : ∀ s e, ok s e → ok' s e) {s : σ}
    (hs : S.Reach ok s) : S.Reach ok' s := by
  induction hs with
  | init hs => exact .init hs
  | step _ hok hstep ih => exact .step ih (h _ _ hok) hstep

/-! ### Executing a list of events -/

/-- The state after the events, if each of them was enabled. -/
def run (S : TransitionSystem σ ε) : σ → List ε → Option σ
  | s, [] => some s
  | s, e :: es => (S.step s e).bind fun s' => run S s' es

/-- A property that every step of an event with `A` keeps holds at the end of a run of such
events. -/
theorem run_invariant {P : σ → Prop} {A : ε → Prop}
    (hstep : ∀ s e s', P s → A e → S.step s e = some s' → P s') (es : List ε) :
    ∀ {s s' : σ}, P s → (∀ e ∈ es, A e) → S.run s es = some s' → P s' := by
  induction es with
  | nil =>
    intro s s' hs _ hrun
    obtain rfl := Option.some.inj hrun
    exact hs
  | cons e es ih =>
    intro s s' hs hes hrun
    rw [run, Option.bind_eq_some_iff] at hrun
    obtain ⟨s₁, hs₁, hrun⟩ := hrun
    rw [List.forall_mem_cons] at hes
    exact ih (hstep s e s₁ hs hes.1 hs₁) hes.2 hrun

/-- A run over two lists of events is a run over the first and then one over the second. -/
theorem run_append (es es' : List ε) :
    ∀ s : σ, S.run s (es ++ es') = (S.run s es).bind fun s' => S.run s' es' := by
  induction es with
  | nil => intro s; rfl
  | cons e es ih =>
    intro s
    rw [List.cons_append, run, run]
    cases S.step s e with
    | none => rfl
    | some s₁ => exact ih s₁

/-- A reached state is the end of an executed list of events. -/
theorem Reach.exists_run {ok : σ → ε → Prop} {s : σ} (h : S.Reach ok s) :
    ∃ s₀ es, S.init s₀ ∧ S.run s₀ es = some s := by
  induction h with
  | init hs => exact ⟨_, [], hs, rfl⟩
  | @step s s' e _ _ hstep ih =>
    obtain ⟨s₀, es, hs₀, hrun⟩ := ih
    refine ⟨s₀, es ++ [e], hs₀, ?_⟩
    rw [run_append, hrun]
    simp [run, hstep]

/-! ### The states and the steps of one run -/

/-- The states a run visits, up to the first event that is not enabled. -/
def visited (S : TransitionSystem σ ε) : σ → List ε → List σ
  | s, [] => [s]
  | s, e :: es => s :: (match S.step s e with
    | some s' => visited S s' es
    | none => [])

/-- The steps a run makes: the state before each and its event. -/
def taken (S : TransitionSystem σ ε) : σ → List ε → List (σ × ε)
  | _, [] => []
  | s, e :: es => match S.step s e with
    | some s' => (s, e) :: taken S s' es
    | none => []

/-- The steps of a run are made by its events. -/
theorem mem_of_mem_taken {x : σ × ε} (es : List ε) : ∀ {s : σ}, x ∈ S.taken s es → x.2 ∈ es := by
  induction es with
  | nil =>
    intro s hx
    cases hx
  | cons e es ih =>
    intro s hx
    rw [taken] at hx
    cases hstep : S.step s e with
    | none =>
      rw [hstep] at hx
      cases hx
    | some s₁ =>
      rw [hstep, List.mem_cons] at hx
      rcases hx with rfl | hx
      · exact List.mem_cons_self
      · exact List.mem_cons_of_mem _ (ih hx)

/-- The state after an executed list is reached, if its steps all meet `ok`. -/
theorem Reach.of_run {ok : σ → ε → Prop} (es : List ε) :
    ∀ {s s' : σ}, (∀ x ∈ S.taken s es, ok x.1 x.2) → S.Reach ok s → S.run s es = some s' →
      S.Reach ok s' := by
  induction es with
  | nil =>
    intro s s' _ hs hrun
    obtain rfl := Option.some.inj hrun
    exact hs
  | cons e es ih =>
    intro s s' hok hs hrun
    rw [run, Option.bind_eq_some_iff] at hrun
    obtain ⟨s₁, hstep, hrun⟩ := hrun
    simp only [taken, hstep, List.mem_cons, forall_eq_or_imp] at hok
    exact ih hok.2 (.step hs hok.1 hstep) hrun

/-- A property that every step meeting `A` keeps holds in all states of a run whose steps all
meet `A`. -/
theorem forall_visited {I : σ → Prop} {A : σ → ε → Prop}
    (hI : ∀ s e s', I s → A s e → S.step s e = some s' → I s') (es : List ε) :
    ∀ s, I s → (∀ x ∈ S.taken s es, A x.1 x.2) → ∀ s' ∈ S.visited s es, I s' := by
  induction es with
  | nil =>
    intro s hs _ s' hmem
    rw [visited, List.mem_singleton] at hmem
    exact hmem ▸ hs
  | cons e es ih =>
    intro s hs hok s' hmem
    rw [visited, List.mem_cons] at hmem
    rcases hmem with rfl | hmem
    · exact hs
    · cases hstep : S.step s e with
      | none => simp [hstep] at hmem
      | some s₁ =>
        simp only [taken, hstep, List.mem_cons, forall_eq_or_imp] at hok
        rw [hstep] at hmem
        exact ih s₁ (hI s e s₁ hs hok.1 hstep) hok.2 s' hmem

/-- **Exact step conditions.**  If under an invariant `I` a step from a good state leads to a
good state exactly when it meets `A`, then a run visits good states only exactly when every
step it makes meets `A`. -/
theorem forall_visited_iff {I P : σ → Prop} {A : σ → ε → Prop}
    (hI : ∀ s e s', I s → S.step s e = some s' → I s')
    (hP : ∀ s e s', I s → P s → S.step s e = some s' → (P s' ↔ A s e)) (es : List ε) :
    ∀ s, I s → P s →
      ((∀ s' ∈ S.visited s es, P s') ↔ ∀ x ∈ S.taken s es, A x.1 x.2) := by
  induction es with
  | nil =>
    intro s _ hs
    simp [visited, taken, hs]
  | cons e es ih =>
    intro s hIs hs
    cases hstep : S.step s e with
    | none => simp [visited, taken, hstep, hs]
    | some s₁ =>
      have hiff := hP s e s₁ hIs hs hstep
      have hI₁ := hI s e s₁ hIs hstep
      simp only [visited, taken, hstep, List.mem_cons, forall_eq_or_imp]
      constructor
      · rintro ⟨_, hrest⟩
        have h₁ : P s₁ := hrest s₁ (by cases es <;> simp [visited])
        exact ⟨hiff.mp h₁, (ih s₁ hI₁ h₁).mp hrest⟩
      · rintro ⟨hok, hrest⟩
        exact ⟨hs, (ih s₁ hI₁ (hiff.mpr hok)).mpr hrest⟩

/-- The first step of a run is that of its first event. -/
theorem of_taken_eq_cons {s : σ} {es : List ε} {x : σ × ε} {xs : List (σ × ε)}
    (h : S.taken s es = x :: xs) :
    ∃ e es' s₁, es = e :: es' ∧ S.step s e = some s₁ ∧ x = (s, e) ∧ S.taken s₁ es' = xs := by
  cases es with
  | nil => simp [taken] at h
  | cons e es =>
    cases hstep : S.step s e with
    | none => simp [taken, hstep] at h
    | some s₁ =>
      simp only [taken, hstep, List.cons.injEq] at h
      exact ⟨e, es, s₁, rfl, hstep, h.1.symm, h.2⟩

/-! ### Taking turns -/

section Turns

variable {P : σ → Prop} {B C : σ → ε → Prop}

/-- From a state with `P`, a step that needs `P` to have ended comes after one that ends it. -/
theorem exists_before (hkeep : ∀ s e s', P s → ¬ B s e → S.step s e = some s' → P s')
    (hC : ∀ s e, C s e → ¬ P s) (ys : List (σ × ε)) :
    ∀ {s : σ} {es : List ε} {c : σ × ε} {zs : List (σ × ε)}, P s →
      S.taken s es = ys ++ c :: zs → C c.1 c.2 → ∃ b ∈ ys, B b.1 b.2 := by
  induction ys with
  | nil =>
    intro s es c zs hs htaken hc
    obtain ⟨e, _, _, -, -, rfl, -⟩ := of_taken_eq_cons htaken
    exact absurd hs (hC _ _ hc)
  | cons y ys ih =>
    intro s es c zs hs htaken hc
    obtain ⟨e, es', s₁, -, hstep, rfl, hrest⟩ := of_taken_eq_cons htaken
    by_cases hB : B s e
    · exact ⟨_, List.mem_cons_self, hB⟩
    · obtain ⟨b, hb, hbB⟩ := ih (hkeep s e s₁ hs hB hstep) hrest hc
      exact ⟨b, List.mem_cons_of_mem _ hb, hbB⟩

/-- **Taking turns.**  A step `A` brings about `P`, only a step `B` ends it, and a step `C` is
not made while `P` holds: then some `B` lies between an `A` and the next `C` of a run. -/
theorem exists_between {A : σ → ε → Prop}
    (hA : ∀ s e s', A s e → S.step s e = some s' → P s')
    (hkeep : ∀ s e s', P s → ¬ B s e → S.step s e = some s' → P s')
    (hC : ∀ s e, C s e → ¬ P s) (xs : List (σ × ε)) :
    ∀ {s : σ} {es : List ε} {a c : σ × ε} {ys zs : List (σ × ε)},
      S.taken s es = xs ++ a :: (ys ++ c :: zs) → A a.1 a.2 → C c.1 c.2 →
      ∃ b ∈ ys, B b.1 b.2 := by
  induction xs with
  | nil =>
    intro s es a c ys zs htaken ha hc
    obtain ⟨e, es', s₁, -, hstep, rfl, hrest⟩ := of_taken_eq_cons htaken
    exact exists_before hkeep hC ys (hA s e s₁ ha hstep) hrest hc
  | cons x xs ih =>
    intro s es a c ys zs htaken ha hc
    obtain ⟨_, _, _, -, -, -, hrest⟩ := of_taken_eq_cons htaken
    exact ih hrest ha hc

end Turns

end TransitionSystem
