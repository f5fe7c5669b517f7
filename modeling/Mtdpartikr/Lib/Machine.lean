import Mathlib.Data.List.Forall2

/-!
# Machines that answer their inputs

A `Machine` answers every input and goes to a next state, or stops (`none`).  `outputs` and
`final` are what a run over a list of inputs shows and where it ends.

* `outputs_eq_of_related`: two runs of one machine show the same when a relation between their
  states is kept by every step and related states answer related inputs alike.  This is the rule
  for isolation between the past of a system and its answers.
* `runs_eq_iff`: two machines on the same states that answer differently wherever their steps
  differ have the same runs exactly when no step of the run is one they differ in.
-/

/-- States, inputs and the answers to them. -/
structure Machine (σ ι ω : Type*) where
  step : σ → ι → ω × Option σ

namespace Machine

variable {σ ι ω : Type*}

/-- The answers to the inputs, up to the one the machine stops at. -/
def outputs (M : Machine σ ι ω) : σ → List ι → List ω
  | _, [] => []
  | s, i :: is => (M.step s i).1 :: (match (M.step s i).2 with
    | some s' => outputs M s' is
    | none => [])

/-- The state after the inputs, `none` when the machine stopped. -/
def final (M : Machine σ ι ω) : σ → List ι → Option σ
  | s, [] => some s
  | s, i :: is => (M.step s i).2.bind fun s' => final M s' is

/-- The steps of a run: the state before each and its input. -/
def taken (M : Machine σ ι ω) : σ → List ι → List (σ × ι)
  | _, [] => []
  | s, i :: is => (s, i) :: (match (M.step s i).2 with
    | some s' => taken M s' is
    | none => [])

/-! ### Two runs of one machine -/

/-- **The unwinding rule.**  Related states that answer related inputs alike and lead to related
states show the same in runs over related inputs. -/
theorem outputs_eq_of_related {M : Machine σ ι ω} {R : σ → σ → Prop} {Q : ι → ι → Prop}
    (hstep : ∀ s₁ s₂ i₁ i₂, R s₁ s₂ → Q i₁ i₂ → (M.step s₁ i₁).1 = (M.step s₂ i₂).1 ∧
      Option.Rel R (M.step s₁ i₁).2 (M.step s₂ i₂).2) {is₁ is₂ : List ι}
    (his : List.Forall₂ Q is₁ is₂) :
    ∀ {s₁ s₂ : σ}, R s₁ s₂ → M.outputs s₁ is₁ = M.outputs s₂ is₂ := by
  induction his with
  | nil => intro s₁ s₂ _; rfl
  | @cons i₁ i₂ is₁ is₂ hi _ ih =>
    intro s₁ s₂ hs
    obtain ⟨hout, hnext⟩ := hstep s₁ s₂ i₁ i₂ hs hi
    rw [outputs, outputs, hout]
    congr 1
    generalize (M.step s₁ i₁).2 = n₁ at hnext ⊢
    generalize (M.step s₂ i₂).2 = n₂ at hnext ⊢
    cases hnext with
    | some hrel => exact ih hrel
    | none => rfl

/-! ### Two machines on one run -/

/-- **Exact agreement.**  If two machines do the same on the inputs that meet `A` and answer
differently on all others, then a run has the same answers and the same end on both exactly when
every step of it meets `A`. -/
theorem runs_eq_iff {M N : Machine σ ι ω} {A : σ → ι → Prop}
    (hsame : ∀ s i, A s i → M.step s i = N.step s i)
    (hdiff : ∀ s i, ¬ A s i → (M.step s i).1 ≠ (N.step s i).1) (is : List ι) :
    ∀ s : σ, (M.outputs s is = N.outputs s is ∧ M.final s is = N.final s is) ↔
      ∀ x ∈ N.taken s is, A x.1 x.2 := by
  induction is with
  | nil => intro s; simp [outputs, final, taken]
  | cons i is ih =>
    intro s
    rw [taken, List.forall_mem_cons]
    by_cases hA : A s i
    · rw [outputs, outputs, final, final, hsame s i hA]
      cases h : (N.step s i).2 with
      | none => simp [hA]
      | some s' => simp [hA, ih s']
    · refine iff_of_false (fun h => hdiff s i hA ?_) fun h => hA h.1
      have hout := h.1
      rw [outputs, outputs] at hout
      exact (List.cons.inj hout).1

end Machine
