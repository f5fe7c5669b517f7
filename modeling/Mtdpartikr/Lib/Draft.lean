import Mtdpartikr.Lib.Simulation

/-!
# A draft that is edited and published

A service keeps two lists of pieces: a draft, which its client edits piece by piece, and the live
list, which others see.  A piece must be valid by itself, and compatible with the rest of the draft
when it joins it.  `publish` makes the draft the live list as a whole; `withdraw` empties the live
list, and `insert` and `remove` edit it behind the draft's back.

* `Inv.step`: the draft is always a packing, and every live piece is valid.
* `live_pairwise_step`: without an `insert` the live list stays a packing too.
* `live_eq_step`: what was published stays until the live list is edited.
-/

namespace Draft

variable {ι : Type*}

/-- The draft and the live list. -/
structure State (ι : Type*) where
  draft : List ι
  live : List ι

/-- What a client can ask for. -/
inductive Op (ι : Type*)
  | idle
  | reset
  | append (x : ι)
  | erase (i : ℕ)
  | publish
  | withdraw
  | insert (x : ι)
  | remove (i : ℕ)

def State.apply (s : State ι) : Op ι → State ι
  | .idle => s
  | .reset => { s with draft := [] }
  | .append x => { s with draft := s.draft ++ [x] }
  | .erase i => { s with draft := s.draft.eraseIdx i }
  | .publish => { s with live := s.draft }
  | .withdraw => { s with live := [] }
  | .insert x => { s with live := s.live ++ [x] }
  | .remove i => { s with live := s.live.eraseIdx i }

/-- The operations on the live list. -/
def Op.EditsLive : Op ι → Prop
  | .publish | .withdraw | .insert _ | .remove _ => True
  | _ => False

/-- A piece goes into the live list past the draft. -/
def Op.IsInsert : Op ι → Prop
  | .insert _ => True
  | _ => False

section Service

variable (ok : ι → Prop) (compat : ι → ι → Prop)

/-- The operations that are granted. -/
def Allowed (s : State ι) : Op ι → Prop
  | .append x => ok x ∧ ∀ y ∈ s.draft, compat y x
  | .erase i => i < s.draft.length
  | .publish => s.draft ≠ []
  | .insert x => ok x
  | .remove i => i < s.live.length
  | .idle | .reset | .withdraw => True

open Classical in
/-- The service, with nothing drafted and nothing live at first. -/
noncomputable def service : TransitionSystem (State ι) (Op ι) where
  init s := s = ⟨[], []⟩
  step s op := if Allowed ok compat s op then some (s.apply op) else none

variable {ok compat}

theorem service_step_iff {s s' : State ι} {op : Op ι} :
    (service ok compat).step s op = some s' ↔ Allowed ok compat s op ∧ s' = s.apply op := by
  unfold service
  simp only
  split_ifs with h
  · rw [Option.some.injEq, and_iff_right h, eq_comm]
  · simp [h]

theorem service_step {s : State ι} {op : Op ι} (h : Allowed ok compat s op) :
    (service ok compat).step s op = some (s.apply op) :=
  service_step_iff.mpr ⟨h, rfl⟩

/-! ### Invariants -/

variable (ok compat)

/-- The draft is a packing, and the live pieces are valid. -/
structure Inv (s : State ι) : Prop where
  draft_ok : ∀ x ∈ s.draft, ok x
  draft_compat : s.draft.Pairwise compat
  live_ok : ∀ x ∈ s.live, ok x

variable {ok compat}

theorem Inv.nil : Inv ok compat ⟨[], []⟩ := ⟨by simp, .nil, by simp⟩

/-- Every granted operation keeps the invariant. -/
theorem Inv.apply {s : State ι} {op : Op ι} (h : Inv ok compat s)
    (hop : Allowed ok compat s op) : Inv ok compat (s.apply op) := by
  cases op with
  | idle => exact h
  | reset => exact ⟨by simp [State.apply], .nil, h.live_ok⟩
  | append x =>
    refine ⟨?_, ?_, h.live_ok⟩
    · intro y hy
      rcases List.mem_append.mp hy with hy | hy
      · exact h.draft_ok y hy
      · exact List.mem_singleton.mp hy ▸ hop.1
    · -- The new piece stands last, so only pairs that end in it are new.
      rw [State.apply, List.pairwise_append]
      refine ⟨h.draft_compat, List.pairwise_singleton _ _, ?_⟩
      intro y hy z hz
      exact List.mem_singleton.mp hz ▸ hop.2 y hy
  | erase i =>
    have hsub := List.eraseIdx_sublist s.draft i
    exact ⟨fun x hx => h.draft_ok x (hsub.subset hx), h.draft_compat.sublist hsub, h.live_ok⟩
  | publish => exact ⟨h.draft_ok, h.draft_compat, h.draft_ok⟩
  | withdraw => exact ⟨h.draft_ok, h.draft_compat, by simp [State.apply]⟩
  | insert x =>
    refine ⟨h.draft_ok, h.draft_compat, ?_⟩
    intro y hy
    rcases List.mem_append.mp hy with hy | hy
    · exact h.live_ok y hy
    · exact List.mem_singleton.mp hy ▸ hop
  | remove i =>
    refine ⟨h.draft_ok, h.draft_compat, fun x hx => h.live_ok x ?_⟩
    exact (List.eraseIdx_sublist s.live i).subset hx

/-- **The draft is always a packing.** -/
theorem Inv.step {s s' : State ι} {op : Op ι} (h : Inv ok compat s)
    (hstep : (service ok compat).step s op = some s') : Inv ok compat s' := by
  obtain ⟨hop, rfl⟩ := service_step_iff.mp hstep
  exact h.apply hop

/-- An operation that is no `insert` keeps the live list compatible. -/
theorem live_pairwise_apply {s : State ι} {op : Op ι} (h : Inv ok compat s)
    (hlive : s.live.Pairwise compat) (hop : ¬ op.IsInsert) :
    (s.apply op).live.Pairwise compat := by
  cases op with
  | idle | reset | append _ | erase _ => exact hlive
  | publish => exact h.draft_compat
  | withdraw => exact .nil
  -- The one operation that does not look at the other pieces.
  | insert x => exact absurd trivial hop
  | remove i => exact hlive.sublist (List.eraseIdx_sublist _ _)

/-- **Without an `insert` the live list stays a packing.** -/
theorem live_pairwise_step {s s' : State ι} {op : Op ι}
    (h : Inv ok compat s ∧ s.live.Pairwise compat) (hop : ¬ op.IsInsert)
    (hstep : (service ok compat).step s op = some s') :
    Inv ok compat s' ∧ s'.live.Pairwise compat := by
  obtain ⟨hall, rfl⟩ := service_step_iff.mp hstep
  exact ⟨h.1.apply hall, live_pairwise_apply h.1 h.2 hop⟩

theorem live_eq_apply {s : State ι} {op : Op ι} (hop : ¬ op.EditsLive) :
    (s.apply op).live = s.live := by
  cases op with
  | idle | reset | append _ | erase _ => rfl
  | publish | withdraw | insert _ | remove _ => exact absurd trivial hop

/-- **The live list stays until it is edited.** -/
theorem live_eq_step {s s' : State ι} {op : Op ι} (hop : ¬ op.EditsLive)
    (hstep : (service ok compat).step s op = some s') : s'.live = s.live := by
  obtain ⟨-, rfl⟩ := service_step_iff.mp hstep
  exact live_eq_apply hop

end Service

end Draft
