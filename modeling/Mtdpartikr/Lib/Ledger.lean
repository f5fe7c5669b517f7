import Mathlib.Data.Finset.Basic
import Mathlib.Data.Finset.Lattice.Lemmas

/-!
# Ledgers of acquired and released resources

A program that acquires and releases resources leaves a trace of `Event`s.  `run` keeps the
resources that are held along a trace; it stops when a held resource is acquired once more or a
resource that is not held is released.

* `Released tr`: every resource the trace acquires is released exactly once, and nothing else is.
  Traces without a resource in common do not disturb each other (`run_frame`), so a trace stays
  released between the acquisition and the release of others (`Released.bracket`).  A released
  trace acquires and releases each resource equally often (`Released.count_eq`).
* `Holds tr P`: the trace is a legal one and holds the resources with `P` at its end.  Programs
  that keep resources over many steps are reasoned about with it (`Holds.acquire`,
  `Holds.release`, `Holds.borrow`, `Holds.releaseAll`); `Holds.released_iff` reads the result off.
-/

namespace Ledger

variable {R : Type*}

/-- A resource changes hands. -/
inductive Event (R : Type*)
  | acquire (r : R)
  | release (r : R)
  deriving DecidableEq

def Event.resource : Event R → R
  | .acquire r => r
  | .release r => r

section Run

variable [DecidableEq R]

/-- The resources held after a trace, `none` if it acquires or releases one it may not. -/
def run : Finset R → List (Event R) → Option (Finset R)
  | held, [] => some held
  | held, .acquire r :: es => if r ∈ held then none else run (insert r held) es
  | held, .release r :: es => if r ∈ held then run (held.erase r) es else none

/-- Everything acquired is released exactly once. -/
def Released (tr : List (Event R)) : Prop := run ∅ tr = some ∅

instance (tr : List (Event R)) : Decidable (Released tr) :=
  inferInstanceAs (Decidable (run ∅ tr = some ∅))

theorem run_append (es es' : List (Event R)) :
    ∀ held : Finset R, run held (es ++ es') = (run held es).bind fun held' => run held' es' := by
  induction es with
  | nil => intro held; rfl
  | cons e es ih =>
    intro held
    cases e with
    | acquire r =>
      rw [List.cons_append, run, run]
      by_cases hr : r ∈ held
      · rw [if_pos hr, if_pos hr]
        rfl
      · rw [if_neg hr, if_neg hr]
        exact ih _
    | release r =>
      rw [List.cons_append, run, run]
      by_cases hr : r ∈ held
      · rw [if_pos hr, if_pos hr]
        exact ih _
      · rw [if_neg hr, if_neg hr]
        rfl

/-! ### Traces that do not meet -/

/-- Resources a trace does not touch change nothing in it. -/
theorem run_frame {frame : Finset R} (tr : List (Event R)) :
    ∀ held : Finset R, (∀ e ∈ tr, e.resource ∉ frame) →
      run (held ∪ frame) tr = (run held tr).map (· ∪ frame) := by
  induction tr with
  | nil => intro held _; rfl
  | cons e tr ih =>
    intro held hframe
    rw [List.forall_mem_cons] at hframe
    cases e with
    | acquire r =>
      have hr : r ∉ frame := hframe.1
      have hmem : r ∈ held ∪ frame ↔ r ∈ held := by simp [hr]
      rw [run, run]
      by_cases hheld : r ∈ held
      · rw [if_pos (hmem.mpr hheld), if_pos hheld]
        rfl
      · rw [if_neg (mt hmem.mp hheld), if_neg hheld, ← Finset.insert_union]
        exact ih _ hframe.2
    | release r =>
      have hr : r ∉ frame := hframe.1
      have hmem : r ∈ held ∪ frame ↔ r ∈ held := by simp [hr]
      rw [run, run]
      by_cases hheld : r ∈ held
      · rw [if_pos (hmem.mpr hheld), if_pos hheld, Finset.erase_union_distrib,
          Finset.erase_eq_of_notMem hr]
        exact ih _ hframe.2
      · rw [if_neg (mt hmem.mp hheld), if_neg hheld]
        rfl

theorem run_map_acquire (l : List R) (hl : l.Nodup) :
    ∀ held : Finset R, (∀ r ∈ l, r ∉ held) →
      run held (l.map .acquire) = some (held ∪ l.toFinset) := by
  induction l with
  | nil => intro held _; simp [run]
  | cons r l ih =>
    intro held hfree
    rw [List.nodup_cons] at hl
    rw [List.forall_mem_cons] at hfree
    rw [List.map_cons, run, if_neg hfree.1, ih hl.2 (insert r held)]
    · rw [List.toFinset_cons, Finset.insert_union, Finset.union_insert]
    · intro x hx hmem
      rcases Finset.mem_insert.mp hmem with rfl | hmem
      · exact hl.1 hx
      · exact hfree.2 x hx hmem

theorem run_map_release (l : List R) (hl : l.Nodup) :
    ∀ held : Finset R, l.toFinset = held → run held (l.map .release) = some ∅ := by
  induction l with
  | nil =>
    intro held heq
    rw [← heq]
    rfl
  | cons r l ih =>
    intro held heq
    rw [List.nodup_cons] at hl
    have hmem : r ∈ held := by rw [← heq, List.toFinset_cons]; exact Finset.mem_insert_self _ _
    rw [List.map_cons, run, if_pos hmem]
    refine ih hl.2 _ ?_
    rw [← heq, List.toFinset_cons, Finset.erase_insert (by simpa using hl.1)]

/-- **A released trace inside another one.**  Resources that are acquired before a released trace
that does not touch them, and released after it in any order. -/
theorem Released.bracket {l l' : List R} (hl : l.Nodup) (hperm : l'.Perm l)
    {tr : List (Event R)} (h : Released tr) (hfree : ∀ e ∈ tr, e.resource ∉ l) :
    Released (l.map .acquire ++ tr ++ l'.map .release) := by
  have hacquire := run_map_acquire l hl ∅ fun _ _ hmem => by simp at hmem
  have hinner : run (∅ ∪ l.toFinset) tr = some l.toFinset := by
    rw [run_frame tr ∅ fun e he => by simpa using hfree e he]
    rw [show run ∅ tr = some ∅ from h, Option.map_some, Finset.empty_union]
  have hrelease := run_map_release l' (hperm.nodup_iff.mpr hl) l.toFinset
    (List.toFinset_eq_of_perm _ _ hperm)
  rw [Released, run_append, run_append, hacquire, Option.bind_some, hinner, Option.bind_some,
    hrelease]

/-- Whatever a trace acquires and does not release is held at its end. -/
theorem run_count {tr : List (Event R)} (r : R) :
    ∀ {held held' : Finset R}, run held tr = some held' →
      tr.count (.acquire r) + (if r ∈ held then 1 else 0) =
        tr.count (.release r) + (if r ∈ held' then 1 else 0) := by
  induction tr with
  | nil =>
    intro held held' hrun
    obtain rfl := Option.some.inj hrun
    simp
  | cons e tr ih =>
    intro held held' hrun
    cases e with
    | acquire x =>
      rw [run] at hrun
      split_ifs at hrun with hx
      have hcount := ih hrun
      rw [List.count_cons, List.count_cons]
      by_cases hxr : x = r
      · subst hxr
        simp only [Finset.mem_insert_self, if_true, hx, if_false, beq_self_eq_true] at hcount ⊢
        simp only [beq_iff_eq, reduceCtorEq, if_false]
        omega
      · have hmem : r ∈ insert x held ↔ r ∈ held := by simp [Ne.symm hxr]
        simp only [hmem] at hcount
        simp only [beq_iff_eq, Event.acquire.injEq, hxr, reduceCtorEq, if_false]
        omega
    | release x =>
      rw [run] at hrun
      split_ifs at hrun with hx
      have hcount := ih hrun
      rw [List.count_cons, List.count_cons]
      by_cases hxr : x = r
      · subst hxr
        simp only [Finset.notMem_erase, if_false, hx, if_true, beq_self_eq_true] at hcount ⊢
        simp only [beq_iff_eq, reduceCtorEq, if_false]
        omega
      · have hmem : r ∈ held.erase x ↔ r ∈ held := by simp [Ne.symm hxr]
        simp only [hmem] at hcount
        simp only [beq_iff_eq, Event.release.injEq, hxr, reduceCtorEq, if_false]
        omega

/-- A released trace acquires and releases each resource equally often. -/
theorem Released.count_eq {tr : List (Event R)} (h : Released tr) (r : R) :
    tr.count (.acquire r) = tr.count (.release r) := by
  have hcount := run_count r h
  simpa using hcount

/-- What a released trace acquires it also releases. -/
theorem Released.release_mem {tr : List (Event R)} (h : Released tr) {r : R}
    (hmem : .acquire r ∈ tr) : .release r ∈ tr := by
  rw [← List.count_pos_iff, ← h.count_eq r]
  exact List.count_pos_iff.mpr hmem

/-! ### What a trace holds -/

/-- The trace is legal and ends with the resources with `P`. -/
def Holds (tr : List (Event R)) (P : R → Prop) : Prop :=
  ∃ held, run ∅ tr = some held ∧ ∀ r, r ∈ held ↔ P r

theorem Holds.nil : Holds ([] : List (Event R)) fun _ => False :=
  ⟨∅, rfl, fun r => by simp⟩

theorem Holds.congr {tr : List (Event R)} {P Q : R → Prop} (h : Holds tr P)
    (hPQ : ∀ r, P r ↔ Q r) : Holds tr Q := by
  obtain ⟨held, hrun, hheld⟩ := h
  exact ⟨held, hrun, fun r => (hheld r).trans (hPQ r)⟩

theorem Holds.acquire {tr : List (Event R)} {P : R → Prop} (h : Holds tr P) {r : R}
    (hr : ¬ P r) : Holds (tr ++ [.acquire r]) fun x => x = r ∨ P x := by
  obtain ⟨held, hrun, hheld⟩ := h
  have hfree : r ∉ held := fun hmem => hr ((hheld r).mp hmem)
  refine ⟨insert r held, ?_, fun x => ?_⟩
  · rw [run_append, hrun]
    show run held [.acquire r] = _
    rw [run, if_neg hfree, run]
  · rw [Finset.mem_insert, hheld x]

theorem Holds.release {tr : List (Event R)} {P : R → Prop} (h : Holds tr P) {r : R} (hr : P r) :
    Holds (tr ++ [.release r]) fun x => x ≠ r ∧ P x := by
  obtain ⟨held, hrun, hheld⟩ := h
  refine ⟨held.erase r, ?_, fun x => ?_⟩
  · rw [run_append, hrun]
    show run held [.release r] = _
    rw [run, if_pos ((hheld r).mpr hr), run]
  · rw [Finset.mem_erase, hheld x]

/-- A resource that is acquired and released again. -/
theorem Holds.borrow {tr : List (Event R)} {P : R → Prop} (h : Holds tr P) {r : R}
    (hr : ¬ P r) : Holds (tr ++ [.acquire r] ++ [.release r]) P := by
  refine ((h.acquire hr).release (.inl rfl)).congr fun x => ?_
  constructor
  · rintro ⟨hne, heq | hx⟩
    · exact absurd heq hne
    · exact hx
  · exact fun hx => ⟨fun heq => hr (heq ▸ hx), .inr hx⟩

/-- Releasing several different resources. -/
theorem Holds.releaseAll (l : List R) (hl : l.Nodup) :
    ∀ {tr : List (Event R)} {P : R → Prop}, Holds tr P → (∀ r ∈ l, P r) →
      Holds (tr ++ l.map .release) fun x => x ∉ l ∧ P x := by
  induction l with
  | nil =>
    intro tr P h _
    rw [List.map_nil, List.append_nil]
    exact h.congr fun r => by simp
  | cons r l ih =>
    intro tr P h hheld
    rw [List.nodup_cons] at hl
    rw [List.forall_mem_cons] at hheld
    have hfirst := h.release hheld.1
    have hrest := ih hl.2 hfirst fun x hx =>
      ⟨fun heq => hl.1 (heq ▸ hx), hheld.2 x hx⟩
    rw [List.append_assoc, List.singleton_append] at hrest
    rw [List.map_cons]
    exact hrest.congr fun x => by rw [List.mem_cons]; tauto

/-- A legal trace has released everything iff it holds nothing. -/
theorem Holds.released_iff {tr : List (Event R)} {P : R → Prop} (h : Holds tr P) :
    Released tr ↔ ∀ r, ¬ P r := by
  obtain ⟨held, hrun, hheld⟩ := h
  rw [Released, hrun, Option.some.injEq, Finset.eq_empty_iff_forall_notMem]
  exact forall_congr' fun r => not_congr (hheld r)

end Run

end Ledger
