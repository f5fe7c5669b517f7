import Mathlib.Order.Interval.Finset.Nat
import Mathlib.Algebra.Order.BigOperators.Group.List
import Mathlib.Algebra.Order.Ring.Nat
import Mathlib.Algebra.Group.Action.Defs
import Mathlib.Data.List.Pairwise

/-!
# Packing pairwise disjoint pieces into a whole

Some general facts about a list of pieces of which no two overlap.

* `lt_and_lt_iff_not_disjoint`: the two-inequality test decides whether two non-empty half-open
  intervals have a point in common.
* `sum_card_le` / `length_le_div`: pairwise disjoint pieces of a finite set have at most its size
  together, so there are at most `size / k` of them when each has `k` points or more.
* `sum_card_eq_iff`: they have its size together exactly when they cover it.
* `Accepts`: a greedy procedure that offers pieces one by one and accepts one iff it is valid by
  itself and compatible with everything accepted so far.  For a symmetric compatibility, full
  acceptance is a pairwise condition (`accepts_iff`) and so does not depend on the order in which
  the pieces are offered (`Accepts.perm`).
-/

namespace Packing

/-! ### The overlap test -/

/-- Two non-empty half-open intervals share a point iff each starts before the other ends. -/
theorem lt_and_lt_iff_not_disjoint {α : Type*} [LinearOrder α] [LocallyFiniteOrder α]
    {a b c d : α} (hab : a < b) (hcd : c < d) :
    (c < b ∧ a < d) ↔ ¬ Disjoint (Finset.Ico a b) (Finset.Ico c d) := by
  rw [Finset.not_disjoint_iff]
  constructor
  · rintro ⟨hcb, had⟩
    refine ⟨max a c, ?_, ?_⟩
    · rw [Finset.mem_Ico]
      exact ⟨le_max_left _ _, max_lt hab hcb⟩
    · rw [Finset.mem_Ico]
      exact ⟨le_max_right _ _, max_lt had hcd⟩
  · rintro ⟨x, hx, hx'⟩
    rw [Finset.mem_Ico] at hx hx'
    exact ⟨hx'.1.trans_lt hx.2, hx.1.trans_lt hx'.2⟩

/-! ### Capacity -/

section Capacity

variable {ι α : Type*} [DecidableEq α] (r : ι → Finset α)

/-- Pairwise disjoint pieces of `U` have at most `U`'s size together. -/
theorem sum_card_le (l : List ι) (hd : l.Pairwise fun i j => Disjoint (r i) (r j)) :
    ∀ U : Finset α, (∀ i ∈ l, r i ⊆ U) → (l.map fun i => (r i).card).sum ≤ U.card := by
  induction l with
  | nil => intro U _; simp
  | cons i l ih =>
    intro U hU
    rw [List.pairwise_cons] at hd
    have hi : r i ⊆ U := hU i List.mem_cons_self
    -- The rest lies in what `i` leaves of `U`.
    have hrest : ∀ j ∈ l, r j ⊆ U \ r i := by
      intro j hj
      rw [Finset.subset_sdiff]
      exact ⟨hU j (List.mem_cons_of_mem _ hj), (hd.1 j hj).symm⟩
    have hsum := ih hd.2 (U \ r i) hrest
    rw [Finset.card_sdiff_of_subset hi] at hsum
    have hcard := Finset.card_le_card hi
    rw [List.map_cons, List.sum_cons]
    omega

/-- There are at most `|U| / k` pairwise disjoint pieces of `U` with `k` points or more. -/
theorem length_le_div {k : ℕ} (hk : 0 < k) (l : List ι)
    (hd : l.Pairwise fun i j => Disjoint (r i) (r j)) {U : Finset α} (hU : ∀ i ∈ l, r i ⊆ U)
    (hcard : ∀ i ∈ l, k ≤ (r i).card) : l.length ≤ U.card / k := by
  rw [Nat.le_div_iff_mul_le hk]
  have hlow : (l.map fun i => (r i).card).length • k ≤ (l.map fun i => (r i).card).sum := by
    apply List.card_nsmul_le_sum
    intro x hx
    obtain ⟨i, hi, rfl⟩ := List.mem_map.mp hx
    exact hcard i hi
  rw [List.length_map, smul_eq_mul] at hlow
  exact hlow.trans (sum_card_le r l hd U hU)

/-- What the pieces cover. -/
def covered (l : List ι) : Finset α := l.foldr (fun i s => r i ∪ s) ∅

@[simp] theorem mem_covered {l : List ι} {x : α} : x ∈ covered r l ↔ ∃ i ∈ l, x ∈ r i := by
  induction l with
  | nil => simp [covered]
  | cons i l ih =>
    rw [covered] at ih
    rw [covered, List.foldr_cons, Finset.mem_union, ih]
    simp

/-- Pairwise disjoint pieces cover as many points as they have together. -/
theorem card_covered (l : List ι) (hd : l.Pairwise fun i j => Disjoint (r i) (r j)) :
    (covered r l).card = (l.map fun i => (r i).card).sum := by
  induction l with
  | nil => rfl
  | cons i l ih =>
    rw [List.pairwise_cons] at hd
    have hi : Disjoint (r i) (covered r l) := by
      rw [Finset.disjoint_left]
      intro x hx hmem
      obtain ⟨j, hj, hxj⟩ := (mem_covered r).mp hmem
      exact Finset.disjoint_left.mp (hd.1 j hj) hx hxj
    have hcons : covered r (i :: l) = r i ∪ covered r l := rfl
    rw [hcons, Finset.card_union_of_disjoint hi, ih hd.2, List.map_cons, List.sum_cons]

/-- **Full.**  Pairwise disjoint pieces of `U` have `U`'s size together if and only if they leave
no point of it. -/
theorem sum_card_eq_iff (l : List ι) (hd : l.Pairwise fun i j => Disjoint (r i) (r j))
    {U : Finset α} (hU : ∀ i ∈ l, r i ⊆ U) :
    (l.map fun i => (r i).card).sum = U.card ↔ ∀ x ∈ U, ∃ i ∈ l, x ∈ r i := by
  have hsub : covered r l ⊆ U := by
    intro x hx
    obtain ⟨i, hi, hxi⟩ := (mem_covered r).mp hx
    exact hU i hi hxi
  rw [← card_covered r l hd]
  constructor
  · intro hcard x hx
    rw [← Finset.eq_of_subset_of_card_le hsub hcard.ge] at hx
    exact (mem_covered r).mp hx
  · intro hall
    have hle : U ⊆ covered r l := fun x hx => (mem_covered r).mpr (hall x hx)
    rw [hsub.antisymm hle]

end Capacity

/-! ### Greedy acceptance -/

section Greedy

variable {α : Type*} (ok : α → Prop) (compat : α → α → Prop)

/-- `xs` are offered one by one to the pool: each is valid and compatible with all of the pool,
to which it is then added. -/
def Accepts : List α → List α → Prop
  | _, [] => True
  | pool, x :: xs => (ok x ∧ ∀ y ∈ pool, compat y x) ∧ Accepts (pool ++ [x]) xs

/-- Full acceptance, pair by pair. -/
theorem accepts_iff (xs : List α) : ∀ pool : List α, Accepts ok compat pool xs ↔
    (∀ x ∈ xs, ok x ∧ ∀ y ∈ pool, compat y x) ∧ xs.Pairwise compat := by
  induction xs with
  | nil => intro pool; simp [Accepts]
  | cons x xs ih =>
    intro pool
    rw [Accepts, ih, List.pairwise_cons]
    constructor
    · rintro ⟨hx, hxs, hp⟩
      refine ⟨?_, fun z hz => (hxs z hz).2 x (by simp), hp⟩
      intro z hz
      rcases List.mem_cons.mp hz with rfl | hz
      · exact hx
      · exact ⟨(hxs z hz).1, fun y hy => (hxs z hz).2 y (List.mem_append_left _ hy)⟩
    · rintro ⟨hall, hx, hp⟩
      refine ⟨hall x List.mem_cons_self, fun z hz => ?_, hp⟩
      have hz' := hall z (List.mem_cons_of_mem _ hz)
      refine ⟨hz'.1, fun y hy => ?_⟩
      rcases List.mem_append.mp hy with hy | hy
      · exact hz'.2 y hy
      · rw [List.mem_singleton] at hy
        exact hy ▸ hx z hz

/-- **Order independence.**  With a symmetric compatibility, a batch that is accepted in one
order is accepted in every order. -/
theorem Accepts.perm {ok compat} (hsymm : ∀ {x y : α}, compat x y → compat y x)
    {pool xs ys : List α} (hp : xs.Perm ys) (h : Accepts ok compat pool xs) :
    Accepts ok compat pool ys := by
  rw [accepts_iff] at h ⊢
  exact ⟨fun y hy => h.1 y (hp.mem_iff.mpr hy), h.2.perm hp hsymm⟩

end Greedy

end Packing
