import Mathlib.Algebra.Group.Nat.Defs
import Mtdpartikr.Client.HumanBytes

/-!
# When `humanBytes` returns

The heads of the loop, one for each time its condition is evaluated, are the states of
`HumanBytes.heads`; `HumanBytes.head_inv` is its invariant.  The loop stops at four at the latest,
one behind the last suffix, so `humanBytes` panics from `1024 ^ 5` on (`humanBytes_iff`).
-/

namespace Mtdpartikr.Client

namespace HumanBytes

/-! ### The loop heads -/

/-- The values of `div` and `exp` each time the condition of the loop is evaluated. -/
def heads (n : UInt64) : TransitionSystem (UInt64 × ℕ) Unit where
  init s := s = (unit, 0)
  step s _ := if s.1 * unit ≤ n ∧ s.2 < 4 then some (s.1 * unit, s.2 + 1) else none

/-- A loop head of the call with `n`. -/
def IsHead (n : UInt64) (s : UInt64 × ℕ) : Prop := (heads n).Reach (fun _ _ => True) s

/-- The invariant of the loop. -/
structure HeadInv (n : UInt64) (s : UInt64 × ℕ) : Prop where
  exp_le : s.2 ≤ 4
  div_eq : s.1.toNat = 1024 ^ (s.2 + 1)
  div_le : s.1.toNat ≤ n.toNat

/-- The next product does not wrap. -/
theorem HeadInv.toNat_mul_unit {n : UInt64} {s : UInt64 × ℕ} (h : HeadInv n s) :
    s.1.toNat * 1024 < 2 ^ 64 ∧ (s.1 * unit).toNat = 1024 ^ (s.2 + 2) := by
  have hpow : 1024 ^ (s.2 + 2) ≤ 1024 ^ 6 :=
    Nat.pow_le_pow_right (by decide) (Nat.add_le_add_right h.exp_le 2)
  have hmul : s.1.toNat * 1024 = 1024 ^ (s.2 + 2) := by
    rw [h.div_eq]
    exact (Nat.pow_succ (n := 1024) (m := s.2 + 1)).symm
  have hlt : s.1.toNat * 1024 < 2 ^ 64 := by omega
  have hunit : unit.toNat = 1024 := rfl
  exact ⟨hlt, by rw [UInt64.toNat_mul, hunit, Nat.mod_eq_of_lt hlt, hmul]⟩

theorem head_inv {n : UInt64} (h : 1024 ≤ n.toNat) {s : UInt64 × ℕ} (hs : IsHead n s) :
    HeadInv n s := by
  refine TransitionSystem.Reach.invariant (P := HeadInv n) ?_ ?_ hs
  · rintro s rfl
    exact ⟨by decide, rfl, h⟩
  · intro s _ s' hinv _ hstep
    unfold heads at hstep
    simp only at hstep
    split_ifs at hstep with hcond
    obtain rfl := Option.some.inj hstep
    have hle := UInt64.le_iff_toNat_le.mp hcond.1
    exact ⟨hcond.2, hinv.toNat_mul_unit.2, hle⟩

/-- The loop ends at a head whose condition is false. -/
theorem loop_isHead (n : UInt64) (div : UInt64) (exp : ℕ) (h : IsHead n (div, exp)) :
    IsHead n (loop n div exp) ∧
      ¬ ((loop n div exp).1 * unit ≤ n ∧ (loop n div exp).2 < 4) := by
  induction div, exp using loop.induct (n := n) with
  | case1 div exp hcond ih =>
    rw [loop, if_pos hcond]
    exact ih (.step (e := ()) h trivial (if_pos hcond))
  | case2 div exp hcond =>
    rw [loop, if_neg hcond]
    exact ⟨h, hcond⟩

end HumanBytes

/-! ### The result -/

open HumanBytes

/-- What the loop and the suffix it picks are to be. -/
structure ScalesInRange (n : UInt64) : Prop where
  /-- `div * unit` does not wrap at any head of the loop. -/
  noWrap : ∀ s, IsHead n s → s.1.toNat * 1024 < 2 ^ 64
  ends : IsHead n (loop n unit 0)
  div_eq : (loop n unit 0).1.toNat = 1024 ^ ((loop n unit 0).2 + 1)
  div_le : (loop n unit 0).1.toNat ≤ n.toNat
  /-- The unit is as large as possible. -/
  largest : n.toNat < 1024 * (loop n unit 0).1.toNat ∨ (loop n unit 0).2 + 1 = suffixes.length
  index : (loop n unit 0).2 < suffixes.length
  returns : ∃ text, humanBytes n = .ok text

/-- Where the loop ends: at four exactly from `1024 ^ 5` on, and otherwise with a unit that is as
large as possible. -/
theorem loop_end {n : UInt64} (h : 1024 ≤ n.toNat) :
    HeadInv n (loop n unit 0) ∧ ((loop n unit 0).2 < 4 ↔ n.toNat < 1024 ^ 5) ∧
      ((loop n unit 0).2 < 4 → n.toNat < 1024 * (loop n unit 0).1.toNat) := by
  obtain ⟨hhead, hcond⟩ := loop_isHead n unit 0 (.init rfl)
  have hinv := head_inv h hhead
  have hnext : (loop n unit 0).2 < 4 → n.toNat < 1024 ^ ((loop n unit 0).2 + 2) := by
    intro hlt
    have hmul := hinv.toNat_mul_unit.2
    have hnot := not_and.mp hcond
    rw [UInt64.le_iff_toNat_le, hmul] at hnot
    by_contra hle
    exact hnot (Nat.not_lt.mp hle) hlt
  refine ⟨hinv, ⟨fun hlt => ?_, fun hlt => ?_⟩, fun hlt => ?_⟩
  · have hpow : 1024 ^ ((loop n unit 0).2 + 2) ≤ 1024 ^ 5 :=
      Nat.pow_le_pow_right (by decide) (by omega)
    exact Nat.lt_of_lt_of_le (hnext hlt) hpow
  · by_contra hfour
    have hexp : (loop n unit 0).2 = 4 := Nat.le_antisymm hinv.exp_le (Nat.not_lt.mp hfour)
    have hle := hinv.div_le
    rw [hinv.div_eq, hexp] at hle
    omega
  · have hpow := hnext hlt
    rw [Nat.pow_succ, Nat.mul_comm, ← hinv.div_eq] at hpow
    exact hpow

/-- **When `humanBytes` scales in range**: below `1024 ^ 5`.  From there on `exp` is four, one
behind the last suffix. -/
theorem humanBytes_iff {n : UInt64} (h : 1024 ≤ n.toNat) :
    ScalesInRange n ↔ n.toNat < 1024 ^ 5 := by
  obtain ⟨hinv, hiff, hlargest⟩ := loop_end h
  have hlen : suffixes.length = 4 := rfl
  constructor
  · intro hscales
    have hindex := hscales.index
    rw [hlen] at hindex
    exact hiff.mp hindex
  · intro hlt
    have hindex := hiff.mpr hlt
    have hunit : ¬ n < unit := by
      rw [UInt64.lt_iff_toNat_lt]
      exact Nat.not_lt.mpr h
    refine ⟨fun s hs => (head_inv h hs).toNat_mul_unit.1, (loop_isHead n unit 0 (.init rfl)).1,
      hinv.div_eq, hinv.div_le, Or.inl (hlargest hindex), hindex, ?_⟩
    unfold humanBytes
    rw [if_neg hunit]
    simp only [List.getElem?_eq_getElem (show (loop n unit 0).2 < suffixes.length from hindex)]
    exact ⟨_, rfl⟩

/-- A device of 16 MiB. -/
theorem humanBytes_iff_sixteenMiB : ScalesInRange 0x1000000 :=
  (humanBytes_iff (by decide)).mpr (by decide)

/-- A device of one PiB. -/
theorem humanBytes_onePiB :
    humanBytes 0x4000000000000 = .error (.indexOutOfRange 4 4) ∧
      ¬ ScalesInRange 0x4000000000000 := by
  have hloop : loop 0x4000000000000 unit 0 = (0x4000000000000, 4) := by
    rw [loop, if_pos (by decide), loop, if_pos (by decide), loop, if_pos (by decide), loop,
      if_pos (by decide), loop, if_neg (by decide)]
    rfl
  refine ⟨?_, fun h => ?_⟩
  · unfold humanBytes
    rw [if_neg (by decide), hloop]
    rfl
  · have hindex := h.index
    rw [hloop] at hindex
    exact absurd hindex (by decide)

end Mtdpartikr.Client
