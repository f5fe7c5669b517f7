import Mathlib.Algebra.Group.Nat.Defs
import Mathlib.Data.List.TakeWhile

/-!
# `strtoul` in base ten

The C library's conversion of a string to an `unsigned long` of 64 bits, in the `C` locale: blanks,
a sign, digits.  A minus sign negates the value modulo `2 ^ 64`.  Without a digit nothing is
converted and the end pointer is the start of the string; a library may or may not report that
through `errno`.

The string is the list of its bytes before the terminator.
-/

/-- `isspace`. -/
def isSpace (c : UInt8) : Bool := c = 0x20 || (0x09 ≤ c && c ≤ 0x0d)

/-- `isdigit`. -/
def isDigit (c : UInt8) : Bool := 0x30 ≤ c && c ≤ 0x39

/-- The value of a string of digits. -/
def decimalValue (digits : List UInt8) : ℕ :=
  digits.foldl (fun value d => 10 * value + (d.toNat - 0x30)) 0

/-- The optional sign: whether it is a minus sign, and what follows it. -/
def splitSign : List UInt8 → Bool × List UInt8
  | 0x2d :: rest => (true, rest)
  | 0x2b :: rest => (false, rest)
  | rest => (false, rest)

/-- The outcome of a conversion. -/
structure Strtoul where
  value : UInt64
  /-- What the end pointer points at. -/
  rest : List UInt8
  /-- Whether `errno` was set. -/
  failed : Bool
  deriving DecidableEq

/-- `strtoul(s, &end, 10)`; `reportsEmpty` says whether the library sets `errno` when there is
nothing to convert. -/
def strtoul (reportsEmpty : Bool) (s : List UInt8) : Strtoul :=
  let (negated, unsigned) := splitSign (s.dropWhile isSpace)
  let digits := unsigned.takeWhile isDigit
  let rest := unsigned.dropWhile isDigit
  if digits = [] then ⟨0, s, reportsEmpty⟩
  else if 2 ^ 64 ≤ decimalValue digits then ⟨0xFFFFFFFFFFFFFFFF, rest, true⟩
  else
    let value := UInt64.ofNat (decimalValue digits)
    ⟨if negated then -value else value, rest, false⟩

/-- A digit is neither a blank nor a sign. -/
theorem not_isSpace_of_isDigit {c : UInt8} (h : isDigit c = true) :
    isSpace c = false ∧ c ≠ 0x2d ∧ c ≠ 0x2b := by
  simp only [isDigit, Bool.and_eq_true, decide_eq_true_eq, UInt8.le_iff_toNat_le] at h
  have hlow : 48 ≤ c.toNat := h.1
  have hne : ∀ k : UInt8, k.toNat < 48 → c ≠ k := by
    rintro k hk rfl
    omega
  have hblank : ¬ c ≤ 0x0d := by
    rw [UInt8.le_iff_toNat_le]
    show ¬ c.toNat ≤ 13
    omega
  refine ⟨?_, hne 0x2d (by decide), hne 0x2b (by decide)⟩
  simp only [isSpace, hne 0x20 (by decide), hblank, decide_false, Bool.and_false, Bool.or_false]

/-- Digits are not read as a sign. -/
theorem splitSign_digits {digits : List UInt8} (h : ∀ c ∈ digits, isDigit c = true) :
    splitSign digits = (false, digits) := by
  cases digits with
  | nil => rfl
  | cons d rest =>
    obtain ⟨-, hminus, hplus⟩ := not_isSpace_of_isDigit (h d List.mem_cons_self)
    unfold splitSign
    split
    · rename_i heq
      exact absurd (List.cons.inj heq).1 hminus
    · rename_i heq
      exact absurd (List.cons.inj heq).1 hplus
    · rfl

/-- **Digits to the end of the string**, behind any blanks and at most a plus sign, are converted
whole. -/
theorem strtoul_digits (reportsEmpty : Bool) {blanks sign digits : List UInt8}
    (hblanks : ∀ c ∈ blanks, isSpace c = true) (hsign : sign = [] ∨ sign = [0x2b])
    (hne : digits ≠ []) (hdigits : ∀ c ∈ digits, isDigit c = true)
    (hlt : decimalValue digits < 2 ^ 64) :
    strtoul reportsEmpty (blanks ++ sign ++ digits) =
      ⟨UInt64.ofNat (decimalValue digits), [], false⟩ := by
  have hdrop : (blanks ++ sign ++ digits).dropWhile isSpace = sign ++ digits := by
    rw [List.append_assoc, List.dropWhile_append_of_pos hblanks]
    rcases hsign with rfl | rfl
    · obtain ⟨d, rest, rfl⟩ := List.exists_cons_of_ne_nil hne
      have hspace := (not_isSpace_of_isDigit (hdigits d List.mem_cons_self)).1
      exact List.dropWhile_cons_of_neg (by rw [hspace]; exact Bool.false_ne_true)
    · exact List.dropWhile_cons_of_neg (by decide)
  have hsplit : splitSign (sign ++ digits) = (false, digits) := by
    rcases hsign with rfl | rfl
    · exact splitSign_digits hdigits
    · rfl
  have htake : digits.takeWhile isDigit = digits := List.takeWhile_eq_self_iff.mpr hdigits
  have hrest : digits.dropWhile isDigit = [] := List.dropWhile_eq_nil_iff.mpr hdigits
  unfold strtoul
  simp only [hdrop, hsplit, htake, hrest, hne, Nat.not_le.mpr hlt, if_false, Bool.false_eq_true]
