import Mtdpartikr.Client.OpenDevice

/-!
# When a device is opened

`dev.h` promises a negative number for every error, and the callers ask for nothing else.  The
function returns one instead, so it never returns a negative number
(`openMtdpartctlDeviceByArgvIndex_nonneg`) and keeps the promise only where there is no error
(`opensDenoted_iff`).
-/

namespace Mtdpartikr.Client

/-- The string denotes the index in decimal: at least one digit and nothing behind the digits.
`lead` says whether blanks and a plus sign may stand before them. -/
def DenotesIndex (lead : Bool) (index : GoString) (i : ℕ) : Prop :=
  ∃ blanks sign digits : List UInt8, index = blanks ++ sign ++ digits ∧
    (∀ c ∈ blanks, lead = true ∧ isSpace c = true) ∧
    (sign = [] ∨ lead = true ∧ sign = [0x2b]) ∧
    digits ≠ [] ∧ (∀ c ∈ digits, isDigit c = true) ∧ decimalValue digits = i

section Open

variable (reportsEmpty : Bool) (openNode : GoString → Int)

/-- No exit of the function is negative. -/
theorem openMtdpartctlDeviceByArgvIndex_nonneg (index : GoString) :
    0 ≤ openMtdpartctlDeviceByArgvIndex reportsEmpty openNode index := by
  unfold openMtdpartctlDeviceByArgvIndex
  simp only
  split_ifs <;> omega

/-- A string that denotes an index up to 1000 leads to the node of that index. -/
theorem openMtdpartctlDeviceByArgvIndex_denotes {lead : Bool} {index : GoString} {i : ℕ}
    (h : DenotesIndex lead index i) (hi : i ≤ 1000) :
    openMtdpartctlDeviceByArgvIndex reportsEmpty openNode index =
      if openNode (devicePath i) < 0 then 1 else openNode (devicePath i) := by
  obtain ⟨blanks, sign, digits, rfl, hblanks, hsign, hne, hdigits, rfl⟩ := h
  have hparse := strtoul_digits reportsEmpty (fun c hc => (hblanks c hc).2)
    (hsign.imp_right And.right) hne hdigits (by omega)
  have hvalue : (UInt64.ofNat (decimalValue digits)).toNat = decimalValue digits := by
    rw [UInt64.toNat_ofNat']
    omega
  have hmax : ¬ 1000 < UInt64.ofNat (decimalValue digits) := by
    rw [UInt64.lt_iff_toNat_lt, hvalue]
    exact Nat.not_lt.mpr hi
  unfold openMtdpartctlDeviceByArgvIndex
  simp only [hparse, hmax, hvalue, Bool.false_eq_true, ne_eq, not_true_eq_false, if_false]

/-- The callers hand out what the function returns. -/
theorem openMtdpartctlDeviceOrExit_eq (program index : GoString) :
    openMtdpartctlDeviceOrExit reportsEmpty openNode [program, index] =
      some (openMtdpartctlDeviceByArgvIndex reportsEmpty openNode index) := by
  have hnonneg := openMtdpartctlDeviceByArgvIndex_nonneg reportsEmpty openNode index
  unfold openMtdpartctlDeviceOrExit getMtdpartctlDeviceFd
  simp only [if_neg (Int.not_lt.mpr hnonneg)]

/-- What `dev.h` promises and the callers rely on. -/
structure OpensDenoted (lead : Bool) (index : GoString) : Prop where
  /-- A negative number is returned in all other cases. -/
  nonneg_iff : 0 ≤ openMtdpartctlDeviceByArgvIndex reportsEmpty openNode index ↔
    ∃ i ≤ 1000, DenotesIndex lead index i ∧ 0 ≤ openNode (devicePath i)
  descriptor : ∀ i ≤ 1000, DenotesIndex lead index i → 0 ≤ openNode (devicePath i) →
    openMtdpartctlDeviceByArgvIndex reportsEmpty openNode index = openNode (devicePath i)
  /-- A test gets the descriptor of the device or none. -/
  callers : ∀ program fd,
    openMtdpartctlDeviceOrExit reportsEmpty openNode [program, index] = some fd →
      ∃ i ≤ 1000, DenotesIndex lead index i ∧ 0 ≤ fd ∧ fd = openNode (devicePath i)

/-- **When the promise is kept**: where there is no error.  Whether blanks and a plus sign count as
part of an index makes no difference to that. -/
theorem opensDenoted_iff (lead : Bool) (index : GoString) :
    OpensDenoted reportsEmpty openNode lead index ↔
      ∃ i ≤ 1000, DenotesIndex lead index i ∧ 0 ≤ openNode (devicePath i) := by
  have hnonneg := openMtdpartctlDeviceByArgvIndex_nonneg reportsEmpty openNode index
  constructor
  · intro h
    exact h.nonneg_iff.mp hnonneg
  · intro h
    have hdescriptor : ∀ i ≤ 1000, DenotesIndex lead index i → 0 ≤ openNode (devicePath i) →
        openMtdpartctlDeviceByArgvIndex reportsEmpty openNode index = openNode (devicePath i) := by
      intro i hi hdenotes hopen
      rw [openMtdpartctlDeviceByArgvIndex_denotes reportsEmpty openNode hdenotes hi,
        if_neg (Int.not_lt.mpr hopen)]
    refine ⟨iff_of_true hnonneg h, hdescriptor, fun program fd hfd => ?_⟩
    obtain ⟨i, hi, hdenotes, hopen⟩ := h
    rw [openMtdpartctlDeviceOrExit_eq, hdescriptor i hi hdenotes hopen] at hfd
    obtain rfl := Option.some.inj hfd
    exact ⟨i, hi, hdenotes, hopen, rfl⟩

end Open

/-- Two errors that hand a test the descriptor of its standard output, and two strings that open a
device without denoting an index. -/
theorem opensDenoted_errors :
    openMtdpartctlDeviceOrExit false (fun _ => -1) [[], ascii "0"] = some 1 ∧
      openMtdpartctlDeviceOrExit false (fun _ => 5) [[], ascii "x"] = some 1 ∧
      openMtdpartctlDeviceOrExit false (fun _ => 5) [[], []] = some 5 ∧
      openMtdpartctlDeviceOrExit false (fun _ => 5) [[], ascii "-18446744073709551615"] = some 5 ∧
      ¬ OpensDenoted false (fun _ => -1) false (ascii "0") ∧
      ¬ OpensDenoted false (fun _ => -1) true (ascii "0") := by
  have hno : ∀ lead, ¬ OpensDenoted false (fun _ => -1) lead (ascii "0") := by
    intro lead h
    obtain ⟨i, -, -, hopen⟩ := h.nonneg_iff.mp (openMtdpartctlDeviceByArgvIndex_nonneg _ _ _)
    exact absurd hopen (by decide)
  exact ⟨by decide, by decide, by decide, by decide, hno false, hno true⟩

end Mtdpartikr.Client
