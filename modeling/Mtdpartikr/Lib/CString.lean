import Mathlib.Data.List.TakeWhile
import Mathlib.Data.List.Basic

/-!
# Character buffers and the C strings they hold

`CBuf n` is a `char[n]`: exactly `n` bytes, the size carried as a field.  `memcpy` and `set`
keep the size, so an out-of-range copy cannot be written down: `memcpy` takes the proofs that
the copied range lies inside both buffers.

`cString` reads a buffer through a `const char *` to its first byte: the bytes before the first
NUL, or `none` when there is no NUL in the buffer and a reader runs past its end.  The main
result is `cString_terminated`: copying the `strnlen` bytes of a buffer into a zeroed one and
then writing a NUL in the last byte always leaves a string, the source's one cut to `n - 1`
bytes.
-/

/-- The bytes before the first NUL; all of them if there is none (`strnlen` many). -/
def strBytes (l : List UInt8) : List UInt8 := l.takeWhile (· != 0)

/-- A list of bytes without a NUL is its own string. -/
theorem strBytes_of_notMem {l : List UInt8} (h : (0 : UInt8) ∉ l) : strBytes l = l := by
  rw [strBytes, List.takeWhile_eq_self_iff]
  intro b hb
  rw [bne_iff_ne]
  rintro rfl
  exact h hb

/-- No NUL is among the bytes before the first NUL. -/
theorem notMem_strBytes (l : List UInt8) : (0 : UInt8) ∉ strBytes l := by
  intro h
  simpa using List.mem_takeWhile_imp h

/-- The string ends at the first NUL that follows bytes without one. -/
theorem strBytes_append_zero {l r : List UInt8} (h : (0 : UInt8) ∉ l) :
    strBytes (l ++ 0 :: r) = l := by
  have hall : ∀ b ∈ l, (b != 0) = true := by
    intro b hb
    rw [bne_iff_ne]
    rintro rfl
    exact h hb
  rw [strBytes, List.takeWhile_append_of_pos hall]
  simp

/-- A string followed by zeros only. -/
theorem strBytes_append_replicate {l : List UInt8} (h : (0 : UInt8) ∉ l) (k : ℕ) :
    strBytes (l ++ List.replicate k 0) = l := by
  cases k with
  | zero => rw [List.replicate_zero, List.append_nil, strBytes_of_notMem h]
  | succ k => rw [List.replicate_succ, strBytes_append_zero h]

/-- A terminator behind the bytes does not change the string. -/
theorem strBytes_append_nul (l : List UInt8) : strBytes (l ++ [0]) = strBytes l := by
  unfold strBytes
  induction l with
  | nil => rfl
  | cons b l ih =>
    rw [List.cons_append, List.takeWhile_cons, List.takeWhile_cons, ih]

/-- The bytes before the first NUL are a prefix. -/
theorem take_length_strBytes (l : List UInt8) : l.take (strBytes l).length = strBytes l :=
  (List.prefix_iff_eq_take.mp (List.takeWhile_prefix _)).symm

theorem length_strBytes_le (l : List UInt8) : (strBytes l).length ≤ l.length :=
  (List.takeWhile_prefix _).length_le

/-- The string is as long as the list exactly when no NUL is in it. -/
theorem length_strBytes_eq_iff (l : List UInt8) :
    (strBytes l).length = l.length ↔ (0 : UInt8) ∉ l := by
  constructor
  · intro h hmem
    have hself : strBytes l = l := (List.takeWhile_prefix _).eq_of_length h
    exact notMem_strBytes l (by rw [hself]; exact hmem)
  · intro h
    rw [strBytes_of_notMem h]

/-- `char[n]`. -/
structure CBuf (n : ℕ) where
  /-- The bytes, lowest address first. -/
  bytes : List UInt8
  size_eq : bytes.length = n
  deriving DecidableEq

namespace CBuf

variable {n : ℕ}

/-- A buffer is its bytes. -/
@[ext] theorem ext {b c : CBuf n} (h : b.bytes = c.bytes) : b = c := by
  cases b
  cases c
  simp only [mk.injEq]
  exact h

/-- `memset(buf, 0, n)`. -/
def zero (n : ℕ) : CBuf n := ⟨List.replicate n 0, List.length_replicate⟩

/-- `strnlen(buf, max)`. -/
def strnlen (b : CBuf n) (max : ℕ) : ℕ := (strBytes (b.bytes.take max)).length

theorem strnlen_le (b : CBuf n) (max : ℕ) : b.strnlen max ≤ n := by
  have h1 : b.strnlen max ≤ (b.bytes.take max).length := length_strBytes_le _
  have h2 : (b.bytes.take max).length ≤ b.bytes.length := List.length_take_le' _ _
  have h3 := b.size_eq
  omega

/-- `memcpy(dst, src, k)`, for a range inside both. -/
def memcpy (dst : CBuf n) (src : List UInt8) (k : ℕ) (hdst : k ≤ n) (hsrc : k ≤ src.length) :
    CBuf n :=
  ⟨src.take k ++ dst.bytes.drop k, by
    rw [List.length_append, List.length_take, List.length_drop, dst.size_eq]; omega⟩

/-- `buf[i] = v`. -/
def set (b : CBuf n) (i : ℕ) (v : UInt8) : CBuf n :=
  ⟨b.bytes.set i v, by rw [List.length_set, b.size_eq]⟩

/-- The string a pointer to the first byte denotes; `none` when no NUL ends it inside the
buffer. -/
def cString (b : CBuf n) : Option (List UInt8) :=
  if (0 : UInt8) ∈ b.bytes then some (strBytes b.bytes) else none

theorem cString_isSome_iff (b : CBuf n) : b.cString.isSome ↔ (0 : UInt8) ∈ b.bytes := by
  unfold cString
  split_ifs with h <;> simp [h]

/-- A string inside a buffer leaves room for its NUL. -/
theorem length_strBytes_lt {b : CBuf n} (h : (0 : UInt8) ∈ b.bytes) :
    (strBytes b.bytes).length < n := by
  have hle : (strBytes b.bytes).length ≤ b.bytes.length := length_strBytes_le _
  have hne : (strBytes b.bytes).length ≠ b.bytes.length :=
    fun he => (length_strBytes_eq_iff _).mp he h
  have := b.size_eq
  omega

/-- A zeroed buffer that received `s` at its start and a NUL in its last byte holds `s` cut to
`n - 1` bytes, followed by zeros. -/
theorem append_zeros_set_last {s : List UInt8} (hs : s.length ≤ n) (hn : 0 < n) :
    (s ++ List.replicate (n - s.length) 0).set (n - 1) (0 : UInt8)
      = s.take (n - 1) ++ List.replicate (n - (s.take (n - 1)).length) 0 := by
  apply List.ext_getElem
  · simp only [List.length_set, List.length_append, List.length_replicate, List.length_take]
    omega
  · intro i h1 h2
    simp only [List.length_set, List.length_append, List.length_replicate] at h1
    rw [List.getElem_set]
    simp only [List.getElem_append, List.getElem_replicate, List.length_take, List.getElem_take]
    by_cases hi : n - 1 = i
    · -- The last byte: behind the cut on the right, so a zero there as well.
      rw [if_pos hi, dif_neg (by omega)]
    · rw [if_neg hi]
      by_cases hlt : i < s.length
      · rw [dif_pos hlt, dif_pos (by omega)]
      · rw [dif_neg hlt, dif_neg (by omega)]

/-- The buffer left by copying a string's `strnlen` bytes into zeros and ending it with a NUL:
the string cut to `n - 1` bytes, then zeros. -/
theorem bytes_terminated (src : CBuf n) (hn : 0 < n) :
    (((zero n).memcpy src.bytes (src.strnlen n) (src.strnlen_le n)
        (by rw [src.size_eq]; exact src.strnlen_le n)).set (n - 1) 0).bytes
      = (strBytes src.bytes).take (n - 1)
        ++ List.replicate (n - ((strBytes src.bytes).take (n - 1)).length) 0 := by
  have htake : src.bytes.take n = src.bytes := List.take_of_length_le src.size_eq.le
  have hk : src.strnlen n = (strBytes src.bytes).length := by rw [strnlen, htake]
  have hle : (strBytes src.bytes).length ≤ n := hk ▸ src.strnlen_le n
  rw [← append_zeros_set_last hle hn]
  simp only [set, memcpy, zero, hk, take_length_strBytes, List.drop_replicate]

/-- Copying a buffer that was made so gives its bytes once more. -/
theorem bytes_terminated_twice {src b : CBuf n} (hn : 0 < n)
    (hb : b.bytes = (strBytes src.bytes).take (n - 1)
      ++ List.replicate (n - ((strBytes src.bytes).take (n - 1)).length) 0) :
    (((zero n).memcpy b.bytes (b.strnlen n) (b.strnlen_le n)
        (by rw [b.size_eq]; exact b.strnlen_le n)).set (n - 1) 0).bytes = b.bytes := by
  have hnul : (0 : UInt8) ∉ (strBytes src.bytes).take (n - 1) :=
    fun h => notMem_strBytes _ (List.mem_of_mem_take h)
  -- The string in the copy is the cut one, and a second cut leaves it alone.
  have hstr : strBytes b.bytes = (strBytes src.bytes).take (n - 1) := by
    rw [hb, strBytes_append_replicate hnul]
  rw [bytes_terminated b hn, hstr, List.take_take, Nat.min_self, hb]

/-- **A forced terminator always leaves a string.**  It is the source's string cut to `n - 1`
bytes, whether or not the source had a NUL. -/
theorem cString_terminated (src : CBuf n) (hn : 0 < n) :
    (((zero n).memcpy src.bytes (src.strnlen n) (src.strnlen_le n)
        (by rw [src.size_eq]; exact src.strnlen_le n)).set (n - 1) 0).cString
      = some ((strBytes src.bytes).take (n - 1)) := by
  set s := (strBytes src.bytes).take (n - 1) with hs
  have hnul : (0 : UInt8) ∉ s := fun h => notMem_strBytes _ (List.mem_of_mem_take h)
  have hlen : s.length ≤ n - 1 := by rw [hs, List.length_take]; omega
  obtain ⟨j, hj⟩ : ∃ j, n - s.length = j + 1 := ⟨n - s.length - 1, by omega⟩
  unfold cString
  rw [bytes_terminated src hn, ← hs, hj, List.replicate_succ, if_pos (by simp),
    strBytes_append_zero hnul]

end CBuf
