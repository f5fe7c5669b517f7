import Mathlib.Algebra.Group.Nat.Defs
import Mtdpartikr.Lib.CString

/-!
# Structures in memory

How a C structure lies in memory, and what becomes of its bytes when its members are assigned.

* `leBytes` / `ofLeBytes`: integers as little-endian bytes, which determine each other.
* `CType`, `offsetof`, `structType`: sizes, alignments and member offsets by the usual rule, each
  member at the next multiple of its alignment and the whole padded to the largest one.
* `CBuf.field` and `CBuf.assign` read and assign a member; an assignment leaves every byte outside
  of the member as it was, padding included.

The main result is `CBuf.take_assignAll_eq_iff`: after a list of assignments the first `k` bytes
are the same whatever was in the memory before, if and only if the assigned members cover all of
them.
-/

/-! ### Little-endian integers -/

/-- The `w` low bytes of `n`, lowest first. -/
def leBytes : ℕ → ℕ → List UInt8
  | 0, _ => []
  | w + 1, n => UInt8.ofNat n :: leBytes w (n / 256)

/-- The number with these bytes, lowest first. -/
def ofLeBytes : List UInt8 → ℕ
  | [] => 0
  | b :: bs => b.toNat + 256 * ofLeBytes bs

@[simp] theorem length_leBytes (w n : ℕ) : (leBytes w n).length = w := by
  induction w generalizing n with
  | zero => rfl
  | succ w ih => rw [leBytes, List.length_cons, ih]

/-- A number that fits its bytes is read back. -/
theorem ofLeBytes_leBytes {w n : ℕ} (h : n < 256 ^ w) : ofLeBytes (leBytes w n) = n := by
  induction w generalizing n with
  | zero =>
    rw [pow_zero, Nat.lt_one_iff] at h
    rw [h]
    rfl
  | succ w ih =>
    have hdiv : n / 256 < 256 ^ w := by
      rw [Nat.div_lt_iff_lt_mul (by decide), ← pow_succ]
      exact h
    have hmod : (UInt8.ofNat n).toNat = n % 256 := UInt8.toNat_ofNat'
    rw [leBytes, ofLeBytes, ih hdiv, hmod]
    exact Nat.mod_add_div n 256

/-- Different bytes make different numbers. -/
theorem ofLeBytes_inj {l l' : List UInt8} (hlen : l.length = l'.length)
    (h : ofLeBytes l = ofLeBytes l') : l = l' := by
  induction l generalizing l' with
  | nil => exact (List.length_eq_zero_iff.mp hlen.symm).symm
  | cons b bs ih =>
    cases l' with
    | nil => cases hlen
    | cons b' bs' =>
      rw [ofLeBytes, ofLeBytes] at h
      have hb := b.toNat_lt
      have hb' := b'.toNat_lt
      have hhead : b = b' := UInt8.toNat_inj.mp (by omega)
      have htail : ofLeBytes bs = ofLeBytes bs' := by omega
      rw [hhead, ih (Nat.succ.inj hlen) htail]

theorem ofLeBytes_lt (l : List UInt8) : ofLeBytes l < 256 ^ l.length := by
  induction l with
  | nil => exact Nat.one_pos
  | cons b bs ih =>
    have hb := b.toNat_lt
    rw [ofLeBytes, List.length_cons, pow_succ]
    omega

/-! ### Layout -/

/-- What a type takes: its size and its alignment. -/
structure CType where
  size : ℕ
  align : ℕ
  deriving DecidableEq

namespace CType

def bool : CType := ⟨1, 1⟩
def u32 : CType := ⟨4, 4⟩
def u64 : CType := ⟨8, 8⟩

/-- `t[n]`. -/
def array (t : CType) (n : ℕ) : CType := ⟨n * t.size, t.align⟩

/-- `char[n]`. -/
def chars (n : ℕ) : CType := array ⟨1, 1⟩ n

end CType

/-- The next multiple of `align`. -/
def alignUp (n align : ℕ) : ℕ := (n + align - 1) / align * align

/-- The offsets of the members that follow the first `pos` bytes, and the end of the last one. -/
def memberOffsets : ℕ → List CType → List ℕ × ℕ
  | pos, [] => ([], pos)
  | pos, t :: rest =>
    let off := alignUp pos t.align
    let (offs, last) := memberOffsets (off + t.size) rest
    (off :: offs, last)

/-- `offsetof` of the `i`-th member. -/
def offsetof (members : List CType) (i : ℕ) : ℕ := ((memberOffsets 0 members).1[i]?).getD 0

/-- The structure with these members. -/
def structType (members : List CType) : CType :=
  let align := (members.map CType.align).foldr max 1
  ⟨alignUp (memberOffsets 0 members).2 align, align⟩

/-- `sizeof` of the structure. -/
abbrev structSize (members : List CType) : ℕ := (structType members).size

/-! ### Members of a structure in memory -/

namespace CBuf

variable {n : ℕ}

/-- The `k` bytes at `off`. -/
def field (b : CBuf n) (off k : ℕ) : List UInt8 := (b.bytes.drop off).take k

theorem length_field (b : CBuf n) {off k : ℕ} (h : off + k ≤ n) : (b.field off k).length = k := by
  rw [field, List.length_take, List.length_drop, b.size_eq]
  omega

theorem getElem?_field (b : CBuf n) (off k i : ℕ) :
    (b.field off k)[i]? = if i < k then b.bytes[off + i]? else none := by
  rw [field, List.getElem?_take, List.getElem?_drop]

/-- Neighbouring members together. -/
theorem field_append (b : CBuf n) (off j k : ℕ) :
    b.field off j ++ b.field (off + j) k = b.field off (j + k) := by
  rw [field, field, field, ← List.drop_drop]
  exact (List.take_add ..).symm

/-- The whole buffer. -/
theorem field_self (b : CBuf n) : b.field 0 n = b.bytes := by
  rw [field, List.drop_zero]
  exact List.take_of_length_le b.size_eq.le

/-- `memset(&buf, 0, sizeof(buf))`: nothing of the buffer is left. -/
def memsetZero (_b : CBuf n) : CBuf n := zero n

/-- Assigns the member at `off`. -/
def assign (b : CBuf n) (off : ℕ) (v : List UInt8) : CBuf n :=
  ⟨b.bytes.mapIdx fun i x => if off ≤ i then (v[i - off]?).getD x else x, by
    rw [List.length_mapIdx, b.size_eq]⟩

theorem getElem?_assign (b : CBuf n) (off : ℕ) (v : List UInt8) (i : ℕ) :
    (b.assign off v).bytes[i]? =
      (b.bytes[i]?).map fun x => if off ≤ i then (v[i - off]?).getD x else x := by
  rw [assign, List.getElem?_mapIdx]

/-- An assignment leaves the other bytes alone. -/
theorem getElem?_assign_of_not (b : CBuf n) {off : ℕ} {v : List UInt8} {i : ℕ}
    (h : ¬ (off ≤ i ∧ i < off + v.length)) : (b.assign off v).bytes[i]? = b.bytes[i]? := by
  rw [getElem?_assign]
  by_cases hoff : off ≤ i
  · have hnone : v[i - off]? = none := List.getElem?_eq_none (by omega)
    simp only [hoff, if_true, hnone, Option.getD_none]
    exact Option.map_id'
  · simp only [hoff, if_false]
    exact Option.map_id'

/-- The assigned bytes. -/
theorem getElem?_assign_of_mem (b : CBuf n) {off : ℕ} {v : List UInt8} {i : ℕ} (hoff : off ≤ i)
    (hlt : i < off + v.length) (hn : i < n) : (b.assign off v).bytes[i]? = v[i - off]? := by
  have hb : i < b.bytes.length := by rw [b.size_eq]; exact hn
  have hv : i - off < v.length := by omega
  rw [getElem?_assign, List.getElem?_eq_getElem hb, List.getElem?_eq_getElem hv]
  simp only [Option.map_some, hoff, if_true, Option.getD_some]

/-- A member reads back as it was assigned. -/
theorem field_assign (b : CBuf n) {off k : ℕ} {v : List UInt8} (hk : v.length = k)
    (h : off + k ≤ n) : (b.assign off v).field off k = v := by
  apply List.ext_getElem?
  intro i
  rw [getElem?_field]
  by_cases hi : i < k
  · rw [if_pos hi, getElem?_assign_of_mem b (by omega) (by omega) (by omega),
      Nat.add_sub_cancel_left]
  · rw [if_neg hi]
    exact (List.getElem?_eq_none (by omega)).symm

/-- The other members stay as they were. -/
theorem field_assign_of_disjoint (b : CBuf n) {off off' k : ℕ} {v : List UInt8}
    (h : off' + k ≤ off ∨ off + v.length ≤ off') :
    (b.assign off v).field off' k = b.field off' k := by
  apply List.ext_getElem?
  intro i
  rw [getElem?_field, getElem?_field]
  by_cases hi : i < k
  · rw [if_pos hi, if_pos hi]
    exact getElem?_assign_of_not b (by omega)
  · rw [if_neg hi, if_neg hi]

/-! ### All members at once -/

/-- Assigns members, each given with its offset, one after another. -/
def assignAll (b : CBuf n) : List (ℕ × List UInt8) → CBuf n
  | [] => b
  | (off, v) :: rest => (b.assign off v).assignAll rest

/-- The byte belongs to one of the members. -/
def Covers (members : List (ℕ × List UInt8)) (i : ℕ) : Prop :=
  ∃ m ∈ members, m.1 ≤ i ∧ i < m.1 + m.2.length

instance (members : List (ℕ × List UInt8)) (i : ℕ) : Decidable (Covers members i) :=
  inferInstanceAs (Decidable (∃ m ∈ members, m.1 ≤ i ∧ i < m.1 + m.2.length))

/-- A byte of no member keeps its value. -/
theorem getElem?_assignAll_of_not_covers (members : List (ℕ × List UInt8)) {i : ℕ} :
    ∀ {b : CBuf n}, ¬ Covers members i → (b.assignAll members).bytes[i]? = b.bytes[i]? := by
  induction members with
  | nil => intro b _; rfl
  | cons m rest ih =>
    intro b h
    have hm : ¬ (m.1 ≤ i ∧ i < m.1 + m.2.length) := fun hm => h ⟨m, List.mem_cons_self, hm⟩
    have hrest : ¬ Covers rest i := fun ⟨m', hmem, hm'⟩ => h ⟨m', List.mem_cons_of_mem _ hmem, hm'⟩
    rw [assignAll, ih hrest, getElem?_assign_of_not b hm]

/-- Bytes that agree before the assignments, or that a member covers, agree after them. -/
theorem getElem?_assignAll_congr (members : List (ℕ × List UInt8)) {i : ℕ} :
    ∀ {b b' : CBuf n}, (b.bytes[i]? = b'.bytes[i]? ∨ Covers members i) →
      (b.assignAll members).bytes[i]? = (b'.assignAll members).bytes[i]? := by
  induction members with
  | nil =>
    rintro b b' (h | ⟨m, hm, -⟩)
    · exact h
    · cases hm
  | cons m rest ih =>
    intro b b' h
    apply ih
    by_cases hm : m.1 ≤ i ∧ i < m.1 + m.2.length
    · -- Both bytes are the member's now; behind the buffers there are none.
      refine Or.inl ?_
      by_cases hn : i < n
      · rw [getElem?_assign_of_mem b hm.1 hm.2 hn, getElem?_assign_of_mem b' hm.1 hm.2 hn]
      · have hlen : ∀ c : CBuf n, c.bytes[i]? = none := fun c =>
          List.getElem?_eq_none (by rw [c.size_eq]; omega)
        rw [hlen, hlen]
    · rcases h with h | ⟨m', hmem, hm'⟩
      · refine Or.inl ?_
        rw [getElem?_assign_of_not b hm, getElem?_assign_of_not b' hm, h]
      · rcases List.mem_cons.mp hmem with rfl | hmem
        · exact absurd hm' hm
        · exact Or.inr ⟨m', hmem, hm'⟩

/-- Assignments elsewhere leave a member alone. -/
theorem field_assignAll_of_disjoint (members : List (ℕ × List UInt8)) {off k : ℕ} :
    ∀ {b : CBuf n}, (∀ m ∈ members, off + k ≤ m.1 ∨ m.1 + m.2.length ≤ off) →
      (b.assignAll members).field off k = b.field off k := by
  induction members with
  | nil => intro b _; rfl
  | cons m rest ih =>
    intro b h
    rw [assignAll, ih fun m' hm' => h m' (List.mem_cons_of_mem _ hm'),
      field_assign_of_disjoint b (h m List.mem_cons_self)]

/-- **Every member reads back as it was assigned**, when the members come in order. -/
theorem field_assignAll (members : List (ℕ × List UInt8)) {m : ℕ × List UInt8} :
    ∀ {b : CBuf n}, members.Pairwise (fun m m' => m.1 + m.2.length ≤ m'.1) → m ∈ members →
      m.1 + m.2.length ≤ n → (b.assignAll members).field m.1 m.2.length = m.2 := by
  induction members with
  | nil => intro b _ hm; cases hm
  | cons m₀ rest ih =>
    intro b hpw hm hn
    rw [List.pairwise_cons] at hpw
    rcases List.mem_cons.mp hm with rfl | hm
    · rw [assignAll, field_assignAll_of_disjoint rest fun m' hm' => Or.inl (hpw.1 m' hm'),
        field_assign b rfl hn]
    · exact ih hpw.2 hm hn

/-- **What the members leave open.**  The first `k` bytes after the assignments do not depend on
what the memory held before exactly when the members cover them. -/
theorem take_assignAll_eq_iff (members : List (ℕ × List UInt8)) {k : ℕ} (hk : k ≤ n) :
    (∀ b b' : CBuf n,
      (b.assignAll members).bytes.take k = (b'.assignAll members).bytes.take k) ↔
      ∀ i < k, Covers members i := by
  constructor
  · intro h i hi
    by_contra hno
    -- Two buffers that differ everywhere differ at the open byte.
    have hbyte := congrArg (·[i]?) (h (zero n) ⟨List.replicate n 1, List.length_replicate⟩)
    simp only [List.getElem?_take, hi, if_true,
      getElem?_assignAll_of_not_covers members hno] at hbyte
    simp [zero, show i < n by omega] at hbyte
  · intro h b b'
    apply List.ext_getElem?
    intro i
    rw [List.getElem?_take, List.getElem?_take]
    by_cases hi : i < k
    · rw [if_pos hi, if_pos hi]
      exact getElem?_assignAll_congr members (Or.inr (h i hi))
    · rw [if_neg hi, if_neg hi]

end CBuf
