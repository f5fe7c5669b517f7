import Mtdpartikr.Client.ConfigFile

/-!
# What a row asks for

* `parseRecipeFlags_eq`: the flags of a row are valid iff the field is blank or each of its comma
  separated pieces is one of the two known flags, and then the part is writable iff `ro` is not
  among the pieces.
* `strBytes_goRecipeAddPartRequest`: the name in a request is the row's name up to its first NUL,
  cut to 128 bytes.
-/

namespace Mtdpartikr.Client

variable {ε : Type}

/-! ### Trimming -/

/-- A byte that is in no dropped rune stays. -/
theorem mem_dropRunes {isRune : List UInt8 → Bool} {b : UInt8}
    (hb : ∀ rune, isRune rune = true → b ∉ rune) (l : List UInt8) (hl : b ∈ l) :
    b ∈ dropRunes isRune l := by
  fun_induction dropRunes isRune l with
  | case1 => cases hl
  | case2 a h => exact absurd hl (hb _ h)
  | case3 => exact hl
  | case4 a a' h ih =>
    have ha : b ≠ a := by simpa using hb _ h
    exact ih ((List.mem_cons.mp hl).resolve_left ha)
  | case5 a a' _ h => exact absurd hl (hb _ h)
  | case6 => exact hl
  | case7 a a' a'' rest h ih =>
    have ha : b ≠ a := by simpa using hb _ h
    exact ih ((List.mem_cons.mp hl).resolve_left ha)
  | case8 a a' a'' rest _ h ih =>
    have ha : b ∉ [a, a'] := hb _ h
    simp only [List.mem_cons, List.not_mem_nil, or_false, not_or] at ha hl
    exact ih (by simpa [ha.1, ha.2] using hl)
  | case9 a a' a'' rest _ _ h ih =>
    have ha : b ∉ [a, a', a''] := hb _ h
    simp only [List.mem_cons, List.not_mem_nil, or_false, not_or] at ha hl
    exact ih (by simpa [ha.1, ha.2.1, ha.2.2] using hl)
  | case10 => exact hl

/-- No white space contains a comma. -/
theorem comma_notMem_of_isSpaceRune {rune : List UInt8} (h : isSpaceRune rune = true) :
    (0x2c : UInt8) ∉ rune := by
  intro hmem
  match rune with
  | [] => cases h
  | [a] =>
    obtain rfl := List.mem_singleton.mp hmem
    exact absurd h (by decide)
  | [a, b] =>
    simp only [isSpaceRune, Bool.and_eq_true, Bool.or_eq_true, decide_eq_true_eq] at h
    rcases h with ⟨rfl, rfl | rfl⟩ <;> exact absurd hmem (by decide)
  | [a, b, c] =>
    simp only [List.mem_cons, List.not_mem_nil, or_false] at hmem
    rcases hmem with rfl | rfl | rfl <;> simp [isSpaceRune] at h
  | _ :: _ :: _ :: _ :: _ => cases h

/-- Trimming leaves commas. -/
theorem comma_mem_trimSpace {s : GoString} (h : (0x2c : UInt8) ∈ s) :
    (0x2c : UInt8) ∈ trimSpace s := by
  have hleft : (0x2c : UInt8) ∈ dropRunes isSpaceRune s :=
    mem_dropRunes (fun _ => comma_notMem_of_isSpaceRune) s h
  unfold trimSpace
  rw [List.mem_reverse]
  refine mem_dropRunes (fun rune hrune hmem => ?_) _ (List.mem_reverse.mpr hleft)
  exact comma_notMem_of_isSpaceRune hrune (List.mem_reverse.mpr hmem)

/-- A blank string has no comma to be split at. -/
theorem splitComma_of_blank {s : GoString} (h : trimSpace s = []) : splitComma s = [s] := by
  refine List.splitOnP_eq_singleton fun b hb => ?_
  rw [beq_eq_false_iff_ne]
  rintro rfl
  have hmem := comma_mem_trimSpace hb
  rw [h] at hmem
  cases hmem

/-! ### The flags of a row -/

/-- The flags named in a row, between the commas. -/
def rowFlags (flags : GoString) : List GoString := (splitComma flags).map trimSpace

/-- One of the two flags `parseRecipeFlags` has a key for. -/
def KnownFlag (flag : GoString) : Prop := flag = ascii "ro" ∨ flag = ascii "powerup_lock"

instance (flag : GoString) : Decidable (KnownFlag flag) :=
  inferInstanceAs (Decidable (flag = ascii "ro" ∨ flag = ascii "powerup_lock"))

/-- A blank field, or known flags only. -/
def ValidFlags (flags : GoString) : Prop :=
  trimSpace flags = [] ∨ ∀ flag ∈ rowFlags flags, KnownFlag flag

instance (flags : GoString) : Decidable (ValidFlags flags) :=
  inferInstanceAs (Decidable (trimSpace flags = [] ∨ ∀ flag ∈ rowFlags flags, KnownFlag flag))

/-- A map whose keys are the known flags. -/
def FlagMap.Keyed (flags : FlagMap) : Prop :=
  ∀ flag, flags.lookup flag ≠ none ↔ KnownFlag flag

/-- Setting a known flag keeps the keys. -/
theorem FlagMap.Keyed.cons {flags : FlagMap} (h : flags.Keyed) {flag : GoString}
    (hflag : KnownFlag flag) : Keyed ((flag, true) :: flags) := by
  intro f
  rw [List.lookup_cons]
  by_cases hf : f = flag
  · subst hf
    simp [hflag]
  · rw [beq_false_of_ne hf]
    exact h f

/-- Reading a map after a flag was set. -/
theorem FlagMap.get_cons (flags : FlagMap) (flag f : GoString) :
    get ((flag, true) :: flags) f = true ↔ f = flag ∨ get flags f = true := by
  unfold FlagMap.get
  rw [List.lookup_cons]
  by_cases hf : f = flag
  · simp [hf]
  · simp [hf, beq_false_of_ne hf]

/-- The loop refuses the first unknown flag; otherwise it sets what it meets. -/
theorem parseRecipeFlags.loop_cases (pieces : List GoString) :
    ∀ {flags : FlagMap}, flags.Keyed →
      ((∀ flag ∈ pieces.map trimSpace, KnownFlag flag) ∧
        ∃ flags' : FlagMap,
          (parseRecipeFlags.loop pieces flags : Except (ClientError ε) FlagMap) = .ok flags' ∧
          flags'.Keyed ∧
          (flags'.get (ascii "ro") = true ↔
            flags.get (ascii "ro") = true ∨ ascii "ro" ∈ pieces.map trimSpace)) ∨
      (¬ (∀ flag ∈ pieces.map trimSpace, KnownFlag flag) ∧
        ∃ flag, (parseRecipeFlags.loop pieces flags : Except (ClientError ε) FlagMap) =
          .error (.invalidFlag flag)) := by
  induction pieces with
  | nil => intro flags hkeyed; exact Or.inl ⟨by simp, flags, rfl, hkeyed, by simp⟩
  | cons piece rest ih =>
    intro flags hkeyed
    rw [List.map_cons, List.forall_mem_cons]
    -- A known piece is set and the loop goes on; an unknown one ends it.
    by_cases hpiece : KnownFlag (trimSpace piece)
    · obtain ⟨v, hv⟩ := Option.ne_none_iff_exists'.mp ((hkeyed _).mpr hpiece)
      have hloop : (parseRecipeFlags.loop (piece :: rest) flags : Except (ClientError ε) _) =
          parseRecipeFlags.loop rest ((trimSpace piece, true) :: flags) := by
        simp only [parseRecipeFlags.loop, hv]
      rw [hloop]
      rcases ih (hkeyed.cons hpiece) with ⟨hall, flags', heq, hkeyed', hro⟩ | ⟨hno, herr⟩
      · refine Or.inl ⟨⟨hpiece, hall⟩, flags', heq, hkeyed', ?_⟩
        rw [hro, FlagMap.get_cons, List.mem_cons, or_left_comm, or_assoc]
      · exact Or.inr ⟨fun h => hno h.2, herr⟩
    · have hnone : flags.lookup (trimSpace piece) = none :=
        not_not.mp fun h => hpiece ((hkeyed _).mp h)
      refine Or.inr ⟨fun h => hpiece h.1, trimSpace piece, ?_⟩
      simp only [parseRecipeFlags.loop, hnone]
      rfl

/-- **What `parseRecipeFlags` returns.**  `lockup_enabled` is never set, whatever the flags. -/
theorem parseRecipeFlags_cases (input : GoString) :
    (ValidFlags input ∧ (parseRecipeFlags input : Except (ClientError ε) (Bool × Bool)) =
      .ok (!decide (ascii "ro" ∈ rowFlags input), false)) ∨
    (¬ ValidFlags input ∧ ∃ flag, (parseRecipeFlags input : Except (ClientError ε) (Bool × Bool)) =
      .error (.invalidFlag flag)) := by
  have hkeyed : FlagMap.Keyed [(ascii "ro", false), (ascii "powerup_lock", false)] := by
    intro flag
    simp only [List.lookup_cons, List.lookup_nil, KnownFlag]
    by_cases hro : flag = ascii "ro"
    · simp [hro]
    · rw [beq_false_of_ne hro]
      by_cases hlock : flag = ascii "powerup_lock"
      · simp [hlock]
      · simp [beq_false_of_ne hlock, hro, hlock]
  unfold parseRecipeFlags
  by_cases hblank : trimSpace input = []
  · -- The only piece of a blank field is blank itself.
    have hro : ascii "ro" ∉ rowFlags input := by
      rw [rowFlags, splitComma_of_blank hblank, List.map_singleton, hblank]
      decide
    refine Or.inl ⟨Or.inl hblank, ?_⟩
    simp only [hblank, if_true, decide_eq_false hro]
    rfl
  · simp only [ValidFlags, hblank, false_or]
    rcases parseRecipeFlags.loop_cases (splitComma input) hkeyed with
      ⟨hall, flags', heq, hkeyed', hro⟩ | ⟨hno, flag, heq⟩
    · refine Or.inl ⟨hall, ?_⟩
      have hlockup : flags'.get (ascii "lockup_enabled") = false := by
        have hnone : flags'.lookup (ascii "lockup_enabled") = none :=
          not_not.mp fun h => absurd ((hkeyed' _).mp h) (by decide)
        rw [FlagMap.get, hnone]
        rfl
      have hget : flags'.get (ascii "ro") = decide (ascii "ro" ∈ rowFlags input) := by
        rw [Bool.eq_iff_iff, hro, decide_eq_true_eq, rowFlags]
        exact or_iff_right (by decide)
      rw [heq]
      simp only [bind, Except.bind, hlockup, hget]
      rfl
    · exact Or.inr ⟨hno, flag, by rw [heq]; rfl⟩

/-! ### The request of a row -/

/-- The name array a wrapper fills: the string cut to 128 bytes, then zeros. -/
def cutName (name : GoString) : NameBuf :=
  ⟨(strBytes name).take MTD_PARTITION_NAME_MAX_LENGTH ++ List.replicate
    (MTD_PARTITION_NAME_MAX_LENGTH - ((strBytes name).take MTD_PARTITION_NAME_MAX_LENGTH).length)
      0, by
    rw [List.length_append, List.length_replicate, List.length_take]
    omega⟩

/-- The wrapper copies what fits of the string into its zeroed array. -/
theorem goRecipeAddPartRequest_name (offset length : UInt64) (name : GoString)
    (writable powerupLockEnabled : Bool) :
    (goRecipeAddPartRequest offset length name writable powerupLockEnabled).base.name =
      cutName name := by
  have hcs : strBytes (name ++ [0]) = strBytes name := strBytes_append_nul name
  unfold goRecipeAddPartRequest cutName
  simp only
  split_ifs with hle
  · -- The whole string is copied and zeros follow it.
    rw [hcs] at hle
    have htake : (name ++ [0]).take (strBytes name).length = strBytes name := by
      rw [← hcs, take_length_strBytes, hcs]
    have hfits : (strBytes name).take MTD_PARTITION_NAME_MAX_LENGTH = strBytes name :=
      List.take_of_length_le hle
    simp only [CBuf.memcpy, CBuf.zero, hcs, htake, List.drop_replicate, hfits]
  · -- A longer one fills the array.
    rw [hcs] at hle
    have hcut : (name ++ [0]).take MTD_PARTITION_NAME_MAX_LENGTH =
        (strBytes name).take MTD_PARTITION_NAME_MAX_LENGTH := by
      rw [← hcs, ← take_length_strBytes (name ++ [0]), List.take_take, hcs,
        Nat.min_eq_left (Nat.le_of_lt (Nat.lt_of_not_le hle))]
    have hfull : ((strBytes name).take MTD_PARTITION_NAME_MAX_LENGTH).length =
        MTD_PARTITION_NAME_MAX_LENGTH := by
      rw [List.length_take]
      omega
    simp only [CBuf.memcpy, CBuf.zero, List.drop_replicate, hcut, hfull]

/-- The name in a request is the row's name up to its first NUL, cut to the size of the array. -/
theorem strBytes_goRecipeAddPartRequest (offset length : UInt64) (name : GoString)
    (writable powerupLockEnabled : Bool) :
    strBytes (goRecipeAddPartRequest offset length name writable
        powerupLockEnabled).base.name.bytes =
      (strBytes name).take MTD_PARTITION_NAME_MAX_LENGTH := by
  rw [goRecipeAddPartRequest_name]
  exact strBytes_append_replicate (fun h => notMem_strBytes name (List.mem_of_mem_take h)) _

end Mtdpartikr.Client
