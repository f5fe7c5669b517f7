import Mtdpartikr.Client.Equiv.ConfigFile

/-!
# The flags of a part, from the string to the kernel

`parseRecipeFlags` keeps the flags in a map with the keys `ro` and `powerup_lock`, and reads the
second result under `lockup_enabled`.

* `addRow_issued`: a row that parses issues one `RECIPE_ADD_PART`.
* `parseRecipeFlags_iff`: strings are accepted and `ro` is honoured as they should be; the lock is
  lost, so the result is right exactly for the strings that are refused or do not ask for it.
-/

namespace Mtdpartikr.Client

variable {ε : Type}

/-- A row that parses issues one `RECIPE_ADD_PART`, with the request of the row. -/
theorem addRow_issued {parseUint : GoString → Except ε UInt64} (env : ℕ → ClientEnv)
    {row : Partition} (session : Session) {offset length : UInt64}
    (h : WellFormed parseUint row offset length)
    (hcopy : (env session.issued.length).copyFromUser = true) :
    ∃ outcome, ((addRow parseUint env row).outcome session).2.issued =
      session.issued ++ [(.recipeAddPart (some (rowRequest row offset length)), outcome)] := by
  have hcmd : rowCmd row offset length (env session.issued.length) =
      .recipeAddPart (some (rowRequest row offset length)) := by
    unfold rowCmd
    rw [hcopy]
    rfl
  rw [addRow_wellFormed env h]
  cases hioctl : mtdpartctlChrdevIoctl (env session.issued.length).toEnv session.dev
      (rowCmd row offset length (env session.issued.length)) with
  | ok result =>
    rw [outcome_check (outcome_ioctl_ok env hioctl), ← hcmd]
    exact ⟨_, rfl⟩
  | error o =>
    rw [outcome_bind_error (outcome_ioctl_error env hioctl), ← hcmd]
    exact ⟨_, rfl⟩

/-- What the flags of a part are to mean. -/
structure FlagsHonoured (ε : Type) (input : GoString) : Prop where
  accepted : (∃ r, (parseRecipeFlags input : Except (ClientError ε) (Bool × Bool)) = .ok r) ↔
    ValidFlags input
  writable : ∀ writable lock,
    (parseRecipeFlags input : Except (ClientError ε) (Bool × Bool)) = .ok (writable, lock) →
      (writable = true ↔ ascii "ro" ∉ rowFlags input)
  lock : ∀ writable lock,
    (parseRecipeFlags input : Except (ClientError ε) (Bool × Bool)) = .ok (writable, lock) →
      (lock = true ↔ ascii "powerup_lock" ∈ rowFlags input)
  /-- Neither order nor repetition of the flags matters. -/
  unordered : (∀ flag ∈ rowFlags input, KnownFlag flag) →
    ∀ input', (∀ flag, flag ∈ rowFlags input' ↔ flag ∈ rowFlags input) →
      (parseRecipeFlags input' : Except (ClientError ε) (Bool × Bool)) = parseRecipeFlags input
  /-- A part that is added has the lock set iff its flags ask for it. -/
  reaches : ∀ (parseUint : GoString → Except ε UInt64) (env : ℕ → ClientEnv) (row : Partition)
    (session : Session) (offset length : UInt64), row.flags = input →
      WellFormed parseUint row offset length →
      (env session.issued.length).copyFromUser = true →
        ∃ request outcome, ((addRow parseUint env row).outcome session).2.issued =
            session.issued ++ [(.recipeAddPart (some request), outcome)] ∧
          ((newRecipePart request).powerupLockEnabled = true ↔
            ascii "powerup_lock" ∈ rowFlags input)

/-- **When the flags are honoured**: when they are refused, or do not ask for the lock. -/
theorem parseRecipeFlags_iff (ε : Type) (input : GoString) :
    FlagsHonoured ε input ↔ ¬ ValidFlags input ∨ ascii "powerup_lock" ∉ rowFlags input := by
  rcases parseRecipeFlags_cases (ε := ε) input with ⟨hvalid, heq⟩ | ⟨hinvalid, flag, heq⟩
  · rw [or_iff_right (not_not_intro hvalid)]
    constructor
    · intro h hlock
      exact Bool.false_ne_true ((h.lock _ _ heq).mpr hlock)
    · intro hlock
      refine ⟨iff_of_true ⟨_, heq⟩ hvalid, ?_, ?_, ?_, ?_⟩
      · intro writable lock h
        obtain ⟨rfl, -⟩ := Prod.mk.inj (Except.ok.inj (heq.symm.trans h))
        rw [Bool.not_eq_true', decide_eq_false_iff_not]
      · intro writable lock h
        obtain ⟨-, rfl⟩ := Prod.mk.inj (Except.ok.inj (heq.symm.trans h))
        exact iff_of_false Bool.false_ne_true hlock
      · intro hknown input' hsame
        have hvalid' : ValidFlags input' := Or.inr fun f hf => hknown f ((hsame f).mp hf)
        rcases parseRecipeFlags_cases (ε := ε) input' with ⟨-, heq'⟩ | ⟨hno, -⟩
        · rw [heq, heq']
          simp only [hsame]
        · exact absurd hvalid' hno
      · rintro parseUint env row session offset length rfl hrow hcopy
        obtain ⟨outcome, hissued⟩ := addRow_issued env session hrow hcopy
        exact ⟨_, outcome, hissued, iff_of_false Bool.false_ne_true hlock⟩
  · refine iff_of_true ⟨?_, ?_, ?_, ?_, ?_⟩ (Or.inl hinvalid)
    · refine iff_of_false ?_ hinvalid
      rintro ⟨r, h⟩
      rw [heq] at h
      cases h
    · intro writable lock h
      rw [heq] at h
      cases h
    · intro writable lock h
      rw [heq] at h
      cases h
    · exact fun hknown => absurd (Or.inr hknown) hinvalid
    · rintro parseUint env row session offset length rfl hrow
      exact absurd hrow.flags hinvalid

/-- A part that only asks for the lock is added without it. -/
theorem parseRecipeFlags_powerupLock :
    (parseRecipeFlags (ascii "powerup_lock") : Except (ClientError Unit) (Bool × Bool)) =
        .ok (true, false) ∧
      ¬ FlagsHonoured Unit (ascii "powerup_lock") := by
  have hparse : (parseRecipeFlags (ascii "powerup_lock") :
      Except (ClientError Unit) (Bool × Bool)) = .ok (true, false) := rfl
  refine ⟨hparse, fun h => ?_⟩
  have hlock := (h.lock _ _ hparse).mpr (by decide)
  exact absurd hlock Bool.false_ne_true

end Mtdpartikr.Client
