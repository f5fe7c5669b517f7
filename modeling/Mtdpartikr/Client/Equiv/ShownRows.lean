import Mtdpartikr.Client.Equiv.RecipeStatus
import Mtdpartikr.Client.Equiv.TypedConfig

/-!
# What `status` shows of what the user typed

A row goes a long way: its numbers are parsed, its name is copied to a C string and into the
request, cut there and once more in the kernel, stored, listed, copied back and printed.  What
comes out (`partLine_of_partOf`) is its numbers in decimal, the first 127 bytes of its name, and
whether `ro` is among its flags.  The flag `powerup_lock` is lost on the way: it is shown as "no".

`typed_shown`: after any rows were typed, the recipe is those whose command returned no error, in
the order in which they were typed, and `status` shows these, up to the 255th.
-/

namespace Mtdpartikr.Client

variable {ε : Type} {parseUint : GoString → Except ε UInt64}

/-! ### One row -/

/-- The part of the recipe that the request of a row makes. -/
def PartOf (parseUint : GoString → Except ε UInt64) (row : Partition) (part : MtdRecipePart) :
    Prop :=
  ∃ offset length, WellFormed parseUint row offset length ∧
    part = newRecipePart (rowRequest row offset length)

/-- How a row is shown.  No client gets a part with the power-up lock, whatever flags the row
has. -/
def rowLine (idx : ℕ) (row : Partition) (offset length : UInt64) : GoString :=
  ascii "Partition " ++ ascii (toString idx) ++ ascii ": " ++ (strBytes row.name).take 127 ++
    ascii ", offset " ++ ascii (toString offset.toNat) ++
    ascii ", length " ++ ascii (toString length.toNat) ++
    ascii ", readonly: " ++ yesNo ((rowFlags row.flags).contains (ascii "ro")) ++
    ascii ", powerup_lock_enabled: " ++ ascii "no"

/-- The line shows the row and its place in a list. -/
def RowShown (parseUint : GoString → Except ε UInt64) (row : Partition × ℕ) (line : GoString) :
    Prop :=
  ∃ offset length, WellFormed parseUint row.1 offset length ∧
    line = rowLine row.2 row.1 offset length

/-- The line `status` prints for the part of a row. -/
theorem partLine_of_partOf {row : Partition} {part : MtdRecipePart}
    (h : PartOf parseUint row part) (idx : ℕ) :
    RowShown parseUint (row, idx) (partLine idx (listedRecipePart part)) := by
  obtain ⟨offset, length, hrow, rfl⟩ := h
  refine ⟨offset, length, hrow, ?_⟩
  have hname : strBytes (newRecipePart (rowRequest row offset length)).name.bytes =
      (strBytes row.name).take 127 := by
    have hcString := (rowPart_newRecipePart hrow).name
    unfold CBuf.cString at hcString
    split_ifs at hcString
    exact Option.some.inj hcString
  have hreadonly : (listedRecipePart (newRecipePart (rowRequest row offset length))).readonly =
      (rowFlags row.flags).contains (ascii "ro") := by
    show (!!!!decide (ascii "ro" ∈ rowFlags row.flags)) = _
    simp only [Bool.not_not, List.contains_eq_mem]
  -- The numbers are copied as they are, and no client asks for the power-up lock.
  have hoffset : (listedRecipePart (newRecipePart
    (rowRequest row offset length))).base.offset = offset := rfl
  have hlength : (listedRecipePart (newRecipePart
    (rowRequest row offset length))).base.length = length := rfl
  have hlock : yesNo (listedRecipePart (newRecipePart
    (rowRequest row offset length))).powerupLockEnabled = ascii "no" := rfl
  unfold partLine
  rw [hreadonly, hoffset, hlength, hlock]
  show _ ++ strBytes (newRecipePart (rowRequest row offset length)).name.bytes ++ _ ++ _ ++ _ ++
    _ ++ _ ++ _ ++ _ ++ _ = _
  rw [hname]
  rfl

/-- The ioctl of a row on any recipe. -/
theorem rowIoctl_cases {dev : MtdpartctlDevice}
    (hinv : RecipeInv dev.backingMtd dev.recipe.partitions) (row : Partition)
    (offset length : UInt64) (env : ClientEnv) :
    (mtdpartctlChrdevIoctl env.toEnv dev (rowCmd row offset length env) =
        .ok ⟨0, dev.appendPart (rowRequest row offset length), [], .none⟩ ∧
      Acceptable dev.backingMtd dev.recipe.partitions (rowRequest row offset length).base) ∨
    (∃ e, mtdpartctlChrdevIoctl env.toEnv dev (rowCmd row offset length env) =
      .ok ⟨neg e, dev, [], .none⟩) ∨
    ∃ o, mtdpartctlChrdevIoctl env.toEnv dev (rowCmd row offset length env) = .error o := by
  unfold rowCmd
  cases hcopy : env.copyFromUser with
  -- The request is copied in before anything else.
  | false => exact Or.inr (Or.inl ⟨.EFAULT, rfl⟩)
  | true =>
    simp only [if_true, mtdpartctlChrdevIoctl]
    rcases addRecipePart_cases hinv (rowRequest row offset length) env.kvzalloc with
      ⟨hacc, _, heq⟩ | ⟨_, _, heq⟩ | ⟨_, heq⟩ | ⟨_, _, heq⟩
    · exact Or.inl ⟨by rw [heq]; rfl, hacc⟩
    · exact Or.inr (Or.inl ⟨.ENOMEM, by rw [heq]; rfl⟩)
    · exact Or.inr (Or.inl ⟨.EINVAL, by rw [heq]; rfl⟩)
    · exact Or.inr (Or.inr ⟨.divideError, by rw [heq]; rfl⟩)

/-- **One row typed.**  It becomes a part at the end of the recipe, or the device stays as it is,
or the client is killed. -/
theorem addRow_outcome (env : ℕ → ClientEnv) {session : Session}
    (hinv : RecipeInv session.dev.backingMtd session.dev.recipe.partitions) (row : Partition) :
    (∃ part session', (addRow parseUint env row).outcome session = (.ok (), session') ∧
      PartOf parseUint row part ∧
      RecipeInv session'.dev.backingMtd session'.dev.recipe.partitions ∧
      session'.dev.recipe.partitions = session.dev.recipe.partitions ++ [part]) ∨
    (∃ err session', (addRow parseUint env row).outcome session =
      (.error (.returned err), session') ∧ session'.dev = session.dev) ∨
    ∃ o session', (addRow parseUint env row).outcome session = (.error (.killed o), session') := by
  rcases malformed_or_wellFormed parseUint row with hbad | ⟨offset, length, hrow⟩
  · obtain ⟨err, heq⟩ := addRow_malformed env hbad
    exact Or.inr (Or.inl ⟨err, session, heq, rfl⟩)
  · rw [addRow_wellFormed env hrow]
    rcases rowIoctl_cases hinv row offset length (env session.issued.length) with
      ⟨heq, hacc⟩ | ⟨e, heq⟩ | ⟨o, heq⟩
    · have hout := outcome_check (outcome_ioctl_ok (ε := ε) env heq)
      rw [if_neg (lt_irrefl _)] at hout
      exact Or.inl ⟨_, _, hout, ⟨offset, length, hrow, rfl⟩, hinv.append hacc, rfl⟩
    · have hout := outcome_check (outcome_ioctl_ok (ε := ε) env heq)
      rw [if_pos (neg_lt_zero e)] at hout
      exact Or.inr (Or.inl ⟨_, _, hout, rfl⟩)
    · exact Or.inr (Or.inr ⟨o, _, outcome_bind_error (outcome_ioctl_error env heq) _⟩)

/-! ### All rows -/

/-- The rows whose command returns no error, when `add_recipe_part` is typed for one after another
and the kernel decides as in the ioctls from the `n`-th on. -/
def acceptedRows (parseUint : (base bitSize : ℕ) → GoString → Except ε UInt64)
    (env : ℕ → ReplEnv) : (n : ℕ) → List Partition → Repl → List Partition
  | _, [], _ => []
  | n, row :: rest, repl =>
    match cmdAddRecipePart (env n) parseUint [row.offset, row.length, row.name, row.flags] repl with
    | (.ok _, repl) => row :: acceptedRows parseUint env (n + 1) rest repl
    | (.error _, repl) => acceptedRows parseUint env (n + 1) rest repl

/-- The recipe is the accepted rows, and the REPL has counted them. -/
structure AcceptedSoFar (parseUint : GoString → Except ε UInt64) (accepted : List Partition)
    (repl : Repl) : Prop where
  inv : RecipeInv repl.session.dev.backingMtd repl.session.dev.recipe.partitions
  parts : List.Forall₂ (PartOf parseUint) accepted repl.session.dev.recipe.partitions
  count : repl.recipePartsCount = UInt64.ofNat accepted.length

/-- On a device that has just been opened nothing has been accepted. -/
theorem acceptedSoFar_new {dev opened : MtdpartctlDevice}
    (h : mtdpartctlChrdevOpen dev = (0, opened)) :
    AcceptedSoFar parseUint [] (.new opened) := by
  have hstart : Added parseUint opened [] (Session.start opened) := added_start h
  refine ⟨hstart.inv, ?_, rfl⟩
  have hnil : opened.recipe.partitions = [] := List.forall₂_nil_left_iff.mp hstart.parts
  show List.Forall₂ _ [] opened.recipe.partitions
  rw [hnil]
  exact .nil

section Accepted

variable {done : List Partition} {repl : Repl} {session : Session}

/-- An accepted row: its part is the last one, and the REPL counts it. -/
theorem AcceptedSoFar.accepted (h : AcceptedSoFar parseUint done repl) {row : Partition}
    {part : MtdRecipePart} (hpart : PartOf parseUint row part)
    (hinv : RecipeInv session.dev.backingMtd session.dev.recipe.partitions)
    (hparts : session.dev.recipe.partitions = repl.session.dev.recipe.partitions ++ [part]) :
    AcceptedSoFar parseUint (done ++ [row]) ⟨session, repl.recipePartsCount + 1⟩ := by
  refine ⟨hinv, ?_, ?_⟩
  · show List.Forall₂ _ _ session.dev.recipe.partitions
    rw [hparts]
    exact List.rel_append h.parts (.cons hpart .nil)
  · show repl.recipePartsCount + 1 = _
    rw [h.count, List.length_append, UInt64.ofNat_add]
    rfl

/-- A refused row: neither the recipe nor the count changes. -/
theorem AcceptedSoFar.refused (h : AcceptedSoFar parseUint done repl)
    (hdev : session.dev = repl.session.dev) :
    AcceptedSoFar parseUint done { repl with session := session } := by
  refine ⟨?_, ?_, h.count⟩
  · show RecipeInv session.dev.backingMtd session.dev.recipe.partitions
    rw [hdev]
    exact h.inv
  · show List.Forall₂ _ _ session.dev.recipe.partitions
    rw [hdev]
    exact h.parts

end Accepted

/-- **All rows typed.** -/
theorem runLoop_typed {host : Host ε} {env : ℕ → ReplEnv} {lines : List GoString}
    {rows : List Partition} (hlines : List.Forall₂ (TypesRow host) lines rows) :
    ∀ {n : ℕ} {done : List Partition} {repl repl' : Repl},
      AcceptedSoFar (host.parseUint 0 64) done repl →
      Repl.runLoop host (typed env n lines) repl = (.reading, repl') →
      AcceptedSoFar (host.parseUint 0 64)
        (done ++ acceptedRows host.parseUint env n rows repl) repl' := by
  induction hlines with
  | nil =>
    intro n done repl repl' h hrun
    obtain ⟨-, rfl⟩ := Prod.mk.inj hrun
    rw [acceptedRows, List.append_nil]
    exact h
  | @cons line row lines rows hline _ ih =>
    intro n done repl repl' h hrun
    rw [typed_cons, runLoop_row (env n) repl hline] at hrun
    -- The command of the line is the step of the loop over the rows.
    have hcmd : cmdAddRecipePart (env n) host.parseUint
        [row.offset, row.length, row.name, row.flags] repl =
      Repl.call (do addRow (host.parseUint 0 64) (fun _ => (env n).toClientEnv) row; return [])
        (· + 1) repl := rfl
    rcases addRow_outcome (fun _ => (env n).toClientEnv) h.inv row with
      ⟨part, session, hout, hpart, hinv, hparts⟩ | ⟨err, session, hout, hdev⟩ |
      ⟨o, session, hout⟩
    · rw [hout] at hrun
      rw [call_ok (outcome_bind_ok hout _)] at hcmd
      have hall := ih (h.accepted hpart hinv hparts) hrun
      rw [List.append_assoc] at hall
      simp only [acceptedRows, hcmd]
      exact hall
    · rw [hout] at hrun
      rw [call_error (outcome_bind_error hout _)] at hcmd
      simp only [acceptedRows, hcmd]
      exact ih (h.refused hdev) hrun
    · rw [hout] at hrun
      cases (Prod.mk.inj hrun).1

/-! ### What is shown -/

/-- Related lists are related place by place. -/
theorem forall₂_zipIdx {α β : Type} {R : α → β → Prop} {l : List α} {l' : List β}
    (h : List.Forall₂ R l l') : ∀ n : ℕ,
      List.Forall₂ (fun x y => R x.1 y.1 ∧ x.2 = y.2) (l.zipIdx n) (l'.zipIdx n) := by
  induction h with
  | nil => exact fun n => .nil
  | cons hab _ ih => exact fun n => .cons ⟨hab, rfl⟩ (ih (n + 1))

/-- `status` shows the accepted rows. -/
theorem AcceptedSoFar.shown {accepted : List Partition} {repl repl' : Repl} {env : ReplEnv}
    {shown : List GoString} (h : AcceptedSoFar parseUint accepted repl)
    (hstatus : (cmdRecipeStatus env [] repl : Except (ReplError ε) (List GoString) × Repl) =
      (.ok shown, repl')) :
    (accepted = [] → shown = [ascii "Empty table"]) ∧
    (accepted ≠ [] → List.Forall₂ (RowShown parseUint) (accepted.take 255).zipIdx shown) := by
  have hlines := cmdRecipeStatus_ok hstatus
  have hbound := h.inv.length_lt_two_pow
  rw [← h.parts.length_eq] at hbound
  -- The count has not wrapped, for there are fewer parts than bytes.
  have hzero : repl.recipePartsCount = 0 ↔ accepted = [] := by
    rw [h.count, ← UInt64.toNat_inj, UInt64.toNat_ofNat', Nat.mod_eq_of_lt hbound]
    exact List.length_eq_zero_iff
  constructor
  · intro hnil
    rw [hlines, if_pos (hzero.mpr hnil)]
  · intro hne
    rw [hlines, if_neg fun h0 => hne (hzero.mp h0), List.forall₂_map_right_iff]
    refine (forall₂_zipIdx (List.forall₂_take 255 h.parts) 0).imp ?_
    rintro ⟨row, idx⟩ ⟨part, _⟩ ⟨hpart, rfl⟩
    exact partLine_of_partOf hpart idx

/-- **What `status` shows of what the user typed.**  On a device that has just been opened, the
rows whose command returned no error are the recipe, in order, and each of them is shown. -/
theorem typed_shown {dev opened : MtdpartctlDevice} (hopen : mtdpartctlChrdevOpen dev = (0, opened))
    {host : Host ε} {env : ℕ → ReplEnv} {lines : List GoString} {rows : List Partition}
    (hlines : List.Forall₂ (TypesRow host) lines rows) {repl : Repl}
    (hrun : Repl.runLoop host (typed env 0 lines) (.new opened) = (.reading, repl))
    {accepted : List Partition}
    (haccepted : acceptedRows host.parseUint env 0 rows (.new opened) = accepted) :
    List.Forall₂ (PartOf (host.parseUint 0 64)) accepted repl.session.dev.recipe.partitions ∧
      ∀ (env' : ReplEnv) shown repl',
        (cmdRecipeStatus env' [] repl : Except (ReplError ε) (List GoString) × Repl) =
          (.ok shown, repl') →
        (accepted = [] → shown = [ascii "Empty table"]) ∧
        (accepted ≠ [] →
          List.Forall₂ (RowShown (host.parseUint 0 64)) (accepted.take 255).zipIdx shown) := by
  have h := runLoop_typed hlines (acceptedSoFar_new hopen) hrun
  rw [List.nil_append, haccepted] at h
  exact ⟨h.parts, fun _ _ _ hstatus => h.shown hstatus⟩

/-- Three rows: the second one overlaps the first, and the third one asks for the power-up lock. -/
def threeRows : List Partition :=
  [oneRow, ⟨ascii "again", ascii "0", ascii "0x1000", ascii "ro"⟩,
    ⟨ascii "rootfs", ascii "0x1000", ascii "0x1000", ascii "powerup_lock"⟩]

def threeLines : List GoString :=
  [oneRowLine, ascii "add_recipe_part 0 0x1000 again ro",
    ascii "add_recipe_part 0x1000 0x1000 rootfs powerup_lock"]

theorem typed_shown_threeRows : ∃ repl shown repl',
    Repl.runLoop typingHost (typed (fun _ => .keeping) 0 threeLines) (.new twoBlocks) =
      (.reading, repl) ∧
    acceptedRows typingHost.parseUint (fun _ => .keeping) 0 threeRows (.new twoBlocks) =
      threeRows.eraseIdx 1 ∧
    (cmdRecipeStatus .keeping [] repl : Except (ReplError Unit) (List GoString) × Repl) =
      (.ok shown, repl') ∧
    List.Forall₂ (RowShown parseTwo) (threeRows.eraseIdx 1).zipIdx shown := by
  have hopen : mtdpartctlChrdevOpen (.create ⟨0, 0x2000, 0x1000⟩ 1) = (0, twoBlocks) := rfl
  have hlines : List.Forall₂ (TypesRow typingHost) threeLines threeRows :=
    .cons ⟨by decide, rfl⟩ (.cons ⟨by decide, rfl⟩ (.cons ⟨by decide, rfl⟩ .nil))
  have hrun : Repl.runLoop typingHost (typed (fun _ => .keeping) 0 threeLines)
    (.new twoBlocks) = (.reading, _) := rfl
  have haccepted : acceptedRows typingHost.parseUint (fun _ => .keeping) 0 threeRows
    (.new twoBlocks) = threeRows.eraseIdx 1 := rfl
  obtain ⟨-, hshown⟩ := typed_shown hopen hlines hrun haccepted
  exact ⟨_, _, _, hrun, haccepted, rfl, (hshown .keeping _ _ rfl).2 (List.cons_ne_nil _ _)⟩

end Mtdpartikr.Client
