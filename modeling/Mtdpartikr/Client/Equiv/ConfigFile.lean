import Mtdpartikr.Client.Equiv.RecipeFlags
import Mtdpartikr.Kernel.Equiv.DeviceRun

/-!
# Applying a configuration file is all or nothing

What a run of `useConfigFile` on a freshly opened device leaves behind.  The client does not roll
back, and need not: until `RECIPE_CREATE_PARTITIONS` nothing but the recipe changes, the dispatch
comes after the last row, and the recipe is the file's rows in order (`Added`, kept by
`addRecipePart_cases` and `useConfigFile.loop_cases`).

`configFileApplied_iff`: this holds unless the basic check of the first row divides by a zero
erase size, which kills the client.
-/

namespace Mtdpartikr.Client

variable {ε : Type} (parseUint : GoString → Except ε UInt64) (env : ℕ → ClientEnv)

/-! ### What is promised -/

/-- A row the client refuses by itself. -/
def Malformed (row : Partition) : Prop :=
  ¬ ValidFlags row.flags ∨ (∀ offset, parseUint row.offset ≠ .ok offset) ∨
    ∀ length, parseUint row.length ≠ .ok length

/-- The row of an entry handed to the MTD core. -/
structure RowEntry (row : Partition) (entry : MtdPartition) : Prop where
  offset : parseUint row.offset = .ok entry.offset
  length : parseUint row.length = .ok entry.size
  name : ∃ nm, entry.name = some nm ∧
    nm.cString = some ((strBytes row.name).take (MTD_PARTITION_NAME_MAX_LENGTH - 1))
  readonly : entry.maskFlags &&& MTD_WRITEABLE ≠ 0 ↔ ascii "ro" ∈ rowFlags row.flags

/-- A `RECIPE_ADD_PART` of the session was not accepted. -/
def RejectedAdd (session : Session) : Prop :=
  ∃ arg outcome, (.recipeAddPart arg, outcome) ∈ session.issued ∧ outcome ≠ .ok 0

/-- How often the session issued `RECIPE_CREATE_PARTITIONS`. -/
def Session.creates (session : Session) : ℕ :=
  (session.issued.map Prod.fst).count .recipeCreatePartitions

/-- The client returned an error. -/
def ReturnsError (outcome : Except (Failure ε) Unit) : Prop :=
  ∃ err, outcome = .error (.returned err)

/-- All or nothing: a bad row stops the run before the dispatch, an empty file is refused by the
dispatch, and any other file is dispatched once, with one entry for each row. -/
structure ConfigFileApplied (rows : List Partition) (opened : MtdpartctlDevice)
    (run : Except (Failure ε) Unit × Session) : Prop where
  refused : (∃ row ∈ rows, Malformed parseUint row) ∨ RejectedAdd run.2 →
    ReturnsError run.1 ∧ run.2.creates = 0 ∧ run.2.dev.proxy = opened.proxy
  empty : rows = [] → ReturnsError run.1 ∧ run.2.dev.proxy = opened.proxy
  dispatched : ¬ ((∃ row ∈ rows, Malformed parseUint row) ∨ RejectedAdd run.2) → rows ≠ [] →
    run.2.creates = 1 ∧
    ∀ partitions n, .mtdDeviceParseRegister partitions n ∈ run.2.calls →
      ∃ entries, partitions = some entries ∧ n.toNat = entries.length ∧
        List.Forall₂ (RowEntry parseUint) rows entries

/-! ### Running the client -/

section Outcome

variable {α β : Type} {x : ClientM ε α} {session session' : Session}

/-- A sequence runs its second half from where the first one ended. -/
theorem outcome_bind (x : ClientM ε α) (f : α → ClientM ε β) (session : Session) :
    (x >>= f).outcome session =
      (match x.outcome session with
      | (.ok a, session') => (f a).outcome session'
      | (.error e, session') => (.error e, session')) := by
  simp only [ClientM.outcome, ExceptT.run_bind, StateT.run_bind]
  cases StateT.run (ExceptT.run x) session with
  | mk r session' => cases r <;> rfl

theorem outcome_bind_ok {a : α} (h : x.outcome session = (.ok a, session'))
    (f : α → ClientM ε β) : (x >>= f).outcome session = (f a).outcome session' := by
  rw [outcome_bind, h]

theorem outcome_bind_error {e : Failure ε} (h : x.outcome session = (.error e, session'))
    (f : α → ClientM ε β) : (x >>= f).outcome session = (.error e, session') := by
  rw [outcome_bind, h]

/-- The session after an ioctl that returned. -/
def Session.returned (session : Session) (cmd : Ioctl) (result : IoctlResult) : Session :=
  ⟨result.dev, session.issued ++ [(cmd, .ok result.ret)], session.calls ++ result.calls⟩

/-- The session after an ioctl that did not return. -/
def Session.killed (session : Session) (cmd : Ioctl) (o : Oops) : Session :=
  { session with issued := session.issued ++ [(cmd, .error o)] }

theorem outcome_ioctl_ok {cmd : ClientEnv → Ioctl} {result : IoctlResult}
    (h : mtdpartctlChrdevIoctl (env session.issued.length).toEnv session.dev
      (cmd (env session.issued.length)) = .ok result) :
    (ioctl env cmd : ClientM ε Int).outcome session =
      (.ok result.ret, session.returned (cmd (env session.issued.length)) result) := by
  have hget : (get : ClientM ε Session).outcome session = (.ok session, session) := rfl
  unfold ioctl
  rw [outcome_bind_ok hget]
  simp only [h]
  rfl

theorem outcome_ioctl_error {cmd : ClientEnv → Ioctl} {o : Oops}
    (h : mtdpartctlChrdevIoctl (env session.issued.length).toEnv session.dev
      (cmd (env session.issued.length)) = .error o) :
    (ioctl env cmd : ClientM ε Int).outcome session =
      (.error (.killed o), session.killed (cmd (env session.issued.length)) o) := by
  have hget : (get : ClientM ε Session).outcome session = (.ok session, session) := rfl
  unfold ioctl
  rw [outcome_bind_ok hget]
  simp only [h]
  rfl

/-- A call that is checked for a negative return value. -/
theorem outcome_check {x : ClientM ε Int} {rc : Int} (h : x.outcome session = (.ok rc, session')) :
    (do
      let rc ← x
      if rc < 0 then throw (.returned (.ioctlResult rc)) : ClientM ε Unit).outcome session =
      (if rc < 0 then .error (.returned (.ioctlResult rc)) else .ok (), session') := by
  rw [outcome_bind_ok h]
  split_ifs <;> rfl

end Outcome

/-! ### One row -/

/-- The request a row stands for. -/
def rowRequest (row : Partition) (offset length : UInt64) : ExtMtdPartitionInfo :=
  goRecipeAddPartRequest offset length row.name (!decide (ascii "ro" ∈ rowFlags row.flags)) false

/-- The ioctl a row is added with. -/
def rowCmd (row : Partition) (offset length : UInt64) (env : ClientEnv) : Ioctl :=
  .recipeAddPart (if env.copyFromUser then some (rowRequest row offset length) else none)

/-- The step of the loop for a row. -/
abbrev addRow (row : Partition) : ClientM ε Unit :=
  addRecipePart parseUint env row.offset row.length row.name row.flags

variable {parseUint} {row : Partition} {session : Session}

/-- A malformed row is refused before anything is issued. -/
theorem addRow_malformed (h : Malformed parseUint row) :
    ∃ err, (addRow parseUint env row).outcome session = (.error (.returned err), session) := by
  unfold addRow addRecipePart
  rcases parseRecipeFlags_cases (ε := ε) row.flags with ⟨hvalid, heq⟩ | ⟨_, flag, heq⟩
  · rw [heq]
    simp only [returnErr, pure_bind]
    cases hoff : parseUint row.offset with
    | error err => exact ⟨_, rfl⟩
    | ok offset =>
      cases hlen : parseUint row.length with
      | error err => exact ⟨_, rfl⟩
      | ok length =>
        rcases h with h | h | h
        · exact absurd hvalid h
        · exact absurd hoff (h offset)
        · exact absurd hlen (h length)
  · rw [heq]
    exact ⟨_, rfl⟩

/-- A row that is not malformed. -/
structure WellFormed (parseUint : GoString → Except ε UInt64) (row : Partition)
    (offset length : UInt64) : Prop where
  flags : ValidFlags row.flags
  offset : parseUint row.offset = .ok offset
  length : parseUint row.length = .ok length

/-- A row is malformed or it parses. -/
theorem malformed_or_wellFormed (parseUint : GoString → Except ε UInt64) (row : Partition) :
    Malformed parseUint row ∨ ∃ offset length, WellFormed parseUint row offset length := by
  -- In the order in which `addRecipePart` looks at the fields.
  by_cases hflags : ValidFlags row.flags
  · cases hoff : parseUint row.offset with
    | error err => exact Or.inl (Or.inr (Or.inl fun _ h => by rw [hoff] at h; cases h))
    | ok offset =>
      cases hlen : parseUint row.length with
      | error err => exact Or.inl (Or.inr (Or.inr fun _ h => by rw [hlen] at h; cases h))
      | ok length => exact Or.inr ⟨offset, length, hflags, hoff, hlen⟩
  · exact Or.inl (Or.inl hflags)

/-- A row that parses is not malformed. -/
theorem WellFormed.not_malformed {offset length : UInt64}
    (h : WellFormed parseUint row offset length) : ¬ Malformed parseUint row := by
  rintro (hflags | hoff | hlen)
  · exact hflags h.flags
  · exact hoff _ h.offset
  · exact hlen _ h.length

/-- A row that parses comes down to its ioctl. -/
theorem addRow_wellFormed {offset length : UInt64} (h : WellFormed parseUint row offset length) :
    addRow parseUint env row = (do
      let rc ← ioctl env (rowCmd row offset length)
      if rc < 0 then throw (.returned (.ioctlResult rc)) : ClientM ε Unit) := by
  unfold addRow addRecipePart
  rcases parseRecipeFlags_cases (ε := ε) row.flags with ⟨_, heq⟩ | ⟨hno, _⟩
  · rw [heq, h.offset, h.length]
    rfl
  · exact absurd h.flags hno

/-- The part a row leaves in the recipe. -/
structure RowPart (parseUint : GoString → Except ε UInt64) (row : Partition)
    (part : MtdRecipePart) : Prop where
  wellFormed : WellFormed parseUint row part.offset part.length
  name : part.name.cString =
    some ((strBytes row.name).take (MTD_PARTITION_NAME_MAX_LENGTH - 1))
  readonly : part.writable = false ↔ ascii "ro" ∈ rowFlags row.flags

/-- The encoder cuts the name to 128 bytes and `add_recipe_part` to 127. -/
theorem rowPart_newRecipePart {offset length : UInt64}
    (h : WellFormed parseUint row offset length) :
    RowPart parseUint row (newRecipePart (rowRequest row offset length)) where
  wellFormed := h
  name := by
    rw [newRecipePart_cString, rowRequest, strBytes_goRecipeAddPartRequest, List.take_take]
    rfl
  readonly := by
    simp [newRecipePart, rowRequest, goRecipeAddPartRequest]

/-- The entry made from the part of a row is the entry of the row. -/
theorem RowPart.entry {part : MtdRecipePart} {entry : MtdPartition} (h : RowPart parseUint row part)
    (he : EntryFor part entry) : RowEntry parseUint row entry where
  offset := by rw [he.offset]; exact h.wellFormed.offset
  length := by rw [he.size]; exact h.wellFormed.length
  name := ⟨part.name, he.name, h.name⟩
  readonly := he.writeable.trans h.readonly

/-! ### The rows so far -/

/-- The session after the given rows were added: nothing but the recipe has changed, and the
recipe is these rows. -/
structure Added (parseUint : GoString → Except ε UInt64) (opened : MtdpartctlDevice)
    (done : List Partition) (session : Session) : Prop where
  backingMtd : session.dev.backingMtd = opened.backingMtd
  proxy : session.dev.proxy = opened.proxy
  inv : RecipeInv session.dev.backingMtd session.dev.recipe.partitions
  count : session.dev.recipe.partsCount.toNat = session.dev.recipe.partitions.length
  parts : List.Forall₂ (RowPart parseUint) done session.dev.recipe.partitions
  calls : session.calls = []
  issued : ∀ x ∈ session.issued, (∃ arg, x.1 = .recipeAddPart arg) ∧ x.2 = .ok 0

/-- The session after an ioctl that was not accepted: nothing has been dispatched. -/
structure Stopped (opened : MtdpartctlDevice) (session : Session) : Prop where
  proxy : session.dev.proxy = opened.proxy
  creates : session.creates = 0

/-- The client dies in the ioctl of this row. -/
def RowDividesByZero (parseUint : GoString → Except ε UInt64) (env : ClientEnv) (mtd : MtdInfo)
    (row : Partition) : Prop :=
  env.copyFromUser = true ∧
    ∃ offset length, WellFormed parseUint row offset length ∧ DividesByZero mtd offset length

/-- A freshly opened device. -/
theorem added_start {dev opened : MtdpartctlDevice} (h : mtdpartctlChrdevOpen dev = (0, opened)) :
    Added parseUint opened [] (Session.start opened) := by
  have hrecipe : opened.recipe = ⟨[], 0⟩ := by
    unfold mtdpartctlChrdevOpen at h
    split_ifs at h
    · exact absurd (Prod.mk.inj h).1 (neg_ne_zero _)
    · rw [← (Prod.mk.inj h).2]
      rfl
  refine ⟨rfl, rfl, ?_, ?_, ?_, rfl, fun x hx => nomatch hx⟩
  · rw [Session.start, hrecipe]
    exact RecipeInv.nil _
  · rw [Session.start, hrecipe]
    rfl
  · rw [Session.start, hrecipe]
    exact List.Forall₂.nil

section Row

variable {opened : MtdpartctlDevice} {done : List Partition}

/-- As long as every ioctl was an accepted add, nothing has been dispatched. -/
theorem Added.creates (h : Added parseUint opened done session) : session.creates = 0 := by
  rw [Session.creates, List.count_eq_zero]
  intro hmem
  obtain ⟨x, hx, heq⟩ := List.mem_map.mp hmem
  obtain ⟨⟨arg, harg⟩, -⟩ := h.issued x hx
  rw [harg] at heq
  cases heq

/-- No add was rejected. -/
theorem Added.not_rejectedAdd (h : Added parseUint opened done session) : ¬ RejectedAdd session :=
  fun ⟨_, _, hmem, hne⟩ => hne (h.issued _ hmem).2

/-- No row was malformed. -/
theorem Added.not_malformed (h : Added parseUint opened done session) :
    ¬ ∃ row ∈ done, Malformed parseUint row := by
  rintro ⟨row, hrow, hbad⟩
  have hparts : List.Forall₂ (fun row part => ¬ Malformed parseUint row ∧
      RowPart parseUint row part) done session.dev.recipe.partitions :=
    h.parts.imp fun _ _ hpart => ⟨hpart.wellFormed.not_malformed, hpart⟩
  exact ((List.forall₂_and_left _ _).mp hparts).1 row hrow hbad

/-- A recipe with a part shows that the backing MTD has an erase size. -/
theorem Added.erasesize_ne_zero (h : Added parseUint opened done session) (hdone : done ≠ []) :
    opened.backingMtd.erasesize ≠ 0 := by
  have hne : session.dev.recipe.partitions ≠ [] := fun hnil => by
    have hlen := h.parts.length_eq
    rw [hnil, List.length_nil, List.length_eq_zero_iff] at hlen
    exact hdone hlen
  obtain ⟨part, hpart⟩ := List.exists_mem_of_ne_nil _ hne
  rw [← h.backingMtd]
  exact (h.inv.fits part hpart).erasesize_ne_zero

/-- The ioctl of a row that parses, on the rows so far: the part is appended, or the add is
rejected, or it divides by zero. -/
theorem rowCmd_cases {offset length : UInt64} (hrow : WellFormed parseUint row offset length)
    (h : Added parseUint opened done session) (env : ClientEnv) :
    mtdpartctlChrdevIoctl env.toEnv session.dev (rowCmd row offset length env) =
        .ok ⟨0, session.dev.appendPart (rowRequest row offset length), [], .none⟩ ∧
      Acceptable session.dev.backingMtd session.dev.recipe.partitions
        (rowRequest row offset length).base ∨
    (∃ e, mtdpartctlChrdevIoctl env.toEnv session.dev (rowCmd row offset length env) =
      .ok ⟨neg e, session.dev, [], .none⟩) ∨
    RowDividesByZero parseUint env opened.backingMtd row := by
  unfold rowCmd
  cases hcopy : env.copyFromUser with
  | false => exact Or.inr (Or.inl ⟨.EFAULT, rfl⟩)
  | true =>
    simp only [if_true, mtdpartctlChrdevIoctl]
    rcases addRecipePart_cases h.inv (rowRequest row offset length) env.kvzalloc with
      ⟨hacc, _, heq⟩ | ⟨_, _, heq⟩ | ⟨_, heq⟩ | ⟨_, hzero, _⟩
    · exact Or.inl ⟨by rw [heq]; rfl, hacc⟩
    · exact Or.inr (Or.inl ⟨.ENOMEM, by rw [heq]; rfl⟩)
    · exact Or.inr (Or.inl ⟨.EINVAL, by rw [heq]; rfl⟩)
    · rw [h.backingMtd] at hzero
      exact Or.inr (Or.inr ⟨hcopy, offset, length, hrow, hzero⟩)

/-- An accepted row is one more row of the recipe. -/
theorem Added.append {offset length : UInt64} (h : Added parseUint opened done session)
    (hrow : WellFormed parseUint row offset length)
    (hacc : Acceptable session.dev.backingMtd session.dev.recipe.partitions
      (rowRequest row offset length).base) (env : ClientEnv) :
    Added parseUint opened (done ++ [row]) (session.returned (rowCmd row offset length env)
      ⟨0, session.dev.appendPart (rowRequest row offset length), [], .none⟩) where
  backingMtd := h.backingMtd
  proxy := h.proxy
  inv := h.inv.append hacc
  count := by
    -- The longer list still fits the backing MTD, so the counter does not wrap.
    have hbound := (h.inv.append hacc).length_lt_two_pow
    simp only [Session.returned, MtdpartctlDevice.appendPart, List.length_append,
      List.length_singleton] at hbound ⊢
    rw [toNat_add_of_lt (by rw [h.count]; exact hbound), h.count]
    rfl
  parts := List.rel_append h.parts (.cons (rowPart_newRecipePart hrow) .nil)
  calls := by rw [Session.returned, h.calls]; rfl
  issued x hx := by
    rcases List.mem_append.mp hx with hx | hx
    · exact h.issued x hx
    · rw [List.mem_singleton.mp hx]
      exact ⟨⟨_, rfl⟩, rfl⟩

/-- A rejected row stops the client before any dispatch. -/
theorem Added.stopped (h : Added parseUint opened done session) (row : Partition)
    (offset length : UInt64) (e : Errno) (env : ClientEnv) :
    Stopped opened (session.returned (rowCmd row offset length env)
      ⟨neg e, session.dev, [], .none⟩) ∧
    RejectedAdd (session.returned (rowCmd row offset length env)
      ⟨neg e, session.dev, [], .none⟩) := by
  refine ⟨⟨h.proxy, ?_⟩, _, .ok (neg e), List.mem_append_right _ List.mem_cons_self, ?_⟩
  · have hcreates := h.creates
    simp only [Session.creates, Session.returned, List.map_append, List.count_append] at hcreates ⊢
    rw [hcreates]
    rfl
  · exact fun heq => neg_ne_zero e (Except.ok.inj heq)

/-- **One row.**  It becomes a part of the recipe, or the client stops with an error and says
why, or it is killed. -/
theorem addRow_cases (h : Added parseUint opened done session) (row : Partition) :
    (∃ session', (addRow parseUint env row).outcome session = (.ok (), session') ∧
      Added parseUint opened (done ++ [row]) session') ∨
    (∃ err session', (addRow parseUint env row).outcome session =
        (.error (.returned err), session') ∧ Stopped opened session' ∧
      (Malformed parseUint row ∨ RejectedAdd session')) ∨
    RowDividesByZero parseUint (env session.issued.length) opened.backingMtd row := by
  rcases malformed_or_wellFormed parseUint row with hbad | ⟨offset, length, hrow⟩
  · obtain ⟨err, heq⟩ := addRow_malformed env hbad
    exact Or.inr (Or.inl ⟨err, session, heq, ⟨h.proxy, h.creates⟩, Or.inl hbad⟩)
  · rw [addRow_wellFormed env hrow]
    rcases rowCmd_cases hrow h (env session.issued.length) with ⟨heq, hacc⟩ | ⟨e, heq⟩ | hzero
    · refine Or.inl ⟨_, ?_, h.append hrow hacc (env session.issued.length)⟩
      rw [outcome_check (outcome_ioctl_ok env heq), if_neg (lt_irrefl _)]
    · obtain ⟨hstop, hrej⟩ := h.stopped row offset length e (env session.issued.length)
      refine Or.inr (Or.inl ⟨.ioctlResult (neg e), _, ?_, hstop, Or.inr hrej⟩)
      rw [outcome_check (outcome_ioctl_ok env heq), if_pos (neg_lt_zero e)]
    · exact Or.inr (Or.inr hzero)

/-- A row whose request divides by zero kills the client. -/
theorem addRow_killed (hback : session.dev.backingMtd = opened.backingMtd)
    (h : RowDividesByZero parseUint (env session.issued.length) opened.backingMtd row) :
    ∃ arg, (addRow parseUint env row).outcome session =
      (.error (.killed .divideError), session.killed (.recipeAddPart arg) .divideError) := by
  obtain ⟨hcopy, offset, length, hrow, hzero⟩ := h
  have hioctl : mtdpartctlChrdevIoctl (env session.issued.length).toEnv session.dev
      (rowCmd row offset length (env session.issued.length)) = .error .divideError := by
    rw [← hback] at hzero
    simp only [rowCmd, hcopy, if_true, mtdpartctlChrdevIoctl]
    rw [addRecipePart_of_dividesByZero hzero]
    rfl
  rw [addRow_wellFormed env hrow]
  exact ⟨_, outcome_bind_error (outcome_ioctl_error env hioctl) _⟩

end Row

/-! ### The whole file -/

section File

variable {opened : MtdpartctlDevice}

/-- **The rows.**  All of them become parts of the recipe, or the client stops at one of them,
or it is killed at the first. -/
theorem useConfigFile.loop_cases (rest : List Partition) :
    ∀ {done : List Partition} {session : Session}, Added parseUint opened done session →
      (∃ session', (useConfigFile.loop parseUint env rest).outcome session = (.ok (), session') ∧
        Added parseUint opened (done ++ rest) session') ∨
      (∃ err session', (useConfigFile.loop parseUint env rest).outcome session =
          (.error (.returned err), session') ∧ Stopped opened session' ∧
        ((∃ row ∈ rest, Malformed parseUint row) ∨ RejectedAdd session')) ∨
      ∃ row ∈ rest.head?,
        RowDividesByZero parseUint (env session.issued.length) opened.backingMtd row := by
  induction rest with
  | nil =>
    intro done session h
    exact Or.inl ⟨session, rfl, by rw [List.append_nil]; exact h⟩
  | cons row rest ih =>
    intro done session h
    rcases addRow_cases env h row with
      ⟨session₁, heq, h₁⟩ | ⟨err, session₁, heq, hstop, hwhy⟩ | hzero
    · have hloop : (useConfigFile.loop parseUint env (row :: rest)).outcome session =
          (useConfigFile.loop parseUint env rest).outcome session₁ := outcome_bind_ok heq _
      rw [hloop]
      rcases ih h₁ with ⟨session', heq', h'⟩ | ⟨err, session', heq', hstop, hwhy⟩ | ⟨_, _, hzero⟩
      · rw [List.append_assoc] at h'
        exact Or.inl ⟨session', heq', h'⟩
      · refine Or.inr (Or.inl ⟨err, session', heq', hstop, hwhy.imp_left ?_⟩)
        rintro ⟨bad, hmem, hbad⟩
        exact ⟨bad, List.mem_cons_of_mem _ hmem, hbad⟩
      · -- A division by zero comes at the first row or not at all.
        obtain ⟨-, _, _, -, hzero⟩ := hzero
        exact absurd hzero.erasesize (h₁.erasesize_ne_zero (by simp))
    · refine Or.inr (Or.inl ⟨err, session₁, outcome_bind_error heq _, hstop, ?_⟩)
      exact hwhy.imp_left fun hbad => ⟨row, List.mem_cons_self, hbad⟩
    · exact Or.inr (Or.inr ⟨row, rfl, hzero⟩)

/-- Entries made from the parts of the rows are the entries of the rows. -/
theorem forall₂_rowEntry {rows : List Partition} {parts : List MtdRecipePart}
    (h : List.Forall₂ (RowPart parseUint) rows parts) :
    ∀ {entries : List MtdPartition}, List.Forall₂ EntryFor parts entries →
      List.Forall₂ (RowEntry parseUint) rows entries := by
  induction h with
  | nil =>
    intro entries he
    rw [List.forall₂_nil_left_iff.mp he]
    exact .nil
  | cons hpart _ ih =>
    intro entries he
    cases he with
    | cons hentry he => exact .cons (hpart.entry hentry) (ih he)

/-- The dispatch is the first one, and no add was rejected before it. -/
theorem Added.dispatched {rows : List Partition} (h : Added parseUint opened rows session)
    (session' : Session) {outcome : Except Oops Int}
    (hissued : session'.issued = session.issued ++ [(.recipeCreatePartitions, outcome)]) :
    session'.creates = 1 ∧ ¬ ((∃ row ∈ rows, Malformed parseUint row) ∨ RejectedAdd session') := by
  constructor
  · have hcreates := h.creates
    rw [Session.creates] at hcreates ⊢
    rw [hissued, List.map_append, List.count_append, hcreates]
    rfl
  · rintro (hbad | ⟨arg, out, hmem, hne⟩)
    · exact h.not_malformed hbad
    · rw [hissued, List.mem_append, List.mem_singleton] at hmem
      rcases hmem with hmem | heq
      · exact h.not_rejectedAdd ⟨arg, out, hmem, hne⟩
      · cases heq

/-- Without rows the dispatch is refused. -/
theorem Added.refuses_empty (h : Added parseUint opened [] session) (env : Env) :
    mtdpartctlChrdevIoctl env session.dev .recipeCreatePartitions =
      .ok ⟨neg .EINVAL, session.dev, [], .none⟩ := by
  have hcount : session.dev.recipe.partsCount = 0 := by
    rw [← UInt64.toNat_inj, h.count, List.forall₂_nil_left_iff.mp h.parts]
    rfl
  simp only [mtdpartctlChrdevIoctl, createRecipePartitions, convertRecipeToMtdPartitionsLocked,
    hcount]
  rfl

/-- The dispatch after the last row. -/
theorem Added.dispatch {rows : List Partition} (h : Added parseUint opened rows session) :
    ConfigFileApplied parseUint rows opened
      ((do
        let rc ← mtdpartctlRecipeCreatePartitions env
        if rc < 0 then throw (.returned (.ioctlResult rc)) : ClientM ε Unit).outcome session) := by
  cases hioctl : mtdpartctlChrdevIoctl (env session.issued.length).toEnv session.dev
      .recipeCreatePartitions with
  | error o =>
    have hout : (mtdpartctlRecipeCreatePartitions env : ClientM ε Int).outcome session =
        (.error (.killed o), session.killed .recipeCreatePartitions o) :=
      outcome_ioctl_error env hioctl
    rw [outcome_bind_error hout]
    obtain ⟨hone, hgood⟩ := h.dispatched (session.killed .recipeCreatePartitions o) rfl
    refine ⟨fun hbad => absurd hbad hgood, fun hnil => ?_, fun _ _ => ⟨hone, ?_⟩⟩
    · subst hnil
      rw [h.refuses_empty] at hioctl
      cases hioctl
    · intro partitions n hcall
      rw [Session.killed, h.calls] at hcall
      cases hcall
  | ok result =>
    have hout : (mtdpartctlRecipeCreatePartitions env : ClientM ε Int).outcome session =
        (.ok result.ret, session.returned .recipeCreatePartitions result) :=
      outcome_ioctl_ok env hioctl
    rw [outcome_check hout]
    obtain ⟨hone, hgood⟩ := h.dispatched (session.returned .recipeCreatePartitions result) rfl
    refine ⟨fun hbad => absurd hbad hgood, fun hnil => ?_, fun _ _ => ⟨hone, ?_⟩⟩
    · subst hnil
      rw [h.refuses_empty] at hioctl
      obtain rfl := Except.ok.inj hioctl
      refine ⟨⟨.ioctlResult (neg .EINVAL), ?_⟩, h.proxy⟩
      simp only [neg_lt_zero, if_true]
    · intro partitions n hcall
      rw [Session.returned, h.calls, List.nil_append] at hcall
      obtain ⟨entries, heq, hn, hentries⟩ :=
        (recipeConsistent_of_count h.count).handed _ result partitions n hioctl hcall
      exact ⟨entries, heq, hn, forall₂_rowEntry h.parts hentries⟩

/-- A first row that divides by zero kills the client, whatever follows it. -/
theorem not_configFileApplied {dev : MtdpartctlDevice}
    (hopen : mtdpartctlChrdevOpen dev = (0, opened))
    (hzero : RowDividesByZero parseUint (env 0) opened.backingMtd row) (rest : List Partition) :
    ¬ ConfigFileApplied parseUint (row :: rest) opened
      ((useConfigFile parseUint env (row :: rest)).outcome (Session.start opened)) := by
  have hstart : Added parseUint opened [] (Session.start opened) := added_start hopen
  obtain ⟨arg, heq⟩ := addRow_killed env hstart.backingMtd hzero
  have hrun : (useConfigFile parseUint env (row :: rest)).outcome (Session.start opened) =
      (.error (.killed .divideError),
        (Session.start opened).killed (.recipeAddPart arg) .divideError) :=
    outcome_bind_error (outcome_bind_error heq _) _
  rw [hrun]
  intro happlied
  obtain ⟨⟨err, herr⟩, -⟩ := happlied.refused
    (Or.inr ⟨arg, _, List.mem_append_right _ List.mem_cons_self, fun h => nomatch h⟩)
  cases herr

/-- **A configuration file is applied as a whole or not at all, unless its first row divides by
a zero erase size.** -/
theorem configFileApplied_iff {dev : MtdpartctlDevice}
    (hopen : mtdpartctlChrdevOpen dev = (0, opened)) (rows : List Partition) :
    ConfigFileApplied parseUint rows opened
        ((useConfigFile parseUint env rows).outcome (Session.start opened)) ↔
      ∀ row ∈ rows.head?, ¬ RowDividesByZero parseUint (env 0) opened.backingMtd row := by
  constructor
  · intro happlied row hrow hzero
    obtain ⟨rest, rfl⟩ := List.head?_eq_some_iff.mp hrow
    exact not_configFileApplied env hopen hzero rest happlied
  · intro hno
    rcases useConfigFile.loop_cases env rows (added_start hopen) with
      ⟨session', heq, h'⟩ | ⟨err, session', heq, hstop, hwhy⟩ | ⟨row, hrow, hzero⟩
    · have hrun : (useConfigFile parseUint env rows).outcome (Session.start opened) = _ :=
        outcome_bind_ok heq _
      rw [hrun]
      exact h'.dispatch env
    · have hrun : (useConfigFile parseUint env rows).outcome (Session.start opened) =
          (.error (.returned err), session') := outcome_bind_error heq _
      rw [hrun]
      exact ⟨fun _ => ⟨⟨err, rfl⟩, hstop.creates, hstop.proxy⟩,
        fun _ => ⟨⟨err, rfl⟩, hstop.proxy⟩, fun hgood => absurd hwhy hgood⟩
    · exact absurd hzero (hno row hrow)

end File

/-- `strconv.ParseUint` on the two numbers of `oneRow`. -/
def parseTwo (s : GoString) : Except Unit UInt64 :=
  if s = ascii "0" then .ok 0 else if s = ascii "0x1000" then .ok 0x1000 else .error ()

/-- A row for a read-only partition of one block. -/
def oneRow : Partition := ⟨ascii "boot", ascii "0", ascii "0x1000", ascii "ro"⟩

/-- Every allocation, copy and core call succeeds. -/
def ClientEnv.succeeding : ClientEnv := { Env.succeeding with copyFromUser := true }

theorem wellFormed_oneRow : WellFormed parseTwo oneRow 0 0x1000 :=
  ⟨by decide, by decide, by decide⟩

/-- A file of one row on a device with an erase size. -/
theorem configFileApplied_oneRow :
    ConfigFileApplied parseTwo [oneRow] openDevice
      ((useConfigFile parseTwo (fun _ => .succeeding) [oneRow]).outcome
        (Session.start openDevice)) := by
  have hopen : mtdpartctlChrdevOpen (.create ⟨0, 0x1000, 0x1000⟩ 1) = (0, openDevice) := rfl
  refine (configFileApplied_iff _ hopen [oneRow]).mpr ?_
  rintro row - ⟨-, _, _, -, hzero⟩
  exact absurd hzero.erasesize (by decide)

/-- An opened device whose backing MTD has no erase size. -/
def noEraseDevice : MtdpartctlDevice :=
  { MtdpartctlDevice.create ⟨0, 0x1000, 0⟩ 1 with alreadyOpen := true }

/-- The same file on it: the first `do_div` kills the client. -/
theorem configFileApplied_noEraseDevice :
    mtdpartctlChrdevOpen (.create ⟨0, 0x1000, 0⟩ 1) = (0, noEraseDevice) ∧
      ¬ ConfigFileApplied parseTwo [oneRow] noEraseDevice
        ((useConfigFile parseTwo (fun _ => .succeeding) [oneRow]).outcome
          (Session.start noEraseDevice)) := by
  have hopen : mtdpartctlChrdevOpen (.create ⟨0, 0x1000, 0⟩ 1) = (0, noEraseDevice) := rfl
  refine ⟨hopen, not_configFileApplied _ hopen ?_ []⟩
  exact ⟨rfl, 0, 0x1000, wellFormed_oneRow, rfl, by decide, by decide⟩

end Mtdpartikr.Client
