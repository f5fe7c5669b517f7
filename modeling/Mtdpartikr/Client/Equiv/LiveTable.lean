import Mtdpartikr.Client.Equiv.ConfigFile
import Mtdpartikr.Kernel.Equiv.LiveTable

/-!
# From a configuration file to the live table

The rows of a file name extents (`RowExtent`).

* `configFile_live`: a file that is applied becomes the live table, which is then a packing of the
  backing MTD; one that is not leaves the live table alone or, when the dispatch itself fails,
  empty.
* `configFile_succeeds_iff`: in a kernel in which nothing goes wrong, the files that are applied
  are the non-empty packings.
-/

namespace Mtdpartikr.Client

variable {ε : Type} {parseUint : GoString → Except ε UInt64} {env : ℕ → ClientEnv}

/-! ### The extents of the rows -/

/-- The extent a row asks for. -/
def RowExtent (parseUint : GoString → Except ε UInt64) (row : Partition) (x : Extent) : Prop :=
  ∃ offset length, WellFormed parseUint row offset length ∧ x = ⟨offset.toNat, length.toNat⟩

/-- The parts of the rows are over the extents of the rows. -/
theorem forall₂_rowExtent {rows : List Partition} {parts : List MtdRecipePart}
    (h : List.Forall₂ (RowPart parseUint) rows parts) :
    List.Forall₂ (RowExtent parseUint) rows (parts.map MtdRecipePart.extent) := by
  rw [List.forall₂_map_right_iff]
  refine h.imp ?_
  intro row part hpart
  exact ⟨part.offset, part.length, hpart.wellFormed, rfl⟩

/-! ### How a run ends -/

/-- The ways for `useConfigFile` to end: before the dispatch, by an ioctl that kills the client, or
with what the dispatch returns. -/
inductive ConfigOutcome (parseUint : GoString → Except ε UInt64) (env : ℕ → ClientEnv)
    (rows : List Partition) (opened : MtdpartctlDevice) :
    Except (Failure ε) Unit × Session → Prop
  | stopped {err : ClientError ε} {session : Session} : Stopped opened session →
      ConfigOutcome parseUint env rows opened (.error (.returned err), session)
  | killed {o : Oops} {session : Session} :
      ConfigOutcome parseUint env rows opened (.error (.killed o), session)
  | refused {session : Session} {r : IoctlResult} : Added parseUint opened rows session →
      mtdpartctlChrdevIoctl (env session.issued.length).toEnv session.dev
        .recipeCreatePartitions = .ok r → r.ret < 0 →
      ConfigOutcome parseUint env rows opened
        (.error (.returned (.ioctlResult r.ret)), session.returned .recipeCreatePartitions r)
  | dispatched {session : Session} {r : IoctlResult} : Added parseUint opened rows session →
      mtdpartctlChrdevIoctl (env session.issued.length).toEnv session.dev
        .recipeCreatePartitions = .ok r → 0 ≤ r.ret →
      ConfigOutcome parseUint env rows opened
        (.ok (), session.returned .recipeCreatePartitions r)

section Opened

variable {dev opened : MtdpartctlDevice}

/-- The dispatch after the last row. -/
theorem Added.configOutcome {rows : List Partition} {session : Session}
    (h : Added parseUint opened rows session) :
    ConfigOutcome parseUint env rows opened
      ((do
        let rc ← mtdpartctlRecipeCreatePartitions env
        if rc < 0 then throw (.returned (.ioctlResult rc)) : ClientM ε Unit).outcome session) := by
  cases hioctl : mtdpartctlChrdevIoctl (env session.issued.length).toEnv session.dev
      .recipeCreatePartitions with
  | error o =>
    have hout : (mtdpartctlRecipeCreatePartitions env : ClientM ε Int).outcome session =
        (.error (.killed o), session.killed .recipeCreatePartitions o) :=
      outcome_ioctl_error env hioctl
    rw [outcome_bind_error hout]
    exact .killed
  | ok r =>
    have hout : (mtdpartctlRecipeCreatePartitions env : ClientM ε Int).outcome session =
        (.ok r.ret, session.returned .recipeCreatePartitions r) := outcome_ioctl_ok env hioctl
    rw [outcome_check hout]
    split_ifs with hret
    · exact .refused h hioctl hret
    · exact .dispatched h hioctl (Int.not_lt.mp hret)

theorem useConfigFile_cases (hopen : mtdpartctlChrdevOpen dev = (0, opened))
    (rows : List Partition) :
    ConfigOutcome parseUint env rows opened
      ((useConfigFile parseUint env rows).outcome (Session.start opened)) := by
  have hstart : Added parseUint opened [] (Session.start opened) := added_start hopen
  rcases useConfigFile.loop_cases env rows hstart with
    ⟨session, heq, h⟩ | ⟨err, session, heq, hstop, -⟩ | ⟨row, hrow, hzero⟩
  · have hrun : (useConfigFile parseUint env rows).outcome (Session.start opened) = _ :=
      outcome_bind_ok heq _
    rw [hrun]
    exact h.configOutcome
  · have hrun : (useConfigFile parseUint env rows).outcome (Session.start opened) =
        (.error (.returned err), session) := outcome_bind_error heq _
    rw [hrun]
    exact .stopped hstop
  · obtain ⟨rest, rfl⟩ := List.head?_eq_some_iff.mp hrow
    obtain ⟨arg, heq⟩ := addRow_killed env hstart.backingMtd hzero
    have hrun : (useConfigFile parseUint env (row :: rest)).outcome (Session.start opened) =
        (.error (.killed .divideError), _) := outcome_bind_error (outcome_bind_error heq _) _
    rw [hrun]
    exact .killed

/-! ### The live table after a file -/

/-- An open does not touch the proxy. -/
theorem proxy_of_open (hopen : mtdpartctlChrdevOpen dev = (0, opened)) :
    opened.proxy = dev.proxy := by
  unfold mtdpartctlChrdevOpen at hopen
  split_ifs at hopen
  · rw [← (Prod.mk.inj hopen).2]
  · rw [← (Prod.mk.inj hopen).2]

/-- The live table is read off the proxy. -/
theorem tables_live_congr {dev dev' : MtdpartctlDevice} (h : dev'.proxy = dev.proxy) :
    dev'.tables.live = dev.tables.live := by
  simp only [MtdpartctlDevice.tables, h]

/-- A respawn that fails leaves the live table alone or takes it down. -/
theorem live_of_refused {backingMtd : MtdInfo} {dev : MtdpartctlDevice} {env : Env}
    {cmd : Ioctl} {r : IoctlResult} (hmtd : dev.backingMtd = backingMtd)
    (hinv : RecipeInv backingMtd dev.recipe.partitions)
    (henv : env.core.KeepsTable backingMtd.size)
    (hioctl : mtdpartctlChrdevIoctl env dev cmd = .ok r) (hret : r.ret < 0) :
    r.dev.tables.live = dev.tables.live ∨ Respawns (.ioctl cmd) ∧ r.dev.tables.live = [] := by
  have hcall : deviceCall env dev (.ioctl cmd) = .ok (r.ret, r.dev) := by
    simp only [deviceCall, hioctl]
    rfl
  have hstep : deviceSystem.step dev (env, .ioctl cmd) = some r.dev := by
    simp only [deviceSystem, hcall]
  obtain ⟨op, s', ⟨ret, dev₁, hcall', hexp⟩, hservice, hrep'⟩ :=
    deviceSystem_follows backingMtd dev r.dev _ dev.tables ⟨hmtd, hinv, rfl⟩ henv hstep
  obtain ⟨rfl, -⟩ := Prod.mk.inj (Except.ok.inj (hcall.symm.trans hcall'))
  unfold Explains at hexp
  rw [if_pos hret] at hexp
  obtain ⟨-, hs'⟩ := Draft.service_step_iff.mp hservice
  rw [← hrep'.tables, hs']
  rcases hexp with rfl | ⟨hresp, rfl⟩
  · exact Or.inl rfl
  · exact Or.inr ⟨hresp, rfl⟩

/-- What a run of `useConfigFile` makes of the live table. -/
structure ConfigFileLive (parseUint : GoString → Except ε UInt64) (rows : List Partition)
    (opened : MtdpartctlDevice) (run : Except (Failure ε) Unit × Session) : Prop where
  applied : run.1 = .ok () → ∃ table, List.Forall₂ (RowExtent parseUint) rows table ∧
    table ≠ [] ∧ (∀ x ∈ table, x.Valid opened.backingMtd) ∧ table.Pairwise Extent.Apart ∧
    run.2.dev.tables.live = table ∧ ShowsTable run.2.dev table
  failed : ReturnsError run.1 → run.2.dev.tables.live = opened.tables.live ∨
    run.2.creates = 1 ∧ run.2.dev.tables.live = []

/-- A file that was applied is a non-empty packing, and live. -/
theorem ConfigOutcome.packing {rows : List Partition} {run : Except (Failure ε) Unit × Session}
    (h : ConfigOutcome parseUint env rows opened run)
    (henv : ∀ n, (env n).core.KeepsTable opened.backingMtd.size) (hok : run.1 = .ok ()) :
    List.Forall₂ (RowExtent parseUint) rows run.2.dev.tables.live ∧
      run.2.dev.tables.live ≠ [] ∧ (∀ x ∈ run.2.dev.tables.live, x.Valid opened.backingMtd) ∧
      run.2.dev.tables.live.Pairwise Extent.Apart := by
  cases h with
  | stopped _ => cases hok
  | killed => cases hok
  | refused _ _ _ => cases hok
  | @dispatched session r hadded hioctl hret =>
    obtain ⟨-, hlive, hpacking⟩ := dispatch_live hadded.backingMtd
      (hadded.backingMtd ▸ hadded.inv) (henv _) hioctl hret
    refine ⟨?_, hpacking⟩
    show List.Forall₂ (RowExtent parseUint) rows r.dev.tables.live
    rw [hlive]
    exact forall₂_rowExtent hadded.parts

/-- Every way to end leaves such a table. -/
theorem ConfigOutcome.live {rows : List Partition} {run : Except (Failure ε) Unit × Session}
    (h : ConfigOutcome parseUint env rows opened run)
    (hflag : opened.proxy.aboutToRespawn = false)
    (henv : ∀ n, (env n).core.KeepsTable opened.backingMtd.size) :
    ConfigFileLive parseUint rows opened run := by
  have hpacking := h.packing henv
  cases h with
  | @stopped err session hstop =>
    refine { applied := ?_, failed := ?_ }
    · intro h
      cases h
    · intro _
      exact Or.inl (tables_live_congr hstop.proxy)
  | killed =>
    refine { applied := ?_, failed := ?_ }
    · intro h
      cases h
    · rintro ⟨_, h⟩
      cases h
  | @refused session r hadded hioctl hret =>
    refine { applied := ?_, failed := ?_ }
    · intro h
      cases h
    intro _
    have hlive : session.dev.tables.live = opened.tables.live := tables_live_congr hadded.proxy
    -- The dispatch was tried: nothing happened, or the old table was taken down.
    have hone : (session.returned .recipeCreatePartitions r).creates = 1 :=
      (hadded.dispatched _ rfl).1
    rcases live_of_refused hadded.backingMtd (hadded.backingMtd ▸ hadded.inv) (henv _) hioctl
      hret with heq | ⟨-, heq⟩
    · exact Or.inl (heq.trans hlive)
    · exact Or.inr ⟨hone, heq⟩
  | @dispatched session r hadded hioctl hret =>
    refine { applied := ?_, failed := ?_ }
    swap
    · rintro ⟨_, h⟩
      cases h
    intro hok
    obtain ⟨hrows, hne, hvalid, hapart⟩ := hpacking hok
    -- The flag of the respawn is down again, so the listing answers.
    have hflag' : r.dev.proxy.aboutToRespawn = false := by
      have hcall : deviceCall (env session.issued.length).toEnv session.dev
          (.ioctl .recipeCreatePartitions) = .ok (r.ret, r.dev) := by
        simp only [deviceCall, hioctl]
        rfl
      refine deviceCall_aboutToRespawn ?_ hcall
      rw [hadded.proxy]
      exact hflag
    exact ⟨r.dev.tables.live, hrows, hne, hvalid, hapart, rfl, showsTable_live hflag'⟩

/-- **A configuration file becomes the live table or leaves no table of its own.** -/
theorem configFile_live (hreach : Reachable dev) (hopen : mtdpartctlChrdevOpen dev = (0, opened))
    (henv : ∀ n, (env n).core.KeepsTable opened.backingMtd.size) (rows : List Partition) :
    ConfigFileLive parseUint rows opened
      ((useConfigFile parseUint env rows).outcome (Session.start opened)) := by
  refine (useConfigFile_cases hopen rows).live ?_ henv
  rw [proxy_of_open hopen]
  exact hreach.aboutToRespawn

/-- A well-behaved kernel around the ioctls of a client. -/
def ClientEnv.keeping : ClientEnv := { Env.keeping with copyFromUser := true }

/-- A file for the two halves of a device, the second one first. -/
def halvesRows : List Partition :=
  [⟨ascii "rootfs", ascii "0x1000", ascii "0x1000", ascii ""⟩, oneRow]

theorem rowExtents_halves : List.Forall₂ (RowExtent parseTwo) halvesRows halves := by
  have hrootfs : WellFormed parseTwo ⟨ascii "rootfs", ascii "0x1000", ascii "0x1000", ascii ""⟩
    0x1000 0x1000 := ⟨by decide, by decide, by decide⟩
  exact .cons ⟨0x1000, 0x1000, hrootfs, rfl⟩ (.cons ⟨0, 0x1000, wellFormed_oneRow, rfl⟩ .nil)

theorem configFile_live_halves : ∃ run,
    (useConfigFile parseTwo (fun _ => .keeping) halvesRows).outcome (Session.start twoBlocks) =
      run ∧ run.1 = .ok () ∧ run.2.dev.tables.live = halves ∧
    ConfigFileLive parseTwo halvesRows twoBlocks run := by
  have hopen : mtdpartctlChrdevOpen (.create ⟨0, 0x2000, 0x1000⟩ 1) = (0, twoBlocks) := rfl
  exact ⟨_, rfl, rfl, rfl, configFile_live (.init (MtdpartctlDevice.created_create _ _)) hopen
    (fun _ => MtdCore.keepsTable_keeping (by decide)) halvesRows⟩

/-! ### The files that are applied -/

/-- A kernel in which nothing goes wrong in an ioctl on a device of the given size. -/
structure ClientEnv.Succeeds (env : ClientEnv) (size : UInt64) : Prop where
  copyFromUser : env.copyFromUser = true
  toEnv : env.toEnv.Succeeds size

theorem ClientEnv.succeeds_keeping {size : UInt64} (hsize : size.toNat < 2 ^ 63) :
    ClientEnv.keeping.Succeeds size :=
  ⟨rfl, Env.succeeds_keeping hsize⟩

/-- The extent of a row is free for it. -/
theorem acceptable_rowRequest {done : List Partition} {session : Session} {row : Partition}
    {offset length : UInt64} (h : Added parseUint opened done session)
    (hvalid : Extent.Valid opened.backingMtd ⟨offset.toNat, length.toNat⟩)
    (hfree : ∀ y ∈ session.dev.tables.draft, y.Apart ⟨offset.toNat, length.toNat⟩) :
    Acceptable session.dev.backingMtd session.dev.recipe.partitions
      (rowRequest row offset length).base := by
  rw [h.backingMtd]
  refine ⟨⟨hvalid.pos, hvalid.le_size, hvalid.offset_dvd, hvalid.length_dvd⟩, ?_⟩
  intro part hpart
  exact hfree part.extent (List.mem_map_of_mem hpart)

/-- A row over an extent that is free is accepted, and its extent joins the draft. -/
theorem addRow_accepts {done : List Partition} {session : Session} {row : Partition}
    {offset length : UInt64} (henv : ∀ n, (env n).Succeeds opened.backingMtd.size)
    (h : Added parseUint opened done session) (hwf : WellFormed parseUint row offset length)
    (hvalid : Extent.Valid opened.backingMtd ⟨offset.toNat, length.toNat⟩)
    (hfree : ∀ y ∈ session.dev.tables.draft, y.Apart ⟨offset.toNat, length.toNat⟩) :
    ∃ session', (addRow parseUint env row).outcome session = (.ok (), session') ∧
      Added parseUint opened (done ++ [row]) session' ∧
      session'.dev.tables.draft = session.dev.tables.draft ++ [⟨offset.toNat, length.toNat⟩] := by
  have hacc : Acceptable session.dev.backingMtd session.dev.recipe.partitions
    (rowRequest row offset length).base := acceptable_rowRequest h hvalid hfree
  obtain ⟨hcopy, hcalls⟩ := henv session.issued.length
  have hioctl : mtdpartctlChrdevIoctl (env session.issued.length).toEnv session.dev
      (rowCmd row offset length (env session.issued.length)) =
        .ok ⟨0, session.dev.appendPart (rowRequest row offset length), [], .none⟩ := by
    simp only [rowCmd, hcopy, if_true, mtdpartctlChrdevIoctl, hcalls.kvzalloc,
      addRecipePart_of_acceptable h.inv hacc]
    rfl
  refine ⟨_, ?_, h.append hwf hacc (env session.issued.length), List.map_append⟩
  rw [addRow_wellFormed _ hwf, outcome_check (outcome_ioctl_ok _ hioctl), if_neg (lt_irrefl _)]

/-- Rows that were added left parts in the recipe. -/
theorem Added.partitions_ne_nil {done : List Partition} {session : Session}
    (h : Added parseUint opened done session) (hne : done ≠ []) :
    session.dev.recipe.partitions ≠ [] := by
  intro hnil
  have hparts := h.parts
  rw [hnil, List.forall₂_nil_right_iff] at hparts
  exact hne hparts

/-- Rows over extents that are free are all accepted. -/
theorem useConfigFile.loop_accepts {rest : List Partition} {table : List Extent}
    (henv : ∀ n, (env n).Succeeds opened.backingMtd.size)
    (hrows : List.Forall₂ (RowExtent parseUint) rest table) :
    ∀ {done : List Partition} {session : Session}, Added parseUint opened done session →
      (∀ x ∈ table, x.Valid opened.backingMtd) →
      (session.dev.tables.draft ++ table).Pairwise Extent.Apart →
      ∃ session', (useConfigFile.loop parseUint env rest).outcome session =
        (.ok (), session') ∧ Added parseUint opened (done ++ rest) session' := by
  induction hrows with
  | nil =>
    intro done session h _ _
    exact ⟨session, rfl, by rw [List.append_nil]; exact h⟩
  | @cons row x rest table hrow _ ih =>
    intro done session h hvalid hapart
    obtain ⟨offset, length, hwf, rfl⟩ := hrow
    rw [List.forall_mem_cons] at hvalid
    obtain ⟨session₁, hstep, hadded, hdraft⟩ := addRow_accepts henv h hwf hvalid.1 fun y hy =>
      (List.pairwise_append.mp hapart).2.2 y hy _ List.mem_cons_self
    obtain ⟨session', heq, h'⟩ := ih hadded hvalid.2 (by
      rw [hdraft, List.append_assoc]
      exact hapart)
    rw [List.append_assoc] at h'
    exact ⟨session', (outcome_bind_ok hstep _).trans heq, h'⟩

/-- **Exactly the files that are non-empty packings of the backing MTD are applied**, where nothing
goes wrong in the kernel and the proxy is not in use. -/
theorem configFile_succeeds_iff (hopen : mtdpartctlChrdevOpen dev = (0, opened))
    (henv : ∀ n, (env n).Succeeds opened.backingMtd.size)
    (hrefs : opened.proxy.useRefcnt = 0) (rows : List Partition) :
    ((useConfigFile parseUint env rows).outcome (Session.start opened)).1 = .ok () ↔
      ∃ table, List.Forall₂ (RowExtent parseUint) rows table ∧ table ≠ [] ∧
        (∀ x ∈ table, x.Valid opened.backingMtd) ∧ table.Pairwise Extent.Apart := by
  constructor
  · intro hok
    exact ⟨_, (useConfigFile_cases hopen rows).packing (fun n => (henv n).toEnv.table) hok⟩
  · rintro ⟨table, hrows, hne, hvalid, hapart⟩
    have hstart : Added parseUint opened [] (Session.start opened) := added_start hopen
    have hempty : (Session.start opened).dev.tables.draft = [] := by
      have hparts := List.forall₂_nil_left_iff.mp hstart.parts
      exact List.map_eq_nil_iff.mpr hparts
    obtain ⟨session, heq, h⟩ := useConfigFile.loop_accepts henv hrows hstart hvalid (by
      rw [hempty]
      exact hapart)
    -- The table is not empty, so neither is the recipe.
    have hsome : session.dev.recipe.partitions ≠ [] := by
      refine h.partitions_ne_nil fun hnil => ?_
      rw [List.nil_append] at hnil
      subst hnil
      exact hne (List.forall₂_nil_left_iff.mp hrows)
    obtain ⟨r, hioctl, hret⟩ := dispatch_succeeds (henv session.issued.length).toEnv h.count
      hsome (by rw [h.proxy]; exact hrefs)
    have hout : (mtdpartctlRecipeCreatePartitions env : ClientM ε Int).outcome session =
        (.ok r.ret, session.returned .recipeCreatePartitions r) := outcome_ioctl_ok env hioctl
    have hrun : (useConfigFile parseUint env rows).outcome (Session.start opened) = _ :=
      outcome_bind_ok heq _
    rw [hrun, outcome_check hout, if_neg (Int.not_lt.mpr hret)]

end Opened

theorem configFile_succeeds_iff_halves :
    ((useConfigFile parseTwo (fun _ => .keeping) halvesRows).outcome
      (Session.start twoBlocks)).1 = .ok () := by
  have hopen : mtdpartctlChrdevOpen (.create ⟨0, 0x2000, 0x1000⟩ 1) = (0, twoBlocks) := rfl
  exact (configFile_succeeds_iff hopen (fun _ => ClientEnv.succeeds_keeping (by decide)) rfl
    halvesRows).mpr ⟨halves, rowExtents_halves, List.cons_ne_nil _ _, halves_valid, halves_apart⟩

end Mtdpartikr.Client
