import Mtdpartikr.Client.Equiv.Main

/-!
# What the exit status of a client says

`main_tells`: from the status alone, and the flags the client was given, one can tell the live
table: the rows of the file, nothing, or what was live before.
-/

namespace Mtdpartikr.Client

variable {ε : Type} {K : Env → Prop} {dev : MtdpartctlDevice} {session : Session}

/-! ### Sessions that have just begun -/

/-- An open does not change the backing MTD. -/
theorem backingMtd_of_open {opened : MtdpartctlDevice}
    (hopen : mtdpartctlChrdevOpen dev = (0, opened)) : opened.backingMtd = dev.backingMtd := by
  unfold mtdpartctlChrdevOpen at hopen
  split_ifs at hopen
  · rw [← (Prod.mk.inj hopen).2]
  · rw [← (Prod.mk.inj hopen).2]

theorem JustOpened.live (h : JustOpened K dev session) :
    session.dev.tables.live = dev.tables.live :=
  tables_live_congr (proxy_of_open h.opens)

theorem JustOpened.not_busy (h : JustOpened K dev session) : dev.alreadyOpen = false := by
  rcases open_cases dev with ⟨_, -, hclosed⟩ | ⟨heq, -⟩
  · exact hclosed
  · have hret := (Prod.mk.inj (heq.symm.trans h.opens)).1
    exact absurd hret (neg_ne_zero _)

/-- The recipe of a new session is empty. -/
theorem JustOpened.recipeInv (h : JustOpened K dev session) :
    RecipeInv dev.backingMtd session.dev.recipe.partitions := by
  have hadded : Added (fun _ => Except.error () : GoString → Except Unit UInt64) session.dev []
    (.start session.dev) := added_start h.opens
  have hinv := hadded.inv
  rw [hadded.backingMtd, backingMtd_of_open h.opens] at hinv
  exact hinv

/-! ### `-reset-proxy` -/

/-- `MTDPARTCTL_IOC_DELETE_MTD_PARTITIONS` leaves nothing live when it succeeds, and nothing or
what was live when it does not. -/
theorem live_of_delete {env : Env} {r : IoctlResult} {backingMtd : MtdInfo}
    (hmtd : dev.backingMtd = backingMtd) (hinv : RecipeInv backingMtd dev.recipe.partitions)
    (henv : env.core.KeepsTable backingMtd.size)
    (hioctl : mtdpartctlChrdevIoctl env dev .deleteMtdPartitions = .ok r) :
    0 ≤ r.ret ∧ r.dev.tables.live = [] ∨
      r.ret < 0 ∧ (r.dev.tables.live = dev.tables.live ∨ r.dev.tables.live = []) := by
  rcases lt_or_ge r.ret 0 with hret | hret
  · exact Or.inr ⟨hret, (live_of_refused hmtd hinv henv hioctl hret).imp_right And.right⟩
  · have hcall : deviceCall env dev (.ioctl .deleteMtdPartitions) = .ok (r.ret, r.dev) := by
      simp only [deviceCall, hioctl]
      rfl
    have hstep : deviceSystem.step dev (env, .ioctl .deleteMtdPartitions) = some r.dev := by
      simp only [deviceSystem, hcall]
    -- The operation of the service that explains a success is `withdraw`.
    obtain ⟨op, s', ⟨ret, dev₁, hcall', hexp⟩, hservice, hrep'⟩ :=
      deviceSystem_follows backingMtd dev r.dev _ dev.tables ⟨hmtd, hinv, rfl⟩ henv hstep
    obtain ⟨rfl, -⟩ := Prod.mk.inj (Except.ok.inj (hcall.symm.trans hcall'))
    unfold Explains at hexp
    rw [if_neg (Int.not_lt.mpr hret)] at hexp
    obtain rfl : op = .withdraw := hexp
    obtain ⟨-, hs'⟩ := Draft.service_step_iff.mp hservice
    rw [← hrep'.tables, hs']
    exact Or.inl ⟨hret, rfl⟩

/-- The program after `-reset-proxy`. -/
theorem JustOpened.reset (h : JustOpened K dev session) {env : ReplEnv}
    (henv : env.core.KeepsTable dev.backingMtd.size) {result : MainResult}
    (hresult : result = session.exitAfter (ε := ε) (do
      let rc ← mtdpartctlDeleteMtdPartitions env
      checkRc rc)) :
    (result.exit = .status 0 ∧ result.dev.tables.live = []) ∨
      (result.exit = .status 1 ∧
        (result.dev.tables.live = dev.tables.live ∨ result.dev.tables.live = [])) ∨
      ∃ o, result.exit = .killed o := by
  subst hresult
  unfold Session.exitAfter
  cases hioctl : mtdpartctlChrdevIoctl env.toEnv session.dev .deleteMtdPartitions with
  | error o =>
    -- A crash in the kernel kills the client.
    have hout : (mtdpartctlDeleteMtdPartitions env : ClientM ε Int).outcome
        (.start session.dev) = (.error (.killed o), _) :=
      outcome_ioctl_error (fun _ => env.toClientEnv) hioctl
    rw [outcome_bind_error hout]
    exact Or.inr (Or.inr ⟨o, rfl⟩)
  | ok r =>
    have hout : (mtdpartctlDeleteMtdPartitions env : ClientM ε Int).outcome
        (.start session.dev) = (.ok r.ret, _) :=
      outcome_ioctl_ok (fun _ => env.toClientEnv) hioctl
    rw [outcome_bind_ok hout]
    unfold checkRc
    rcases live_of_delete (backingMtd_of_open h.opens) h.recipeInv henv hioctl with
      ⟨hret, hlive⟩ | ⟨hret, hlive⟩
    · rw [if_neg (Int.not_lt.mpr hret)]
      exact Or.inl ⟨rfl, hlive⟩
    · rw [if_pos hret]
      rw [h.live] at hlive
      exact Or.inr (Or.inl ⟨rfl, hlive⟩)

/-! ### `-config` -/

/-- Closing the file does not change the listing. -/
theorem showsTable_release {table : List Extent} (h : ShowsTable dev table) :
    ShowsTable (mtdpartctlChrdevRelease dev) table := by
  intro env hcopy readCount
  obtain ⟨writes, hioctl, hwrites⟩ := h env hcopy readCount
  refine ⟨writes, ?_, hwrites⟩
  simp only [mtdpartctlChrdevIoctl] at hioctl ⊢
  cases hflag : dev.proxy.aboutToRespawn with
  | true =>
    rw [if_pos hflag] at hioctl
    -- While the flag is set there is no listing at all.
    have hret := congrArg IoctlResult.ret (Except.ok.inj hioctl)
    exact absurd hret (neg_ne_zero _)
  | false =>
    have hno : ¬ dev.proxy.aboutToRespawn = true := Bool.eq_false_iff.mp hflag
    rw [if_neg hno] at hioctl
    have hlist := Except.ok.inj hioctl
    simp only [IoctlResult.mk.injEq, true_and] at hlist
    simp only [mtdpartctlChrdevRelease, if_neg hno, hlist.1, hlist.2]
    rfl

/-- The file at the path is what the device shows, a packing of the backing MTD. -/
def ShowsFile (host : Host ε) (path : GoString) (backingMtd : MtdInfo) (dev : MtdpartctlDevice) :
    Prop :=
  ∃ rows table, host.readConfig path = some rows ∧
    List.Forall₂ (RowExtent (host.parseUint 0 64)) rows table ∧ table ≠ [] ∧
    (∀ x ∈ table, x.Valid backingMtd) ∧ table.Pairwise Extent.Apart ∧
    dev.tables.live = table ∧ ShowsTable dev table

/-- The program after `-config` on a file that could be read. -/
theorem JustOpened.config (h : JustOpened K dev session) (hreach : Reachable dev)
    {host : Host ε} (hK : host.All fun env => env.core.KeepsTable dev.backingMtd.size)
    {path : GoString} {rows : List Partition} (hread : host.readConfig path = some rows)
    {result : MainResult}
    (hresult : result = session.exitAfter
      (useConfigFile (host.parseUint 0 64) (fun n => (host.env n).toClientEnv) rows)) :
    (result.exit = .status 0 ∧ ShowsFile host path dev.backingMtd result.dev) ∨
      (result.exit = .status 1 ∧
        (result.dev.tables.live = dev.tables.live ∨ result.dev.tables.live = [])) ∨
      ∃ o, result.exit = .killed o := by
  have hflag : session.dev.proxy.aboutToRespawn = false := by
    rw [proxy_of_open h.opens]
    exact hreach.aboutToRespawn
  have hmtd := backingMtd_of_open h.opens
  have hcases : ConfigOutcome (host.parseUint 0 64) (fun n => (host.env n).toClientEnv) rows
      session.dev ((useConfigFile (host.parseUint 0 64) (fun n => (host.env n).toClientEnv)
        rows).outcome (.start session.dev)) := useConfigFile_cases h.opens rows
  have hlive := hcases.live hflag fun n => by rw [hmtd]; exact hK.env n
  rw [hresult]
  rcases exitAfter_cases session
    (useConfigFile (host.parseUint 0 64) (fun n => (host.env n).toClientEnv) rows) with
    ⟨session', hout, heq⟩ | ⟨err, session', hout, heq⟩ | ⟨o, session', -, heq⟩
  · rw [hout] at hlive
    obtain ⟨table, hrows, hne, hvalid, hapart, htable, hshows⟩ := hlive.applied rfl
    rw [hmtd] at hvalid
    rw [heq]
    exact Or.inl
      ⟨rfl, rows, table, hread, hrows, hne, hvalid, hapart, htable, showsTable_release hshows⟩
  · rw [hout] at hlive
    have hkept := (hlive.failed ⟨err, rfl⟩).imp_right And.right
    rw [h.live] at hkept
    rw [heq]
    exact Or.inr (Or.inl ⟨rfl, hkept⟩)
  · rw [heq]
    exact Or.inr (Or.inr ⟨o, rfl⟩)

/-! ### The whole program -/

/-- What the status says about the live table before and after a client. -/
structure ExitTells (host : Host ε) (flags : Flags) (dev : MtdpartctlDevice)
    (result : MainResult) : Prop where
  usage : result.exit = .status 2 → result.dev.tables.live = dev.tables.live
  infoOnly : flags.infoOnly = true → result.dev.tables.live = dev.tables.live
  reset : flags.infoOnly = false → flags.resetProxy = true → result.exit = .status 0 →
    result.dev.tables.live = []
  applied : flags.infoOnly = false → flags.resetProxy = false → flags.configFile ≠ [] →
    result.exit = .status 0 → ShowsFile host flags.configFile dev.backingMtd result.dev
  failed : flags.resetProxy = true ∨ flags.configFile ≠ [] → result.exit = .status 1 →
    result.dev.tables.live = dev.tables.live ∨ result.dev.tables.live = []
  busy : dev.alreadyOpen = true → result.dev = dev ∧ ∃ code ≠ 0, result.exit = .status code

/-- A client that stops before it asks for anything. -/
theorem JustOpened.exitTells (h : JustOpened K dev session) {host : Host ε} {flags : Flags}
    {code : ℕ} (hcode : code ≠ 0 ∨ flags.infoOnly = true) :
    ExitTells host flags dev (session.exit (.status code)) where
  usage _ := h.live
  infoOnly _ := h.live
  reset hinfo _ hexit := by
    rcases hcode with hne | htrue
    · exact absurd (Exit.status.inj hexit) hne
    · rw [hinfo] at htrue
      cases htrue
  applied hinfo _ _ hexit := by
    rcases hcode with hne | htrue
    · exact absurd (Exit.status.inj hexit) hne
    · rw [hinfo] at htrue
      cases htrue
  failed _ _ := Or.inl h.live
  busy hbusy := by
    rw [h.not_busy] at hbusy
    cases hbusy

/-- A client that goes on after the information ends with the status 0 or 1, or with none. -/
theorem exitTells_of_cases {host : Host ε} {flags : Flags} {result : MainResult}
    (hinfo : flags.infoOnly = false) (hclosed : dev.alreadyOpen = false)
    (hcases : (result.exit = .status 0 ∧
        (flags.resetProxy = true → result.dev.tables.live = []) ∧
        (flags.resetProxy = false → flags.configFile ≠ [] →
          ShowsFile host flags.configFile dev.backingMtd result.dev)) ∨
      (result.exit = .status 1 ∧ (flags.resetProxy = true ∨ flags.configFile ≠ [] →
        result.dev.tables.live = dev.tables.live ∨ result.dev.tables.live = [])) ∨
      ∀ code, result.exit ≠ .status code) :
    ExitTells host flags dev result where
  usage hexit := by
    rcases hcases with ⟨h, -⟩ | ⟨h, -⟩ | h
    · cases h.symm.trans hexit
    · cases h.symm.trans hexit
    · exact absurd hexit (h 2)
  infoOnly htrue := by
    rw [hinfo] at htrue
    cases htrue
  reset _ hreset hexit := by
    rcases hcases with ⟨-, h, -⟩ | ⟨h, -⟩ | h
    · exact h hreset
    · cases h.symm.trans hexit
    · exact absurd hexit (h 0)
  applied _ hreset hconfig hexit := by
    rcases hcases with ⟨-, -, h⟩ | ⟨h, -⟩ | h
    · exact h hreset hconfig
    · cases h.symm.trans hexit
    · exact absurd hexit (h 0)
  failed hflag hexit := by
    rcases hcases with ⟨h, -⟩ | ⟨-, h⟩ | h
    · cases h.symm.trans hexit
    · exact h hflag
    · exact absurd hexit (h 1)
  busy hbusy := by
    rw [hclosed] at hbusy
    cases hbusy

/-- A client that has come to what its flags ask for. -/
theorem JustOpened.opened_exitTells (h : JustOpened K dev session) (hreach : Reachable dev)
    {host : Host ε} (hK : host.All fun env => env.core.KeepsTable dev.backingMtd.size)
    {flags : Flags} (hinfo : flags.infoOnly = false) :
    ExitTells host flags dev (Client.mainOpened host flags session) := by
  refine exitTells_of_cases hinfo h.not_busy ?_
  unfold Client.mainOpened
  cases hreset : flags.resetProxy with
  | true =>
    rw [if_pos rfl]
    rcases h.reset (hK.env 0) rfl with ⟨hexit, hlive⟩ | ⟨hexit, hlive⟩ | ⟨o, hexit⟩
    · exact Or.inl ⟨hexit, fun _ => hlive, fun hno => by cases hno⟩
    · exact Or.inr (Or.inl ⟨hexit, fun _ => hlive⟩)
    · exact Or.inr (Or.inr fun code hcode => by cases hexit.symm.trans hcode)
  | false =>
    rw [if_neg Bool.false_ne_true]
    by_cases hconfig : flags.configFile ≠ []
    · rw [if_pos hconfig]
      cases hread : host.readConfig flags.configFile with
      | none => exact Or.inr (Or.inl ⟨rfl, fun _ => Or.inl h.live⟩)
      | some rows =>
        rcases h.config hreach hK hread rfl with ⟨hexit, hshows⟩ | ⟨hexit, hlive⟩ | ⟨o, hexit⟩
        · exact Or.inl ⟨hexit, fun hno => (by cases hno), fun _ _ => hshows⟩
        · exact Or.inr (Or.inl ⟨hexit, fun _ => hlive⟩)
        · exact Or.inr (Or.inr fun code hcode => by cases hexit.symm.trans hcode)
    · -- A REPL says nothing with its status.
      rw [if_neg hconfig]
      have hno : ¬ (false = true ∨ flags.configFile ≠ []) := by
        rintro (hfalse | hne)
        · cases hfalse
        · exact hconfig hne
      cases Repl.run host (.new session.dev) with
      | mk res repl =>
        cases res with
        | killed o => exact Or.inr (Or.inr fun code hcode => by cases hcode)
        | reading => exact Or.inr (Or.inr fun code hcode => by cases hcode)
        | returned failed =>
          cases failed with
          | true => exact Or.inr (Or.inl ⟨rfl, fun hflag => absurd hflag hno⟩)
          | false =>
            exact Or.inl ⟨rfl, fun hfalse => (by cases hfalse), fun _ hne => absurd hne hconfig⟩

/-- **The exit status of a client says what is live.** -/
theorem main_tells (hreach : Reachable dev) {host : Host ε}
    (hK : host.All fun env => env.core.KeepsTable dev.backingMtd.size) (flags : Flags) :
    ExitTells host flags dev (main host flags dev) := by
  have hpath : MainPath (fun env => env.core.KeepsTable dev.backingMtd.size) host flags dev
    (main host flags dev) := main_path hK.infoEnv flags dev
  generalize main host flags dev = result at hpath
  cases hpath with
  | refused h => exact h.exitTells (Or.inl one_ne_zero)
  | panicked h => exact h.exitTells (Or.inl two_ne_zero)
  | infoOnly hinfo h => exact h.exitTells (Or.inr hinfo)
  | opened hinfo h => exact h.opened_exitTells hreach hK hinfo
  | notOpened hcode =>
    exact {
      usage := fun _ => rfl
      infoOnly := fun _ => rfl
      reset := fun _ _ hexit => absurd (Exit.status.inj hexit) hcode
      applied := fun _ _ _ hexit => absurd (Exit.status.inj hexit) hcode
      failed := fun _ _ => Or.inl rfl
      busy := fun _ => ⟨rfl, _, hcode, rfl⟩ }

/-- The file of one row on a device of one block. -/
theorem main_tells_oneRow :
    ∃ result, main oneRowHost { plainFlags with configFile := ascii "flash.yaml" }
        (.create ⟨0, 0x1000, 0x1000⟩ 1) = result ∧ result.exit = .status 0 ∧
      ShowsFile oneRowHost (ascii "flash.yaml") ⟨0, 0x1000, 0x1000⟩ result.dev := by
  have hreach : Reachable (.create ⟨0, 0x1000, 0x1000⟩ 1) :=
    .init (MtdpartctlDevice.created_create _ _)
  have htells := main_tells hreach (oneRowHost_all (by decide))
    { plainFlags with configFile := ascii "flash.yaml" }
  exact ⟨_, rfl, rfl, htells.applied rfl rfl (by decide) rfl⟩

end Mtdpartikr.Client
