import Mtdpartikr.Client.Equiv.LiveTable
import Mtdpartikr.Client.Equiv.Repl
import Mtdpartikr.Client.Main

/-!
# Clients that run one after another

A client is one session of the device: an open, its ioctls and, once it has ended, a release
(`main_cases`).

* `clients_run`: so a row of clients is a run of the device.
* `clients_live`: whatever their flags, their files and the lines typed into them, and whether they
  exit, are killed or still read, every live partition is a range of whole erase blocks; the device
  is closed once the last one has ended.
-/

namespace Mtdpartikr.Client

variable {ε : Type} {K : Env → Prop}

/-! ### The ioctls of a session -/

/-- The ioctls of the log, made one after another in kernels with `K`. -/
inductive IoctlRun (K : Env → Prop) :
    MtdpartctlDevice → List (Ioctl × Except Oops Int) → MtdpartctlDevice → Prop
  | nil (dev : MtdpartctlDevice) : IoctlRun K dev [] dev
  | cons {env : Env} {dev dev' : MtdpartctlDevice} {cmd : Ioctl} {r : IoctlResult}
      {log : List (Ioctl × Except Oops Int)} : K env →
      mtdpartctlChrdevIoctl env dev cmd = .ok r → IoctlRun K r.dev log dev' →
      IoctlRun K dev ((cmd, .ok r.ret) :: log) dev'

theorem IoctlRun.append {dev₁ dev₂ dev₃ : MtdpartctlDevice}
    {log log' : List (Ioctl × Except Oops Int)} (h : IoctlRun K dev₁ log dev₂)
    (h' : IoctlRun K dev₂ log' dev₃) : IoctlRun K dev₁ (log ++ log') dev₃ := by
  induction h with
  | nil dev => exact h'
  | cons hK hioctl _ ih => exact .cons hK hioctl (ih h')

/-- It is a run of the device. -/
theorem IoctlRun.run {dev dev' : MtdpartctlDevice} {log : List (Ioctl × Except Oops Int)}
    (h : IoctlRun K dev log dev') :
    ∃ es, deviceSystem.run dev es = some dev' ∧ (∀ e ∈ es, K e.1) ∧
      es.map Prod.snd = log.map fun x => .ioctl x.1 := by
  induction h with
  | nil dev => exact ⟨[], rfl, fun e he => absurd he List.not_mem_nil, rfl⟩
  | @cons env dev dev' cmd r log hK hioctl _ ih =>
    obtain ⟨es, hrun, hes, hlog⟩ := ih
    have hstep : deviceSystem.step dev (env, .ioctl cmd) = some r.dev := by
      simp only [deviceSystem, deviceCall, hioctl]
      rfl
    refine ⟨(env, .ioctl cmd) :: es, ?_, ?_, ?_⟩
    · rw [TransitionSystem.run, hstep]
      exact hrun
    · exact List.forall_mem_cons.mpr ⟨hK, hes⟩
    · rw [List.map_cons, List.map_cons, hlog]

/-- What the session did after `session` is on its log. -/
def Session.Follows (K : Env → Prop) (session session' : Session) : Prop :=
  ∃ log, session'.issued = session.issued ++ log ∧ IoctlRun K session.dev log session'.dev

theorem Session.Follows.refl (session : Session) : session.Follows K session :=
  ⟨[], (List.append_nil _).symm, .nil _⟩

theorem Session.Follows.trans {s₁ s₂ s₃ : Session} (h : s₁.Follows K s₂) (h' : s₂.Follows K s₃) :
    s₁.Follows K s₃ := by
  obtain ⟨log, hlog, hrun⟩ := h
  obtain ⟨log', hlog', hrun'⟩ := h'
  exact ⟨log ++ log', by rw [hlog', hlog, List.append_assoc], hrun.append hrun'⟩

/-- The ioctls that returned since `session` led to the device of the other one. -/
def Session.Reaches (K : Env → Prop) (session session' : Session) : Prop :=
  ∃ log, IoctlRun K session.dev log session'.dev

theorem Session.Follows.reaches {session session' : Session} (h : session.Follows K session') :
    session.Reaches K session' := by
  obtain ⟨log, -, hrun⟩ := h
  exact ⟨log, hrun⟩

theorem Session.Follows.reaches_trans {s₁ s₂ s₃ : Session} (h : s₁.Follows K s₂)
    (h' : s₂.Reaches K s₃) : s₁.Reaches K s₃ := by
  obtain ⟨log, -, hrun⟩ := h
  obtain ⟨log', hrun'⟩ := h'
  exact ⟨log ++ log', hrun.append hrun'⟩

/-- An ioctl that kills the client leaves the device as it was. -/
theorem Session.reaches_killed (session : Session) (cmd : Ioctl) (o : Oops) :
    session.Reaches K (session.killed cmd o) :=
  ⟨[], .nil session.dev⟩

theorem Session.follows_returned {session : Session} {env : Env} {cmd : Ioctl} {r : IoctlResult}
    (hK : K env) (hioctl : mtdpartctlChrdevIoctl env session.dev cmd = .ok r) :
    session.Follows K (session.returned cmd r) :=
  ⟨[(cmd, .ok r.ret)], rfl, .cons hK hioctl (.nil _)⟩

/-- A call follows its session; if it is killed, it has come as far as its last ioctl that
returned. -/
def Tracks {α : Type} (K : Env → Prop) (x : ClientM ε α) : Prop :=
  ∀ session, (∃ o, (x.outcome session).1 = .error (.killed o)) ∧
      session.Reaches K (x.outcome session).2 ∨
    session.Follows K (x.outcome session).2

section Tracks

variable {α β : Type}

theorem tracks_pure (a : α) : Tracks K (pure a : ClientM ε α) :=
  fun session => Or.inr (.refl session)

theorem tracks_throw (err : ClientError ε) : Tracks K (throw (.returned err) : ClientM ε α) :=
  fun session => Or.inr (.refl session)

theorem Tracks.bind {x : ClientM ε α} {f : α → ClientM ε β} (hx : Tracks K x)
    (hf : ∀ a, Tracks K (f a)) : Tracks K (x >>= f) := by
  intro session
  rw [outcome_bind]
  have hfirst := hx session
  cases hout : x.outcome session with
  | mk res session' =>
    rw [hout] at hfirst
    cases res with
    -- The rest is not run, so the session is that of the first part.
    | error e =>
      rcases hfirst with ⟨⟨o, ho⟩, hreach⟩ | hfollows
      · exact Or.inl ⟨⟨o, congrArg Except.error (Except.error.inj ho)⟩, hreach⟩
      · exact Or.inr hfollows
    | ok a =>
      rcases hfirst with ⟨⟨o, ho⟩, -⟩ | hfollows
      · cases ho
      · exact (hf a session').imp (And.imp_right hfollows.reaches_trans) hfollows.trans

theorem tracks_ioctl {env : ℕ → ClientEnv} (hK : ∀ n, K (env n).toEnv)
    (cmd : ClientEnv → Ioctl) : Tracks K (ioctl env cmd : ClientM ε Int) := by
  intro session
  cases hioctl : mtdpartctlChrdevIoctl (env session.issued.length).toEnv session.dev
      (cmd (env session.issued.length)) with
  | error o =>
    rw [outcome_ioctl_error env hioctl]
    exact Or.inl ⟨⟨o, rfl⟩, session.reaches_killed _ o⟩
  | ok r =>
    rw [outcome_ioctl_ok env hioctl]
    exact Or.inr (Session.follows_returned (hK _) hioctl)

theorem tracks_checkRc (rc : Int) : Tracks K (checkRc rc : ClientM ε Unit) := by
  unfold checkRc
  split_ifs
  · exact tracks_throw _
  · exact tracks_pure ()

theorem tracks_returnErr (x : Except (ClientError ε) α) : Tracks K (returnErr x) := by
  cases x with
  | ok a => exact tracks_pure a
  | error err => exact tracks_throw err

variable {parseUint : GoString → Except ε UInt64} {env : ℕ → ClientEnv}

theorem tracks_addRow (hK : ∀ n, K (env n).toEnv) (row : Partition) :
    Tracks K (addRow parseUint env row) := by
  unfold addRow addRecipePart
  refine (tracks_returnErr _).bind fun flags => (tracks_returnErr _).bind fun offset =>
    (tracks_returnErr _).bind fun length => ?_
  exact (tracks_ioctl hK _).bind tracks_checkRc

theorem tracks_useConfigFile (hK : ∀ n, K (env n).toEnv) (rows : List Partition) :
    Tracks K (useConfigFile parseUint env rows) := by
  have hloop : Tracks K (useConfigFile.loop parseUint env rows) := by
    induction rows with
    | nil => exact tracks_pure ()
    | cons row rest ih => exact (tracks_addRow hK row).bind fun _ => ih
  exact hloop.bind fun _ => (tracks_ioctl hK _).bind tracks_checkRc

end Tracks

/-! ### Opening the device -/

/-- Every kernel the client meets has `K`. -/
structure Host.All (K : Env → Prop) (host : Host ε) : Prop where
  infoEnv : K host.infoEnv.toEnv
  env : ∀ n, K (host.env n).toEnv
  inputs : ∀ input ∈ host.inputs, K input.1.toEnv

/-- The session after the ioctl of `openDevice`. -/
structure JustOpened (K : Env → Prop) (dev : MtdpartctlDevice) (session : Session) : Prop where
  opens : mtdpartctlChrdevOpen dev = (0, session.dev)
  run : IoctlRun K session.dev session.issued session.dev

/-- How `openDevice` can end: `MTDPARTCTL_IOC_GET_INFO` kills nobody. -/
inductive OpenOutcome (K : Env → Prop) (dev : MtdpartctlDevice) : OpenResult → Prop
  | failed : OpenOutcome K dev (.failed dev)
  | refused {session : Session} : JustOpened K dev session → OpenOutcome K dev (.refused session)
  | opened {session : Session} : JustOpened K dev session →
      OpenOutcome K dev (.opened (getInfoLocked session.dev) session)

theorem open_cases (dev : MtdpartctlDevice) :
    (∃ opened, mtdpartctlChrdevOpen dev = (0, opened) ∧ dev.alreadyOpen = false) ∨
      mtdpartctlChrdevOpen dev = (neg .EBUSY, dev) ∧ dev.alreadyOpen = true := by
  unfold mtdpartctlChrdevOpen
  cases hopen : dev.alreadyOpen with
  | false => exact Or.inl ⟨_, rfl, rfl⟩
  | true => exact Or.inr ⟨rfl, rfl⟩

theorem justOpened_returned {dev opened : MtdpartctlDevice} {env : Env} {r : IoctlResult}
    (hK : K env) (hopen : mtdpartctlChrdevOpen dev = (0, opened))
    (hioctl : mtdpartctlChrdevIoctl env opened .getInfo = .ok r) (hdev : r.dev = opened) :
    JustOpened K dev ((Session.start opened).returned .getInfo r) := by
  subst hdev
  exact { opens := hopen, run := .cons hK hioctl (.nil _) }

theorem openDevice_cases {host : Host ε} (hK : K host.infoEnv.toEnv) (path : GoString)
    (dev : MtdpartctlDevice) : OpenOutcome K dev (host.openDevice path dev) := by
  unfold Host.openDevice
  cases host.node path with
  | unopenable => exact .failed
  | foreign errno => exact .failed
  | controlDevice =>
    rcases open_cases dev with ⟨opened, heq, -⟩ | ⟨heq, -⟩
    · have hinfo : ∀ r, mtdpartctlChrdevIoctl host.infoEnv.toEnv opened .getInfo = .ok r →
          (mtdpartctlGetInfo host.infoEnv : ClientM ε (Int × Reply)).outcome (.start opened) =
            (.ok (r.ret, r.reply), (Session.start opened).returned .getInfo r) :=
        fun r hr => outcome_ioctlReply_ok hr
      cases hcopy : host.infoEnv.copyToUser 0 with
      -- The information was copied out, or `EFAULT` closes the file again.
      | true =>
        have hioctl : mtdpartctlChrdevIoctl host.infoEnv.toEnv opened .getInfo =
            .ok ⟨0, opened, [], .info (getInfoLocked opened)⟩ := by
          simp only [mtdpartctlChrdevIoctl, hcopy, if_true]
          rfl
        simp only [heq, hinfo _ hioctl, lt_self_iff_false, if_false]
        exact .opened (justOpened_returned hK heq hioctl rfl)
      | false =>
        have hioctl : mtdpartctlChrdevIoctl host.infoEnv.toEnv opened .getInfo =
            .ok ⟨neg .EFAULT, opened, [], .none⟩ := by
          simp only [mtdpartctlChrdevIoctl, hcopy, Bool.false_eq_true, if_false]
          rfl
        simp only [heq, hinfo _ hioctl, lt_self_iff_false, if_false, neg_lt_zero, if_true]
        exact .refused (justOpened_returned hK heq hioctl rfl)
    · -- Somebody has the device open.
      simp only [heq, neg_lt_zero, if_true]
      exact .failed

/-! ### The REPL -/

/-- A command follows its session, or the client is killed and the device is as it was. -/
theorem follows_execute {env : ReplEnv} (hK : K env.toEnv)
    {parseUint : (base bitSize : ℕ) → GoString → Except ε UInt64} {passing : StructPassing}
    (cmd : Command) (repl : Repl) :
    (∃ o, (Repl.execute env parseUint passing cmd repl).1 = .error (.failure (.killed o))) ∧
        repl.session.Reaches K (Repl.execute env parseUint passing cmd repl).2.session ∨
      repl.session.Follows K (Repl.execute env parseUint passing cmd repl).2.session := by
  have hcases : CommandOutcome env parseUint passing cmd repl
    (Repl.execute env parseUint passing cmd repl) := execute_cases repl cmd
  generalize Repl.execute env parseUint passing cmd repl = res at hcases
  cases hcases with
  | refused _ _ _ => exact Or.inr (.refl _)
  | empty _ _ => exact Or.inr (.refl _)
  | killed _ _ => exact Or.inl ⟨⟨_, rfl⟩, Session.reaches_killed _ _ _⟩
  | failed _ hioctl _ => exact Or.inr (Session.follows_returned hK hioctl)
  | succeeded _ _ hioctl _ => exact Or.inr (Session.follows_returned hK hioctl)

theorem follows_executeNamed {host : Host ε} {env : ReplEnv} (hK : K env.toEnv) (name : GoString)
    (args : List GoString) (repl : Repl) :
    (∃ o, (Repl.executeNamed host env name args repl).1 = .killed o) ∧
        repl.session.Reaches K (Repl.executeNamed host env name args repl).2.session ∨
      repl.session.Follows K (Repl.executeNamed host env name args repl).2.session := by
  unfold Repl.executeNamed
  split
  · exact Or.inr (.refl _)
  · exact Or.inr (.refl _)
  · exact Or.inr (.refl _)
  · rename_i name _
    have hexec := @follows_execute ε K env hK host.parseUint host.passing ⟨name, args⟩ repl
    cases hout : Repl.execute env host.parseUint host.passing ⟨name, args⟩ repl with
    | mk res repl' =>
      rw [hout] at hexec
      rcases hexec with ⟨⟨o, ho⟩, hreach⟩ | hfollows
      · obtain rfl : res = .error (.failure (.killed o)) := ho
        exact Or.inl ⟨⟨o, rfl⟩, hreach⟩
      · -- Every other outcome goes on with the session the command left.
        split
        · rename_i heq
          rw [← (Prod.mk.inj heq).2]
          exact Or.inl ⟨⟨_, rfl⟩, hfollows.reaches⟩
        · rename_i heq
          rw [← (Prod.mk.inj heq).2]
          exact Or.inr hfollows

/-- The loop follows its session, whatever is typed, until the client is killed. -/
theorem follows_runLoop {host : Host ε} (inputs : List (ReplEnv × Input)) :
    ∀ repl : Repl, (∀ input ∈ inputs, K input.1.toEnv) →
      (∃ o, (Repl.runLoop host inputs repl).1 = .killed o) ∧
          repl.session.Reaches K (Repl.runLoop host inputs repl).2.session ∨
        repl.session.Follows K (Repl.runLoop host inputs repl).2.session := by
  induction inputs with
  | nil => exact fun repl _ => Or.inr (.refl _)
  | cons input rest ih =>
    intro repl hK
    rw [List.forall_mem_cons] at hK
    obtain ⟨env, input⟩ := input
    cases input with
    -- A line that is no command leaves the session alone, and the loop goes on.
    | interrupt => exact ih repl hK.2
    | eof => exact Or.inr (.refl _)
    | failed => exact Or.inr (.refl _)
    | line line =>
      unfold Repl.runLoop
      by_cases hempty : trimSpace line = []
      · simp only [hempty, if_true]
        exact ih repl hK.2
      · simp only [hempty, if_false]
        cases parseCommand host (trimSpace line) with
        | none => exact ih repl hK.2
        | some cmd =>
          obtain ⟨name, args⟩ := cmd
          have hexec := @follows_executeNamed ε K host env hK.1 name args repl
          cases hout : Repl.executeNamed host env name args repl with
          | mk next repl' =>
            rw [hout] at hexec
            simp only [hout]
            cases next with
            | killed o =>
              rcases hexec with ⟨-, hreach⟩ | hfollows
              · exact Or.inl ⟨⟨o, rfl⟩, hreach⟩
              · exact Or.inl ⟨⟨o, rfl⟩, hfollows.reaches⟩
            | quit =>
              rcases hexec with ⟨⟨o, ho⟩, -⟩ | hfollows
              · cases ho
              · exact Or.inr hfollows
            | «continue» =>
              rcases hexec with ⟨⟨o, ho⟩, -⟩ | hfollows
              · cases ho
              · exact (ih repl' hK.2).imp (And.imp_right hfollows.reaches_trans) hfollows.trans

/-! ### The whole program -/

/-- How the program can end: without a file on the device, or after a session on it, which the
kernel closes when it kills the client too.  Or it has not ended and reads. -/
inductive MainOutcome (K : Env → Prop) (dev : MtdpartctlDevice) : MainResult → Prop
  | notOpened (code : ℕ) : MainOutcome K dev ⟨.status code, dev, []⟩
  | ended {opened dev' : MtdpartctlDevice} {log : List (Ioctl × Except Oops Int)} (code : ℕ) :
      mtdpartctlChrdevOpen dev = (0, opened) → IoctlRun K opened log dev' →
      MainOutcome K dev ⟨.status code, mtdpartctlChrdevRelease dev', log⟩
  | killed {opened dev' : MtdpartctlDevice} {log issued : List (Ioctl × Except Oops Int)}
      (o : Oops) : mtdpartctlChrdevOpen dev = (0, opened) → IoctlRun K opened log dev' →
      MainOutcome K dev ⟨.killed o, mtdpartctlChrdevRelease dev', issued⟩
  | reading {opened dev' : MtdpartctlDevice} {log : List (Ioctl × Except Oops Int)} :
      mtdpartctlChrdevOpen dev = (0, opened) → IoctlRun K opened log dev' →
      MainOutcome K dev ⟨.reading, dev', log⟩

section Program

variable {dev : MtdpartctlDevice} {session : Session}

theorem JustOpened.exit (h : JustOpened K dev session) (code : ℕ) :
    MainOutcome K dev (session.exit (.status code)) :=
  .ended code h.opens h.run

/-- What followed the open is on the log of the whole session. -/
theorem JustOpened.append (h : JustOpened K dev session) {session' : Session}
    (hfollows : (Session.start session.dev).Follows K session') :
    IoctlRun K session.dev (session.issued ++ session'.issued) session'.dev := by
  obtain ⟨log, hlog, hrun⟩ := hfollows
  have hissued : session'.issued = log := hlog
  rw [hissued]
  exact h.run.append hrun

theorem JustOpened.exit_append (h : JustOpened K dev session) {session' : Session}
    (hfollows : (Session.start session.dev).Follows K session') (code : ℕ) :
    MainOutcome K dev ((session.append session').exit (.status code)) :=
  .ended code h.opens (h.append hfollows)

theorem JustOpened.exit_killed (h : JustOpened K dev session) {session' : Session}
    (hreach : (Session.start session.dev).Reaches K session') (o : Oops) :
    MainOutcome K dev ((session.append session').exit (.killed o)) := by
  obtain ⟨log, hrun⟩ := hreach
  exact .killed o h.opens (h.run.append hrun)

/-- A call of `main` gives its status to the program. -/
theorem exitAfter_cases (session : Session) (x : ClientM ε Unit) :
    (∃ session', x.outcome (.start session.dev) = (.ok (), session') ∧
      session.exitAfter x = (session.append session').exit (.status 0)) ∨
    (∃ err session', x.outcome (.start session.dev) = (.error (.returned err), session') ∧
      session.exitAfter x = (session.append session').exit (.status 1)) ∨
    ∃ o session', x.outcome (.start session.dev) = (.error (.killed o), session') ∧
      session.exitAfter x = (session.append session').exit (.killed o) := by
  unfold Session.exitAfter
  cases hout : x.outcome (.start session.dev) with
  | mk res session' =>
    cases res with
    | ok _ => exact Or.inl ⟨session', rfl, rfl⟩
    | error failure =>
      cases failure with
      | returned err => exact Or.inr (Or.inl ⟨err, session', rfl, rfl⟩)
      | killed o => exact Or.inr (Or.inr ⟨o, session', rfl, rfl⟩)

theorem JustOpened.exitAfter (h : JustOpened K dev session) {x : ClientM ε Unit}
    (hx : Tracks K x) : MainOutcome K dev (session.exitAfter x) := by
  have hcases := hx (.start session.dev)
  rcases exitAfter_cases session x with
    ⟨session', hout, heq⟩ | ⟨err, session', hout, heq⟩ | ⟨o, session', hout, heq⟩
  · rw [hout] at hcases
    rcases hcases with ⟨⟨o, ho⟩, -⟩ | hfollows
    · cases ho
    · rw [heq]
      exact h.exit_append hfollows 0
  · rw [hout] at hcases
    rcases hcases with ⟨⟨o, ho⟩, -⟩ | hfollows
    · cases ho
    · rw [heq]
      exact h.exit_append hfollows 1
  · rw [hout] at hcases
    rw [heq]
    rcases hcases with ⟨-, hreach⟩ | hfollows
    · exact h.exit_killed hreach o
    · exact h.exit_killed hfollows.reaches o

theorem follows_run {host : Host ε} (hK : host.All K) (repl : Repl) :
    (∃ o, (Repl.run host repl).1 = .killed o) ∧
        repl.session.Reaches K (Repl.run host repl).2.session ∨
      repl.session.Follows K (Repl.run host repl).2.session := by
  unfold Repl.run
  split_ifs
  · exact follows_runLoop host.inputs repl hK.inputs
  · exact Or.inr (.refl _)

theorem JustOpened.mainOpened (h : JustOpened K dev session) {host : Host ε} (hK : host.All K)
    (flags : Flags) : MainOutcome K dev (mainOpened host flags session) := by
  unfold Client.mainOpened
  split_ifs
  · exact h.exitAfter ((tracks_ioctl (fun _ => hK.env 0) _).bind tracks_checkRc)
  · cases host.readConfig flags.configFile with
    | none => exact h.exit 1
    | some rows => exact h.exitAfter (tracks_useConfigFile hK.env rows)
  · have hrun := follows_run hK (.new session.dev)
    cases hout : Repl.run host (.new session.dev) with
    | mk res repl =>
      rw [hout] at hrun
      cases res with
      | killed o =>
        rcases hrun with ⟨-, hreach⟩ | hfollows
        · exact h.exit_killed hreach o
        · exact h.exit_killed hfollows.reaches o
      | reading =>
        rcases hrun with ⟨⟨o, ho⟩, -⟩ | hfollows
        · cases ho
        · exact .reading h.opens (h.append hfollows)
      | returned failed =>
        rcases hrun with ⟨⟨o, ho⟩, -⟩ | hfollows
        · cases ho
        · exact h.exit_append hfollows _

/-- How far `main` comes: the arguments, the file, its information, and what the flags ask for. -/
inductive MainPath (K : Env → Prop) (host : Host ε) (flags : Flags) (dev : MtdpartctlDevice) :
    MainResult → Prop
  | notOpened {code : ℕ} : code ≠ 0 → MainPath K host flags dev ⟨.status code, dev, []⟩
  | refused {session : Session} : JustOpened K dev session →
      MainPath K host flags dev (session.exit (.status 1))
  | panicked {session : Session} : JustOpened K dev session →
      MainPath K host flags dev (session.exit (.status 2))
  | infoOnly {session : Session} : flags.infoOnly = true → JustOpened K dev session →
      MainPath K host flags dev (session.exit (.status 0))
  | opened {session : Session} : flags.infoOnly = false → JustOpened K dev session →
      MainPath K host flags dev (mainOpened host flags session)

theorem main_path {host : Host ε} (hK : K host.infoEnv.toEnv) (flags : Flags)
    (dev : MtdpartctlDevice) : MainPath K host flags dev (main host flags dev) := by
  unfold main
  split
  · rename_i path _
    have hopen := openDevice_cases hK path dev
    generalize host.openDevice path dev = res at hopen
    cases hopen with
    | failed => exact .notOpened one_ne_zero
    | refused h => exact .refused h
    | opened h =>
      simp only
      cases hinfo : flags.infoOnly with
      | true =>
        rw [if_pos (Bool.true_or _)]
        cases printInfo _ with
        | error _ => exact .panicked h
        | ok _ => exact .infoOnly hinfo h
      | false =>
        -- `-verbose` prints the same and goes on.
        by_cases hverbose : flags.verbose = true
        · rw [if_pos (by rw [hverbose]; rfl)]
          cases printInfo _ with
          | error _ => exact .panicked h
          | ok _ => exact .opened hinfo h
        · rw [if_neg (by rw [Bool.false_or]; exact hverbose)]
          exact .opened hinfo h
  · -- The number of arguments is wrong.
    exact .notOpened two_ne_zero

/-- The device is a run away from where the client found it. -/
theorem MainOutcome.run {result : MainResult} (h : MainOutcome K dev result) {env : Env}
    (hK : K env) : ∃ es, deviceSystem.run dev es = some result.dev ∧ ∀ e ∈ es, K e.1 := by
  -- Open, the ioctls of the session, and the close when the client has ended.
  have hsession : ∀ {opened dev' : MtdpartctlDevice} {log : List (Ioctl × Except Oops Int)},
      mtdpartctlChrdevOpen dev = (0, opened) → IoctlRun K opened log dev' →
      ∃ es, deviceSystem.run dev es = some dev' ∧ ∀ e ∈ es, K e.1 := by
    intro opened dev' log hopen hioctls
    obtain ⟨es, hes, hKes, -⟩ := hioctls.run
    have hopened : deviceSystem.step dev (env, .open) = some opened := by
      simp only [deviceSystem, deviceCall, hopen]
      rfl
    refine ⟨(env, .open) :: es, ?_, List.forall_mem_cons.mpr ⟨hK, hKes⟩⟩
    rw [TransitionSystem.run, hopened, Option.bind_some, hes]
  have hclosed : ∀ {dev' : MtdpartctlDevice},
      (∃ es, deviceSystem.run dev es = some dev' ∧ ∀ e ∈ es, K e.1) →
      ∃ es, deviceSystem.run dev es = some (mtdpartctlChrdevRelease dev') ∧ ∀ e ∈ es, K e.1 := by
    rintro dev' ⟨es, hes, hKes⟩
    refine ⟨es ++ [(env, .release)], ?_, fun e he => ?_⟩
    · rw [TransitionSystem.run_append, hes]
      rfl
    · rcases List.mem_append.mp he with he | he
      · exact hKes e he
      · rw [List.mem_singleton.mp he]
        exact hK
  cases h with
  | notOpened _ => exact ⟨[], rfl, fun e he => absurd he List.not_mem_nil⟩
  | ended _ hopen hioctls => exact hclosed (hsession hopen hioctls)
  | killed _ hopen hioctls => exact hclosed (hsession hopen hioctls)
  | reading hopen hioctls => exact hsession hopen hioctls

/-- A client that has ended leaves a closed device closed. -/
theorem MainOutcome.alreadyOpen {result : MainResult} (h : MainOutcome K dev result)
    (hclosed : dev.alreadyOpen = false) (hended : result.exit ≠ .reading) :
    result.dev.alreadyOpen = false := by
  cases h with
  | notOpened _ => exact hclosed
  | ended _ _ _ => rfl
  | killed _ _ _ => rfl
  | reading _ _ => exact absurd rfl hended

end Program

/-- Every allocation, copy and core call succeeds. -/
def ReplEnv.keeping : ReplEnv := { ReplEnv.succeeding with toClientEnv := .keeping }

/-- The line `status`. -/
def statusLine : GoString := ascii "status"

/-- A host with the control device, one configuration file and a user who looks at the recipe and
leaves. -/
def oneRowHost : Host Unit where
  node _ := .controlDevice
  readConfig _ := some [oneRow]
  terminal := true
  parseWords line := some [line]
  parseUint _ _ := parseTwo
  passing := .byReference
  infoEnv := .keeping
  env _ := .keeping
  inputs := [(.keeping, .line statusLine), (.keeping, .interrupt), (.keeping, .eof)]

/-- The command line without flags. -/
def plainFlags : Flags := ⟨false, false, false, [], [ascii "/dev/mtdpartctl0"]⟩

theorem oneRowHost_all {size : UInt64} (hsize : size.toNat < 2 ^ 63) :
    oneRowHost.All fun env => env.core.KeepsTable size where
  infoEnv := MtdCore.keepsTable_keeping hsize
  env _ := MtdCore.keepsTable_keeping hsize
  inputs input hinput := by
    simp only [oneRowHost, List.mem_cons, List.not_mem_nil, or_false] at hinput
    rcases hinput with rfl | rfl | rfl <;> exact MtdCore.keepsTable_keeping hsize

end Mtdpartikr.Client
