import Mtdpartikr.Client.HumanBytes
import Mtdpartikr.Client.Repl

/-!
# The client as a program

`main`, `openDevice` and the loop `Run` of `user/mtdpartctl/main.go`, from the parsed command line
to the exit status.  `Host` is what lies around the program: the file system, `yaml.Unmarshal`,
`shellwords.Parse`, `strconv.ParseUint`, the terminal and the kernel.  The help texts and the
messages on the standard error are left out.

`clientSystem` is one control device under clients that run one after another.
-/

namespace Mtdpartikr.Client

/-! ### The command line and the host -/

/-- What `flag.Parse` makes of the command line. -/
structure Flags where
  infoOnly : Bool
  verbose : Bool
  resetProxy : Bool
  configFile : GoString
  /-- `flag.Args()`. -/
  args : List GoString

/-- What a path leads to. -/
inductive Node where
  /-- `os.OpenFile` fails. -/
  | unopenable
  /-- A file whose driver refuses the ioctl with this error number. -/
  | foreign (errno : ℕ)
  | controlDevice

/-- What `Readline` returns. -/
inductive Input where
  | line (line : GoString)
  /-- `readline.ErrInterrupt`. -/
  | interrupt
  /-- `io.EOF`. -/
  | eof
  /-- Any other error. -/
  | failed

structure Host (ε : Type) where
  node : GoString → Node
  /-- `os.ReadFile` and `yaml.Unmarshal`; `none` when one of them fails. -/
  readConfig : GoString → Option (List Partition)
  /-- Whether `readline.NewEx` succeeds. -/
  terminal : Bool
  /-- `shellwords.Parse`. -/
  parseWords : GoString → Option (List GoString)
  parseUint : (base bitSize : ℕ) → GoString → Except ε UInt64
  passing : StructPassing
  /-- What the kernel decides during the ioctl of `openDevice`. -/
  infoEnv : ReplEnv
  /-- What it decides during the `n`-th one after it, when there is no REPL. -/
  env : ℕ → ReplEnv
  /-- What the user types, with what the kernel decides during the command. -/
  inputs : List (ReplEnv × Input)

/-! ### Opening the device -/

/-- What `openDevice` leaves. -/
inductive OpenResult where
  /-- The client has no file on the control device. -/
  | failed (dev : MtdpartctlDevice)
  /-- `MTDPARTCTL_IOC_GET_INFO` failed; the file stays open. -/
  | refused (session : Session)
  | killed (o : Oops) (session : Session)
  | opened (info : MtdpartctlInfo) (session : Session)

def mtdpartctlGetInfo {ε : Type} (env : ReplEnv) : ClientM ε (Int × Reply) :=
  ioctlReply env fun _ => .getInfo

/-- `mtdpartctl_info` once the ioctl has written to it. -/
def infoOfReply : Reply → MtdpartctlInfo
  | .info info => info
  | _ => ⟨0, 0, 0, 0⟩

section Main

variable {ε : Type}

def Host.openDevice (host : Host ε) (devicePath : GoString) (dev : MtdpartctlDevice) : OpenResult :=
  match host.node devicePath with
  | .unopenable => .failed dev
  | .foreign _ => .failed dev
  | .controlDevice =>
    let (ret, dev) := mtdpartctlChrdevOpen dev
    if ret < 0 then .failed dev
    else
      match (mtdpartctlGetInfo host.infoEnv : ClientM ε (Int × Reply)).outcome (.start dev) with
      | (.error (.killed o), session) => .killed o session
      | (.error (.returned _), session) => .refused session
      | (.ok (rc, reply), session) =>
        if rc < 0 then .refused session else .opened (infoOfReply reply) session

/-! ### The REPL -/

/-- The handlers of `NewREPL`. -/
inductive ReplCommand where
  | help
  | device (name : CommandName)
  | exit

/-- `commands` of `NewREPL`, by their names. -/
def commands : List (GoString × ReplCommand) :=
  [(ascii "help", .help),
   (ascii "add_imm", .device .addImm),
   (ascii "dispatch_recipe", .device .dispatchRecipe),
   (ascii "add_recipe_part", .device .addRecipePart),
   (ascii "del_recipe_part", .device .delRecipePart),
   (ascii "delete_all", .device .deleteAll),
   (ascii "delete", .device .delete),
   (ascii "status", .device .status),
   (ascii "reset", .device .reset),
   (ascii "exit", .exit),
   (ascii "quit", .exit)]

/-- How the loop goes on after a line; it prints an error and goes on. -/
inductive Next where
  | continue
  | quit
  | killed (o : Oops)

/-- `parseCommand`: the name and the arguments, none for an error. -/
def parseCommand (host : Host ε) (line : GoString) : Option (GoString × List GoString) :=
  (host.parseWords line).map fun
    | [] => ([], [])
    | name :: args => (name, args)

/-- `execute`: looks the command up and calls its handler. -/
def Repl.executeNamed (host : Host ε) (env : ReplEnv) (name : GoString) (args : List GoString)
    (repl : Repl) : Next × Repl :=
  match commands.lookup name with
  -- `"unknown command %q"`
  | none => (.continue, repl)
  | some .help => (.continue, repl)
  | some .exit => (.quit, repl)
  | some (.device name) =>
    match Repl.execute env host.parseUint host.passing ⟨name, args⟩ repl with
    | (.error (.failure (.killed o)), repl) => (.killed o, repl)
    | (_, repl) => (.continue, repl)

/-- How `Run` ends. -/
inductive RunEnd where
  /-- It returns, with an error or without one. -/
  | returned (failed : Bool)
  | killed (o : Oops)
  /-- It waits for what the user types next. -/
  | reading

/-- The loop of `Run`. -/
def Repl.runLoop (host : Host ε) : List (ReplEnv × Input) → Repl → RunEnd × Repl
  | [], repl => (.reading, repl)
  | (_, .interrupt) :: rest, repl => Repl.runLoop host rest repl
  | (_, .eof) :: _, repl => (.returned false, repl)
  | (_, .failed) :: _, repl => (.returned true, repl)
  | (env, .line line) :: rest, repl =>
    let line := trimSpace line
    if line = [] then Repl.runLoop host rest repl
    else
      match parseCommand host line with
      | none => Repl.runLoop host rest repl
      | some (name, args) =>
        match Repl.executeNamed host env name args repl with
        | (.continue, repl) => Repl.runLoop host rest repl
        | (.quit, repl) => (.returned false, repl)
        | (.killed o, repl) => (.killed o, repl)

def Repl.run (host : Host ε) (repl : Repl) : RunEnd × Repl :=
  if host.terminal then Repl.runLoop host host.inputs repl else (.returned true, repl)

/-! ### `main` -/

/-- How the program ends. -/
inductive Exit where
  | status (code : ℕ)
  | killed (o : Oops)
  /-- It has not ended: the REPL waits for input. -/
  | reading
  deriving DecidableEq

/-- How the program ends, the device after that, and the ioctls issued on it with the values they
returned. -/
structure MainResult where
  exit : Exit
  dev : MtdpartctlDevice
  issued : List (Ioctl × Except Oops Int)

/-- The sizes `main` prints for `-info-only` and `-verbose`. -/
def printInfo (info : MtdpartctlInfo) : Except GoPanic (HumanBytes × HumanBytes) := do
  let eraseSectorSize ← humanBytes info.eraseSectorSize.toUInt64
  let backendMtdSize ← humanBytes info.backendMtdSize
  return (eraseSectorSize, backendMtdSize)

/-- The program ends and the kernel closes its file on the device. -/
def Session.exit (session : Session) (exit : Exit) : MainResult :=
  ⟨exit, mtdpartctlChrdevRelease session.dev, session.issued⟩

/-- A session and then another one on the same file. -/
def Session.append (session session' : Session) : Session :=
  ⟨session'.dev, session.issued ++ session'.issued, session.calls ++ session'.calls⟩

/-- A call of `main` that is followed by `os.Exit`: 1 after an error, 0 otherwise. -/
def Session.exitAfter (session : Session) (x : ClientM ε Unit) : MainResult :=
  match x.outcome (.start session.dev) with
  | (.ok (), session') => (session.append session').exit (.status 0)
  | (.error (.returned _), session') => (session.append session').exit (.status 1)
  | (.error (.killed o), session') => (session.append session').exit (.killed o)

/-- `main` once the device is open and the information about it is printed. -/
def mainOpened (host : Host ε) (flags : Flags) (session : Session) : MainResult :=
  if flags.resetProxy then
    session.exitAfter (ε := ε) do
      let rc ← mtdpartctlDeleteMtdPartitions (host.env 0)
      checkRc rc
  else if flags.configFile ≠ [] then
    match host.readConfig flags.configFile with
    | none => session.exit (.status 1)
    | some partitions =>
      session.exitAfter
        (useConfigFile (host.parseUint 0 64) (fun n => (host.env n).toClientEnv) partitions)
  else
    match Repl.run host (.new session.dev) with
    | (.returned failed, repl) =>
      (session.append repl.session).exit (.status (if failed then 1 else 0))
    | (.killed o, repl) => (session.append repl.session).exit (.killed o)
    | (.reading, repl) => ⟨.reading, repl.session.dev, session.issued ++ repl.session.issued⟩

def main (host : Host ε) (flags : Flags) (dev : MtdpartctlDevice) : MainResult :=
  match flags.args with
  | [devicePath] =>
    match host.openDevice devicePath dev with
    | .failed dev => ⟨.status 1, dev, []⟩
    | .refused session => session.exit (.status 1)
    | .killed o session => session.exit (.killed o)
    | .opened info session =>
      if flags.infoOnly || flags.verbose then
        match printInfo info with
        -- a panic ends the program with the status 2
        | .error _ => session.exit (.status 2)
        | .ok _ =>
          if flags.infoOnly then session.exit (.status 0)
          else mainOpened host flags session
      else mainOpened host flags session
  | _ => ⟨.status 2, dev, []⟩

end Main

end Mtdpartikr.Client
