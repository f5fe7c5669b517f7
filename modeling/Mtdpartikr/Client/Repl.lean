import Mtdpartikr.Client.ConfigFile
import Mtdpartikr.Client.Wrappers

/-!
# The interactive client

The commands of the REPL of `user/mtdpartctl/main.go` that work on the device, with the wrappers
of `user/common/dev.c` they call.  A command gets the arguments that `shellwords.Parse` split off;
`strconv.ParseUint` is the parameter `parseUint`, with its base and bit size first.

A command makes at most one ioctl, so the environment of that ioctl comes with the command.  What
it prints to the standard output is part of its result; errors go to another stream.
-/

namespace Mtdpartikr.Client

/-- The commands of the REPL that work on the device. -/
inductive CommandName where
  | addImm | dispatchRecipe | addRecipePart | delRecipePart | deleteAll | delete | status | reset
  deriving DecidableEq

/-- `type Command struct`. -/
structure Command where
  name : CommandName
  args : List GoString
  deriving DecidableEq

/-- `type REPL struct`; the file is the device of the session. -/
structure Repl where
  session : Session
  recipePartsCount : UInt64

/-- `NewREPL` on a device that has just been opened. -/
def Repl.new (dev : MtdpartctlDevice) : Repl := ⟨.start dev, 0⟩

/-- What the kernel and the C library around a command decide. -/
structure ReplEnv extends ClientEnv where
  /-- The stack of `__go_mtdpartctl_add_new_partition`. -/
  frame : CallFrame
  /-- Whether `malloc` returns memory. -/
  malloc : Bool
  /-- What the list in that memory holds before the ioctl. -/
  heap : ℕ → ExtMtdPartitionInfo

/-- The errors a command returns. -/
inductive ReplError (ε : Type) where
  /-- `"invalid argument count"`. -/
  | argumentCount
  | failure (failure : Failure ε)
  deriving DecidableEq

section Repl

variable {ε : Type}

/-- A command on the REPL: its error, or the lines it printed. -/
abbrev Handler (ε : Type) : Type := Repl → Except (ReplError ε) (List GoString) × Repl

/-- Runs the calls of a command and, if none of them failed, updates the counter. -/
def Repl.call (x : ClientM ε (List GoString)) (update : UInt64 → UInt64) : Handler ε :=
  fun repl => match x.outcome repl.session with
    | (.ok lines, session) => (.ok lines, ⟨session, update repl.recipePartsCount⟩)
    | (.error failure, session) => (.error (.failure failure), { repl with session := session })

/-- `verifyCount` failed. -/
def Repl.refuse : Handler ε := fun repl => (.error .argumentCount, repl)

/-- `if rc < 0 { return fmt.Errorf("ioctl result: %d\n", rc) }`. -/
def checkRc (rc : Int) : ClientM ε Unit :=
  if rc < 0 then throw (.returned (.ioctlResult rc)) else pure ()

variable (env : ReplEnv)

/-! ### Wrappers of `dev.c` -/

/-- `mtdpartctl_recipe_del_part`: the index goes into a `u32`. -/
def mtdpartctlRecipeDelPart (index : UInt64) : ClientM ε Int :=
  let tmp := index.toUInt32
  ioctl (fun _ => env.toClientEnv) fun env =>
    .recipeDelPart (if env.copyFromUser then some tmp else none)

def mtdpartctlRecipeRestart : ClientM ε Int :=
  ioctl (fun _ => env.toClientEnv) fun _ => .restartRecipe

def mtdpartctlDeleteMtdPartitions : ClientM ε Int :=
  ioctl (fun _ => env.toClientEnv) fun _ => .deleteMtdPartitions

def mtdpartctlDeletePartition (idx : UInt32) : ClientM ε Int :=
  ioctl (fun _ => env.toClientEnv) fun env =>
    .delMtdPartition (if env.copyFromUser then some idx else none)

/-- `ioctl` with what it wrote to its argument. -/
def ioctlReply (cmd : ClientEnv → Ioctl) : ClientM ε (Int × Reply) := do
  let session ← get
  let cmd := cmd env.toClientEnv
  match mtdpartctlChrdevIoctl env.toEnv session.dev cmd with
  | .ok result =>
    set { dev := result.dev
          issued := session.issued ++ [(cmd, .ok result.ret)]
          calls := session.calls ++ result.calls : Session }
    return (result.ret, result.reply)
  | .error o =>
    set { session with issued := session.issued ++ [(cmd, Except.error o)] }
    throw (.killed o)

def yesNo (b : Bool) : GoString := if b then ascii "yes" else ascii "no"

/-- The line `mtdpartctl_recipe_print_parts` prints for an entry. -/
def partLine (idx : ℕ) (info : ExtMtdPartitionInfo) : GoString :=
  ascii "Partition " ++ ascii (toString idx) ++ ascii ": " ++ strBytes info.base.name.bytes ++
    ascii ", offset " ++ ascii (toString info.base.offset.toNat) ++
    ascii ", length " ++ ascii (toString info.base.length.toNat) ++
    ascii ", readonly: " ++ yesNo info.readonly ++
    ascii ", powerup_lock_enabled: " ++ yesNo info.powerupLockEnabled

/-- `list->parts[idx]` once the ioctl has written to it. -/
def listPart (reply : Reply) (idx : ℕ) : ExtMtdPartitionInfo :=
  match reply with
  | .recipeParts writes _ => (writes.lookup idx).getD (env.heap idx)
  | _ => env.heap idx

/-- `list->read_count` once the ioctl has written to it. -/
def listReadCount (maxIndex : UInt64) : Reply → UInt32
  | .recipeParts _ (some readCount) => readCount
  | _ => maxIndex.toUInt32

/-- `mtdpartctl_recipe_print_parts`: its return value and the lines. -/
def mtdpartctlRecipePrintParts (maxIndex : UInt64) : ClientM ε (Int × List GoString) := do
  if !env.malloc then
    return (neg .ENOMEM, [])
  let (ret, reply) ← ioctlReply env fun env =>
    .listRecipeParts (if env.copyFromUser then some maxIndex.toUInt32 else none)
  if ret < 0 then
    return (ret, [])
  return (ret, (List.range (listReadCount maxIndex reply).toNat).map fun idx =>
    partLine idx (listPart env reply idx))

/-! ### Commands -/

section Commands

variable (parseUint : (base bitSize : ℕ) → GoString → Except ε UInt64) (passing : StructPassing)

/-- An argument that is a number. -/
def parseArgument (base bitSize : ℕ) (arg : GoString) : ClientM ε UInt64 :=
  returnErr ((parseUint base bitSize arg).mapError .invalidArgument)

def cmdAddImmediate : List GoString → Handler ε
  | [offsetStr, lengthStr, name] =>
    Repl.call (do
      let offset ← parseArgument parseUint 0 64 offsetStr
      let length ← parseArgument parseUint 0 64 lengthStr
      let rc ← ioctl (fun _ => env.toClientEnv) fun _ =>
        goMtdpartctlAddNewPartition passing env.frame offset length name
      checkRc rc
      return []) (· + 1)
  | _ => Repl.refuse

def cmdAddRecipePart : List GoString → Handler ε
  | [offsetStr, lengthStr, name, flags] =>
    Repl.call (do
      addRecipePart (parseUint 0 64) (fun _ => env.toClientEnv) offsetStr lengthStr name flags
      return []) (· + 1)
  | [offsetStr, lengthStr, name] =>
    Repl.call (do
      addRecipePart (parseUint 0 64) (fun _ => env.toClientEnv) offsetStr lengthStr name []
      return []) (· + 1)
  | _ => Repl.refuse

def cmdDeleteRecipePart : List GoString → Handler ε
  | [arg] =>
    Repl.call (do
      -- a bit size of 0 is that of `uint`
      let index ← parseArgument parseUint 10 0 arg
      let rc ← mtdpartctlRecipeDelPart env index
      checkRc rc
      return []) (· - 1)
  | _ => Repl.refuse

def cmdDeleteImmediate : List GoString → Handler ε
  | [arg] =>
    Repl.call (do
      let index ← parseArgument parseUint 10 32 arg
      let rc ← mtdpartctlDeletePartition env index.toUInt32
      checkRc rc
      return []) id
  | _ => Repl.refuse

def cmdDeleteAll : List GoString → Handler ε
  | [] =>
    Repl.call (do
      let rc ← mtdpartctlDeleteMtdPartitions env
      checkRc rc
      return []) id
  | _ => Repl.refuse

def cmdDispatchRecipe : List GoString → Handler ε
  | [] =>
    Repl.call (do
      let rc ← mtdpartctlRecipeCreatePartitions fun _ => env.toClientEnv
      checkRc rc
      return []) id
  | _ => Repl.refuse

def cmdRecipeStatus : List GoString → Handler ε
  | [] => fun repl =>
    if repl.recipePartsCount = 0 then (.ok [ascii "Empty table"], repl)
    else
      Repl.call (do
        let (rc, lines) ← mtdpartctlRecipePrintParts env 255
        checkRc rc
        return lines) id repl
  | _ => Repl.refuse

def cmdRecipeReset : List GoString → Handler ε
  | [] =>
    Repl.call (do
      let rc ← mtdpartctlRecipeRestart env
      checkRc rc
      return []) fun _ => 0
  | _ => Repl.refuse

/-- `execute`, for these commands. -/
def Repl.execute (cmd : Command) : Handler ε :=
  match cmd.name with
  | .addImm => cmdAddImmediate env parseUint passing cmd.args
  | .dispatchRecipe => cmdDispatchRecipe env cmd.args
  | .addRecipePart => cmdAddRecipePart env parseUint cmd.args
  | .delRecipePart => cmdDeleteRecipePart env parseUint cmd.args
  | .deleteAll => cmdDeleteAll env cmd.args
  | .delete => cmdDeleteImmediate env parseUint cmd.args
  | .status => cmdRecipeStatus env cmd.args
  | .reset => cmdRecipeReset env cmd.args

end Commands

/-- The loop of `Run` on a device that nobody else uses: an error is printed and the loop goes on;
an ioctl that does not return ends the client. -/
def replSystem (parseUint : (base bitSize : ℕ) → GoString → Except ε UInt64)
    (passing : StructPassing) : TransitionSystem Repl (ReplEnv × Command) where
  init repl := ∃ dev, Reachable dev ∧ dev.alreadyOpen = false ∧
    repl = .new (mtdpartctlChrdevOpen dev).2
  step repl e := match Repl.execute e.1 parseUint passing e.2 repl with
    | (.error (.failure (.killed _)), _) => none
    | (_, repl') => some repl'

end Repl

end Mtdpartikr.Client
