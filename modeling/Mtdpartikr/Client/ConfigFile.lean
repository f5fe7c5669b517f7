import Mtdpartikr.Kernel.Ioctl

/-!
# Applying a configuration file

`useConfigFile` of `user/mtdpartctl/main.go` with everything it calls on the way to the device:
`addRecipePart` and `parseRecipeFlags`, the request encoder `__go_mtdpartctl_recipe_add_part` and
`mtdpartctl_recipe_create_partitions` of `user/common/dev.c`, and the ioctl handlers.

The rows are what the YAML decoder made of the file.  `strconv.ParseUint` is the parameter
`parseUint`.  A run carries a `Session`: the device, the ioctls issued so far with their outcomes,
and the calls made into the MTD core.
-/

namespace Mtdpartikr.Client

/-! ### Go strings -/

/-- A Go string: any bytes. -/
abbrev GoString : Type := List UInt8

/-- The bytes of an ASCII literal. -/
def ascii (s : String) : GoString := s.toList.map fun c => UInt8.ofNat c.toNat

/-- The UTF-8 encodings of the code points for which `unicode.IsSpace` holds. -/
def isSpaceRune : List UInt8 → Bool
  -- U+0009 to U+000D and U+0020
  | [a] => a = 0x20 || (0x09 ≤ a && a ≤ 0x0d)
  -- U+0085 and U+00A0
  | [a, b] => a = 0xc2 && (b = 0x85 || b = 0xa0)
  -- U+1680, U+2000 to U+200A, U+2028, U+2029, U+202F, U+205F and U+3000
  | [a, b, c] =>
    (a = 0xe1 && b = 0x9a && c = 0x80) ||
    (a = 0xe2 && b = 0x80 && ((0x80 ≤ c && c ≤ 0x8a) || c = 0xa8 || c = 0xa9 || c = 0xaf)) ||
    (a = 0xe2 && b = 0x81 && c = 0x9f) ||
    (a = 0xe3 && b = 0x80 && c = 0x80)
  | _ => false

/-- Drops runes of up to three bytes from the front for as long as `isRune` holds of them. -/
def dropRunes (isRune : List UInt8 → Bool) : List UInt8 → List UInt8
  | [] => []
  | [a] => if isRune [a] then [] else [a]
  | [a, b] =>
    if isRune [a] then dropRunes isRune [b] else if isRune [a, b] then [] else [a, b]
  | a :: b :: c :: rest =>
    if isRune [a] then dropRunes isRune (b :: c :: rest)
    else if isRune [a, b] then dropRunes isRune (c :: rest)
    else if isRune [a, b, c] then dropRunes isRune rest
    else a :: b :: c :: rest

/-- `strings.TrimSpace`: from the left, then from the right. -/
def trimSpace (s : GoString) : GoString :=
  (dropRunes (fun rune => isSpaceRune rune.reverse) (dropRunes isSpaceRune s).reverse).reverse

/-- `strings.Split(s, ",")`. -/
def splitComma (s : GoString) : List GoString := s.splitOn 0x2c

/-! ### A run of the client -/

/-- `type Partition struct`. -/
structure Partition where
  name : GoString
  offset : GoString
  length : GoString
  flags : GoString
  deriving DecidableEq

/-- The errors `useConfigFile` returns once the file is decoded; `ε` is the type of the errors of
`strconv.ParseUint`. -/
inductive ClientError (ε : Type) where
  /-- `"invalid flag: %q\n"`. -/
  | invalidFlag (flag : GoString)
  /-- `"invalid argument: %s\n"`. -/
  | invalidArgument (err : ε)
  /-- `"ioctl result: %d\n"`. -/
  | ioctlResult (rc : Int)
  deriving DecidableEq

/-- How a call of the client ends early: it returns an error, or the kernel kills the process in
an ioctl that does not return. -/
inductive Failure (ε : Type) where
  | returned (err : ClientError ε)
  | killed (o : Oops)
  deriving DecidableEq

/-- What the kernel around the module decides during one ioctl, the fetch of the argument
included. -/
structure ClientEnv extends Env where
  /-- Whether `copy_from_user` fetches everything. -/
  copyFromUser : Bool

/-- The device, the ioctls issued on it, oldest first, each with the value it returned, and the
calls that were made into the MTD core. -/
structure Session where
  dev : MtdpartctlDevice
  issued : List (Ioctl × Except Oops Int)
  calls : List CoreCall

/-- A device right after it has been opened. -/
def Session.start (dev : MtdpartctlDevice) : Session := ⟨dev, [], []⟩

/-- A function of the client: it works on the session and may end early. -/
abbrev ClientM (ε : Type) : Type → Type := ExceptT (Failure ε) (StateM Session)

section Client

variable {ε : Type} {α : Type}

/-- How a call ends and the session it leaves. -/
def ClientM.outcome (x : ClientM ε α) (session : Session) : Except (Failure ε) α × Session :=
  Id.run (StateT.run (ExceptT.run x) session)

/-- `if err != nil { return err }`. -/
def returnErr : Except (ClientError ε) α → ClientM ε α
  | .ok a => pure a
  | .error err => throw (.returned err)

/-! ### The flags of a row -/

/-- `map[string]bool`, the latest entry of a key first; a missing key reads as `false`. -/
abbrev FlagMap : Type := List (GoString × Bool)

def FlagMap.get (flags : FlagMap) (flag : GoString) : Bool := (flags.lookup flag).getD false

/-- The loop over the split input, which sets the flags it finds. -/
def parseRecipeFlags.loop : List GoString → FlagMap → Except (ClientError ε) FlagMap
  | [], flags => pure flags
  | flag :: rest, flags =>
    let flag := trimSpace flag
    match flags.lookup flag with
    | none => throw (.invalidFlag flag)
    | some _ => parseRecipeFlags.loop rest ((flag, true) :: flags)

/-- `parseRecipeFlags`: whether the part is writable, and the value of `lockup_enabled`, a key
the map never holds. -/
def parseRecipeFlags (input : GoString) : Except (ClientError ε) (Bool × Bool) := do
  let flagTrimmed := trimSpace input
  let flags : FlagMap := [(ascii "ro", false), (ascii "powerup_lock", false)]
  if flagTrimmed = [] then
    return (!flags.get (ascii "ro"), flags.get (ascii "lockup_enabled"))
  let flags ← parseRecipeFlags.loop (splitComma input) flags
  return (!flags.get (ascii "ro"), flags.get (ascii "lockup_enabled"))

/-! ### Requests -/

/-- The request `__go_mtdpartctl_recipe_add_part` builds; `name` points to the string
`C.CString` copied. -/
def goRecipeAddPartRequest (offset length : UInt64) (name : GoString)
    (writable powerupLockEnabled : Bool) : ExtMtdPartitionInfo :=
  let cs := name ++ [0]
  let nameLen := (strBytes cs).length
  have hsrc : nameLen ≤ cs.length := (List.takeWhile_prefix _).length_le
  { base := {
      offset := offset
      length := length
      name :=
        if hle : nameLen ≤ MTD_PARTITION_NAME_MAX_LENGTH then
          (CBuf.zero MTD_PARTITION_NAME_MAX_LENGTH).memcpy cs nameLen hle hsrc
        else
          (CBuf.zero MTD_PARTITION_NAME_MAX_LENGTH).memcpy cs MTD_PARTITION_NAME_MAX_LENGTH
            le_rfl ((Nat.le_of_lt (Nat.lt_of_not_le hle)).trans hsrc) }
    powerupLockEnabled := powerupLockEnabled
    readonly := !writable }

variable (parseUint : GoString → Except ε UInt64) (env : ℕ → ClientEnv)

/-- `ioctl`, with the return value `INVOKE_IOCTL_WITH_RET_AS_ERRNO` makes of it.  `env n` decides
the session's `n`-th one. -/
def ioctl (cmd : ClientEnv → Ioctl) : ClientM ε Int := do
  let session ← get
  let env := env session.issued.length
  match mtdpartctlChrdevIoctl env.toEnv session.dev (cmd env) with
  | .ok result =>
    set { dev := result.dev
          issued := session.issued ++ [(cmd env, .ok result.ret)]
          calls := session.calls ++ result.calls : Session }
    return result.ret
  | .error o =>
    set { session with issued := session.issued ++ [(cmd env, Except.error o)] }
    throw (.killed o)

def goMtdpartctlRecipeAddPart (offset length : UInt64) (name : GoString)
    (writable powerupLockEnabled : Bool) : ClientM ε Int :=
  ioctl env fun env => .recipeAddPart <|
    if env.copyFromUser then
      some (goRecipeAddPartRequest offset length name writable powerupLockEnabled)
    else none

def mtdpartctlRecipeCreatePartitions : ClientM ε Int :=
  ioctl env fun _ => .recipeCreatePartitions

/-! ### The rows of a file -/

def addRecipePart (offsetStr lengthStr name flags : GoString) : ClientM ε Unit := do
  let (writable, lockupEnabled) ← returnErr (parseRecipeFlags flags)
  let offset ← returnErr ((parseUint offsetStr).mapError .invalidArgument)
  let length ← returnErr ((parseUint lengthStr).mapError .invalidArgument)
  let rc ← goMtdpartctlRecipeAddPart env offset length name writable lockupEnabled
  if rc < 0 then throw (.returned (.ioctlResult rc))

/-- The loop over the rows. -/
def useConfigFile.loop : List Partition → ClientM ε Unit
  | [] => pure ()
  | partition :: rest => do
    addRecipePart parseUint env partition.offset partition.length partition.name partition.flags
    useConfigFile.loop rest

/-- `useConfigFile` from the decoded rows on. -/
def useConfigFile (partitions : List Partition) : ClientM ε Unit := do
  useConfigFile.loop parseUint env partitions
  let rc ← mtdpartctlRecipeCreatePartitions env
  if rc < 0 then throw (.returned (.ioctlResult rc))

end Client

end Mtdpartikr.Client
