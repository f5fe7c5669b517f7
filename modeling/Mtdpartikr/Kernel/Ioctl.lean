import Mtdpartikr.Kernel.Respawn
import Mtdpartikr.Lib.Transition

/-!
# The calls of the control device

`mtdpartctl_chrdev_open`, `mtdpartctl_chrdev_release` and `mtdpartctl_chrdev_ioctl` of
`kernel/ctrl_dev.c` as functions on the device, each call run to its end without interruption.
What `copy_from_user` fetches is part of the request (`none` when it faults); every other outcome
the kernel decides (allocations, `copy_to_user`, the MTD core) is in `Env`.

`deviceSystem` is the transition system of one device under such calls and the reference hooks.
-/

namespace Mtdpartikr

/-! ### Opening and releasing -/

def mtdpartctlChrdevOpen (dev : MtdpartctlDevice) : Int × MtdpartctlDevice :=
  -- `atomic_cmpxchg(&already_open, 0, 1)`
  if dev.alreadyOpen then (neg .EBUSY, dev)
  else (0, { dev with alreadyOpen := true, recipe := restartRecipe dev.recipe })

def mtdpartctlChrdevRelease (dev : MtdpartctlDevice) : MtdpartctlDevice :=
  { dev with alreadyOpen := false }

/-! ### Listing -/

section Listing

variable {α β : Type} (entry : α → β) (copyToUser : ℕ → Bool) (partsCount : UInt64)

/-- The copy loop over a list: `item` is the slot the user pointer is at.  Returns the value of
`ret`, the final `tmp_idx` and the entries written with their slots. -/
def copyListToUser.loop : ℕ → UInt32 → List α → Int × UInt32 × List (ℕ × β)
  | _, tmpIdx, [] => (0, tmpIdx, [])
  | item, tmpIdx, part :: rest =>
    if partsCount ≤ tmpIdx.toUInt64 then (0, tmpIdx, [])
    else if !copyToUser item then (neg .EFAULT, tmpIdx, [])
    else
      let (ret, tmpIdx, writes) := copyListToUser.loop (item + 1) (tmpIdx + 1) rest
      (ret, tmpIdx, (item, entry part) :: writes)

/-- The common body of the two listing functions: the return value, the entries written with
their slots and the `read_count` written back. -/
def copyListToUser (parts : List α) : Int × List (ℕ × β) × Option UInt32 :=
  let (ret, tmpIdx, writes) := copyListToUser.loop entry copyToUser partsCount 0 0 parts
  if ret < 0 then (ret, writes, none)
  else if copyToUser writes.length then (ret, writes, some tmpIdx)
  else (neg .EFAULT, writes, none)

end Listing

def copyRecipePartsListToUser (copyToUser : ℕ → Bool) (recipe : MtdRecipe)
    (partsCount : UInt64) : Int × List (ℕ × ExtMtdPartitionInfo) × Option UInt32 :=
  copyListToUser (fun part => {
    base := { offset := part.offset, length := part.length, name := part.name }
    readonly := !part.writable
    powerupLockEnabled := part.powerupLockEnabled }) copyToUser partsCount recipe.partitions

def copyMtdPartsListToUser (copyToUser : ℕ → Bool) (mtd : ProxyMtdInfo) (partsCount : UInt64) :
    Int × List (ℕ × MtdIndexedPartitionInfo) × Option UInt32 :=
  copyListToUser (fun child => {
    absoluteIdx := child.index.toUInt32
    offset := child.offset
    length := child.size }) copyToUser partsCount mtd.partitions

/-! ### `mtdpartctl_chrdev_ioctl` -/

/-- A command with the argument `copy_from_user` fetched for it, `none` when that faults. -/
inductive Ioctl where
  | getInfo
  | addMtdPartition (arg : Option MtdPartitionInfo)
  | delMtdPartition (arg : Option UInt32)
  | recipeAddPart (arg : Option ExtMtdPartitionInfo)
  | recipeDelPart (arg : Option UInt32)
  | recipeCreatePartitions
  | deleteMtdPartitions
  | restartRecipe
  /-- The argument is the list header's `read_count`. -/
  | listRecipeParts (arg : Option UInt32)
  | getPartitionList (arg : Option UInt32)
  /-- Any other command number. -/
  | unknown
  deriving DecidableEq

/-- What the kernel around the module decides during one call. -/
structure Env where
  /-- Whether `kvzalloc` returns memory. -/
  kvzalloc : Bool
  /-- Whether the call's `n`-th `copy_to_user` copies everything. -/
  copyToUser : ℕ → Bool
  core : MtdCore

/-- What a call writes to userspace. -/
inductive Reply where
  | none
  | info (info : MtdpartctlInfo)
  | recipeParts (writes : List (ℕ × ExtMtdPartitionInfo)) (readCount : Option UInt32)
  | mtdParts (writes : List (ℕ × MtdIndexedPartitionInfo)) (readCount : Option UInt32)
  deriving DecidableEq

structure IoctlResult where
  ret : Int
  dev : MtdpartctlDevice
  calls : List CoreCall
  reply : Reply

/-- The fields `MTDPARTCTL_IOC_GET_INFO` reads under `proxy.lock`. -/
def getInfoLocked (dev : MtdpartctlDevice) : MtdpartctlInfo where
  backendMtdIndex := dev.backingMtd.index.toUInt32
  proxyMtdIndex := dev.proxy.mtd.index.toUInt32
  backendMtdSize := dev.backingMtd.size
  eraseSectorSize := dev.backingMtd.erasesize

/-- What `MTDPARTCTL_IOC_ADD_MTD_PARTITION` does before it takes `proxy.lock`. -/
def prepareAddMtdPartition (dev : MtdpartctlDevice) (partInfo : MtdPartitionInfo) :
    Except Oops (Int × MtdPartitionInfo) := do
  let (ret, partInfo) := adaptPossibleFullMtdPartitionLength dev partInfo
  if ret < 0 then
    return (ret, partInfo)
  let ret ← verifyPartitionBasicConditions dev partInfo
  return (ret, partInfo)

def mtdpartctlChrdevIoctl (env : Env) (dev : MtdpartctlDevice) :
    Ioctl → Except Oops IoctlResult
  | .getInfo =>
    if env.copyToUser 0 then return ⟨0, dev, [], .info (getInfoLocked dev)⟩
    else return ⟨neg .EFAULT, dev, [], .none⟩
  | .addMtdPartition none => return ⟨neg .EFAULT, dev, [], .none⟩
  | .addMtdPartition (some partInfo) => do
    let (ret, partInfo) ← prepareAddMtdPartition dev partInfo
    if ret < 0 then
      return ⟨ret, dev, [], .none⟩
    let (ret, proxy, calls) := immediateEditLocked env.core dev.proxy (.add partInfo)
    return ⟨ret, { dev with proxy := proxy }, calls, .none⟩
  | .delMtdPartition none => return ⟨neg .EFAULT, dev, [], .none⟩
  | .delMtdPartition (some idx) =>
    let (ret, proxy, calls) := immediateEditLocked env.core dev.proxy (.del idx)
    return ⟨ret, { dev with proxy := proxy }, calls, .none⟩
  | .recipeAddPart none => return ⟨neg .EFAULT, dev, [], .none⟩
  | .recipeAddPart (some partition) => do
    let (ret, dev) ← addRecipePart dev partition env.kvzalloc
    return ⟨ret, dev, [], .none⟩
  | .recipeDelPart none => return ⟨neg .EFAULT, dev, [], .none⟩
  | .recipeDelPart (some idx) =>
    let (ret, dev) := delRecipePart dev idx
    return ⟨ret, dev, [], .none⟩
  | .recipeCreatePartitions => do
    let (ret, dev, calls) ← createRecipePartitions env.core dev env.kvzalloc
    return ⟨ret, dev, calls, .none⟩
  | .deleteMtdPartitions => do
    let (ret, dev, calls) ← deletePartitions env.core dev
    return ⟨ret, dev, calls, .none⟩
  | .restartRecipe => return ⟨0, { dev with recipe := restartRecipe dev.recipe }, [], .none⟩
  | .listRecipeParts none => return ⟨neg .EFAULT, dev, [], .none⟩
  | .listRecipeParts (some readCount) =>
    if dev.proxy.aboutToRespawn then return ⟨neg .EBUSY, dev, [], .none⟩
    else
      let (ret, writes, count) :=
        copyRecipePartsListToUser env.copyToUser dev.recipe readCount.toUInt64
      return ⟨ret, dev, [], .recipeParts writes count⟩
  | .getPartitionList none => return ⟨neg .EFAULT, dev, [], .none⟩
  | .getPartitionList (some readCount) =>
    if dev.proxy.aboutToRespawn then return ⟨neg .EBUSY, dev, [], .none⟩
    else
      let (ret, writes, count) :=
        copyMtdPartsListToUser env.copyToUser dev.proxy.mtd readCount.toUInt64
      return ⟨ret, dev, [], .mtdParts writes count⟩
  | .unknown => return ⟨neg .EINVAL, dev, [], .none⟩

/-! ### The device under calls that are not interrupted -/

/-- A call on the device, or one of the reference hooks the MTD core calls. -/
inductive DevCall where
  | open
  | release
  | ioctl (cmd : Ioctl)
  | getDevice
  | putDevice
  deriving DecidableEq

/-- One call: its return value and the device after it. -/
def deviceCall (env : Env) (dev : MtdpartctlDevice) :
    DevCall → Except Oops (Int × MtdpartctlDevice)
  | .open => pure (mtdpartctlChrdevOpen dev)
  | .release => pure (0, mtdpartctlChrdevRelease dev)
  | .ioctl cmd => do
    let result ← mtdpartctlChrdevIoctl env dev cmd
    return (result.ret, result.dev)
  | .getDevice =>
    let (ret, proxy) := proxyMtdGetDevice dev.proxy
    pure (ret, { dev with proxy := proxy })
  | .putDevice => do
    let proxy ← proxyMtdPutDevice dev.proxy
    return (0, { dev with proxy := proxy })

/-- A device from its creation on.  A call that does not return ends the run. -/
def deviceSystem : TransitionSystem MtdpartctlDevice (Env × DevCall) where
  init := MtdpartctlDevice.Created
  step dev e := match deviceCall e.1 dev e.2 with
    | .ok (_, dev') => some dev'
    | .error _ => none

/-- The devices reached by any calls. -/
def Reachable (dev : MtdpartctlDevice) : Prop := deviceSystem.Reach (fun _ _ => True) dev

end Mtdpartikr
