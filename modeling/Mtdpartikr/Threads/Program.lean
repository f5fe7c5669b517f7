import Mtdpartikr.Kernel.Ioctl
import Mtdpartikr.Lib.Threads

/-!
# The module under many threads

Every thread runs ioctls of `kernel/ctrl_dev.c` on the open file, or uses the proxy MTD, which
brings it into the hooks of `kernel/proxy_mtd_dev.c`.  A program counter `Pc` is a point between
two accesses of the source; `driver` is the program: the mutex operations where the source has
them, and between two of them the definitions of `Kernel/`.

The mutexes are `recipe.lock`, `proxy.lock` and the MTD core's `mtd_table_mutex`.  The core calls
the module makes take and release `mtd_table_mutex` inside; the core calls the hooks with it held
or without it (`underTable`).  `use_refcnt` is read without a lock by the `BUG_ON` of a respawn
and once more by its test, in two steps.

A `BUG_ON` that fires stops its thread: the action has no result.
-/

namespace Mtdpartikr

open Threads (Instr)

/-- The mutexes: `recipe.lock`, `proxy.lock` and `mtd_table_mutex`. -/
inductive Lock where
  | recipe | proxy | table
  deriving DecidableEq

instance : Fintype Lock := ⟨{.recipe, .proxy, .table}, by intro l; cases l <;> decide⟩

/-- The hooks `_get_device` and `_put_device`. -/
inductive Hook where
  | get | put
  deriving DecidableEq

/-- The ioctls that edit the recipe under its lock. -/
inductive RecipeEdit where
  | add (partition : ExtMtdPartitionInfo)
  | del (idx : UInt32)
  | restart
  deriving DecidableEq

/-- The arguments of `respawn_proxy_mtd_locked`. -/
structure RespawnArgs where
  partitions : Option (List MtdPartition)
  partitionsCount : UInt64
  deriving DecidableEq

/-- The points a thread can be at. -/
inductive Pc where
  /-- Outside of the module, with no reference on the proxy MTD. -/
  | idle
  /-- Outside of the module, with a reference. -/
  | holding
  -- `get_mtd_device` and `put_mtd_device`, with the hook they call
  | hookTable (hook : Hook)
  | hookLock (hook : Hook) (underTable : Bool)
  | hookBody (hook : Hook) (underTable : Bool)
  /-- `held`: whether the thread has a reference now. -/
  | hookUnlock (underTable held : Bool)
  | hookLeave (held : Bool)
  -- `MTDPARTCTL_IOC_GET_INFO`
  | infoLock
  | infoRead
  | infoUnlock
  -- `MTDPARTCTL_IOC_GET_PARTITION_LIST`
  | partsLock
  | partsCheck
  | partsCopy
  | partsUnlock
  -- `MTDPARTCTL_IOC_LIST_RECIPE_PARTS`
  | listLock
  | listCheck
  | listLockRecipe
  | listCopy
  | listUnlockRecipe
  | listUnlock
  -- `MTDPARTCTL_IOC_ADD_MTD_PARTITION` and `MTDPARTCTL_IOC_DEL_MTD_PARTITION`
  | editLock (edit : ImmediateEdit)
  | editCheck (edit : ImmediateEdit)
  | editTable (call : CoreCall)
  | editCore (call : CoreCall)
  | editLeave
  | editUnlock
  -- `add_recipe_part`, `del_recipe_part` and `restart_recipe`
  | recipeLock (edit : RecipeEdit)
  | recipeBody (edit : RecipeEdit)
  | recipeUnlock
  -- `create_recipe_partitions` and `delete_partitions`
  | createLock
  | createConvert
  | deleteLock
  -- `respawn_proxy_mtd_locked`
  | setLock (args : RespawnArgs)
  | setFlag (args : RespawnArgs)
  | setUnlock (args : RespawnArgs)
  | bugRefcnt (args : RespawnArgs)
  | testRefcnt (args : RespawnArgs)
  | unregTable (args : RespawnArgs)
  | unregCore (args : RespawnArgs)
  /-- `done`: whether `mtd_device_unregister` succeeded. -/
  | unregLeave (args : RespawnArgs) (done : Bool)
  | regTable (args : RespawnArgs)
  | regCore (args : RespawnArgs)
  | regLeave
  /-- `tested`: whether the test on `use_refcnt` was passed. -/
  | clearLock (tested : Bool)
  | clearFlag (tested : Bool)
  | clearUnlock
  /-- The end of both, before `recipe.lock` is released. -/
  | respawnLeave
  deriving DecidableEq

/-- What an idle thread can start. -/
inductive ThreadCall where
  | open
  | release
  | getMtdDevice
  | ioctl (cmd : Ioctl)
  deriving DecidableEq

/-- The choices of one step: the call an idle thread starts, whether a hook is called under
`mtd_table_mutex`, and the outcomes of `Env`. -/
structure Event where
  call : ThreadCall
  underTable : Bool
  env : Env

/-! ### Actions -/

/-- The entry of a hook. -/
def hookEntry (hook : Hook) (underTable : Bool) : Pc :=
  if underTable then .hookTable hook else .hookLock hook false

/-- What an ioctl does before it takes its first mutex, and where it goes. -/
def ioctlEntry (dev : MtdpartctlDevice) : Ioctl → Except Oops Pc
  | .getInfo => pure .infoLock
  | .addMtdPartition none => pure .idle
  | .addMtdPartition (some partInfo) => do
    let (ret, partInfo) ← prepareAddMtdPartition dev partInfo
    return if ret < 0 then .idle else .editLock (.add partInfo)
  | .delMtdPartition none => pure .idle
  | .delMtdPartition (some idx) => pure (.editLock (.del idx))
  | .recipeAddPart none => pure .idle
  | .recipeAddPart (some partition) => do
    let ret ← verifyPartitionBasicConditions dev partition.base
    return if ret < 0 then .idle else .recipeLock (.add partition)
  | .recipeDelPart none => pure .idle
  | .recipeDelPart (some idx) => pure (.recipeLock (.del idx))
  | .recipeCreatePartitions => pure .createLock
  | .deleteMtdPartitions => pure .deleteLock
  | .restartRecipe => pure (.recipeLock .restart)
  | .listRecipeParts none => pure .idle
  | .listRecipeParts (some _) => pure .listLock
  | .getPartitionList none => pure .idle
  | .getPartitionList (some _) => pure .partsLock
  | .unknown => pure .idle

/-- What an idle thread does first. -/
def callEntry (e : Event) (dev : MtdpartctlDevice) : Except Oops (MtdpartctlDevice × Pc) :=
  match e.call with
  | .open =>
    -- `atomic_cmpxchg`, then `restart_recipe`
    if dev.alreadyOpen then pure (dev, .idle)
    else pure ({ dev with alreadyOpen := true }, .recipeLock .restart)
  | .release => pure (mtdpartctlChrdevRelease dev, .idle)
  | .getMtdDevice => pure (dev, hookEntry .get e.underTable)
  | .ioctl cmd => do
    let pc ← ioctlEntry dev cmd
    return (dev, pc)

/-- The critical section of a hook. -/
def hookSection (hook : Hook) (underTable : Bool) (dev : MtdpartctlDevice) :
    Except Oops (MtdpartctlDevice × Pc) :=
  match hook with
  | .get =>
    let (ret, proxy) := proxyMtdGetDevice dev.proxy
    pure ({ dev with proxy := proxy }, .hookUnlock underTable (decide (ret = 0)))
  | .put => do
    let proxy ← proxyMtdPutDevice dev.proxy
    return ({ dev with proxy := proxy }, .hookUnlock underTable false)

/-- The test an immediate edit makes under `proxy.lock`, and the call it decides on. -/
def editTest (edit : ImmediateEdit) (dev : MtdpartctlDevice) : Pc :=
  if dev.proxy.aboutToRespawn || decide (dev.proxy.useRefcnt ≠ 0) then .editUnlock
  else
    match edit.coreCall dev.proxy.mtd with
    | none => .editUnlock
    | some call => .editTable call

/-- The device after the core's answer to a call on the proxy MTD. -/
def withMtd (dev : MtdpartctlDevice) (mtd : ProxyMtdInfo) : MtdpartctlDevice :=
  { dev with proxy := { dev.proxy with mtd := mtd } }

/-- The critical section of a recipe edit. -/
def recipeSection (edit : RecipeEdit) (env : Env) (dev : MtdpartctlDevice) :
    Except Oops MtdpartctlDevice :=
  match edit with
  | .add partition => do
    let (_, recipe) ← addRecipePartLocked dev.recipe partition env.kvzalloc
    return { dev with recipe := recipe }
  | .del idx => pure { dev with recipe := (delRecipePartLocked dev.recipe idx).2 }
  | .restart => pure { dev with recipe := restartRecipe dev.recipe }

/-- The conversion of the recipe under `recipe.lock`, and where it leads. -/
def convertSection (env : Env) (dev : MtdpartctlDevice) : Except Oops Pc := do
  let (ret, partitions) ← convertRecipeToMtdPartitionsLocked dev.recipe env.kvzalloc
  if ret < 0 then
    return .respawnLeave
  if dev.recipe.partsCount = 0 then throw .zeroPartsCount
  return .setLock ⟨partitions, dev.recipe.partsCount⟩

/-! ### The program -/

/-- An action that always returns. -/
def runAct (f : Event → MtdpartctlDevice → MtdpartctlDevice × Pc) :
    Instr MtdpartctlDevice Lock Pc Event :=
  .act fun e dev => some (f e dev)

/-- An action that may hit a `BUG_ON`. -/
def tryAct (f : Event → MtdpartctlDevice → Except Oops (MtdpartctlDevice × Pc)) :
    Instr MtdpartctlDevice Lock Pc Event :=
  .act fun e dev => (f e dev).toOption

/-- The instruction at each point. -/
def code : Pc → Instr MtdpartctlDevice Lock Pc Event
  | .idle => tryAct callEntry
  | .holding => runAct fun e dev => (dev, hookEntry .put e.underTable)
  | .hookTable hook => .lock .table (.hookLock hook true)
  | .hookLock hook underTable => .lock .proxy (.hookBody hook underTable)
  | .hookBody hook underTable => tryAct fun _ dev => hookSection hook underTable dev
  | .hookUnlock underTable held => .unlock .proxy
    (if underTable then .hookLeave held else if held then .holding else .idle)
  | .hookLeave held => .unlock .table (if held then .holding else .idle)
  | .infoLock => .lock .proxy .infoRead
  | .infoRead => runAct fun _ dev => (dev, .infoUnlock)
  | .infoUnlock => .unlock .proxy .idle
  | .partsLock => .lock .proxy .partsCheck
  | .partsCheck => runAct fun _ dev =>
    (dev, if dev.proxy.aboutToRespawn then .partsUnlock else .partsCopy)
  | .partsCopy => runAct fun _ dev => (dev, .partsUnlock)
  | .partsUnlock => .unlock .proxy .idle
  | .listLock => .lock .proxy .listCheck
  | .listCheck => runAct fun _ dev =>
    (dev, if dev.proxy.aboutToRespawn then .listUnlock else .listLockRecipe)
  | .listLockRecipe => .lock .recipe .listCopy
  | .listCopy => runAct fun _ dev => (dev, .listUnlockRecipe)
  | .listUnlockRecipe => .unlock .recipe .listUnlock
  | .listUnlock => .unlock .proxy .idle
  | .editLock edit => .lock .proxy (.editCheck edit)
  | .editCheck edit => runAct fun _ dev => (dev, editTest edit dev)
  | .editTable call => .lock .table (.editCore call)
  -- The core call runs with `proxy.lock` held.
  | .editCore call => runAct fun e dev =>
    (withMtd dev (e.env.core.answer dev.proxy.mtd call).2, .editLeave)
  | .editLeave => .unlock .table .editUnlock
  | .editUnlock => .unlock .proxy .idle
  | .recipeLock edit => .lock .recipe (.recipeBody edit)
  | .recipeBody edit => tryAct fun e dev => do
    let dev ← recipeSection edit e.env dev
    return (dev, .recipeUnlock)
  | .recipeUnlock => .unlock .recipe .idle
  | .createLock => .lock .recipe .createConvert
  | .createConvert => tryAct fun e dev => do
    let pc ← convertSection e.env dev
    return (dev, pc)
  | .deleteLock => .lock .recipe (.setLock ⟨none, 0⟩)
  | .setLock args => .lock .proxy (.setFlag args)
  | .setFlag args => runAct fun _ dev => (setProxyMtdAboutToRespawn dev true, .setUnlock args)
  | .setUnlock args => .unlock .proxy (.bugRefcnt args)
  -- `proxy.lock` is free again: the two reads of the count are not protected.
  | .bugRefcnt args => tryAct fun _ dev => do
    if dev.proxy.useRefcnt < 0 then throw .negativeRefcnt
    return (dev, .testRefcnt args)
  | .testRefcnt args => runAct fun _ dev =>
    (dev, if dev.proxy.useRefcnt ≠ 0 then .clearLock false else .unregTable args)
  | .unregTable args => .lock .table (.unregCore args)
  | .unregCore args => runAct fun e dev =>
    let (ret, mtd) := e.env.core.mtdDeviceUnregister dev.proxy.mtd
    (withMtd dev mtd, .unregLeave args (decide (0 ≤ ret)))
  | .unregLeave args done => .unlock .table (if done then .regTable args else .clearLock true)
  | .regTable args => .lock .table (.regCore args)
  | .regCore args => runAct fun e dev =>
    (withMtd dev (e.env.core.mtdDeviceParseRegister dev.proxy.mtd args.partitions
      args.partitionsCount).2, .regLeave)
  | .regLeave => .unlock .table (.clearLock true)
  | .clearLock tested => .lock .proxy (.clearFlag tested)
  | .clearFlag _ => runAct fun _ dev => (setProxyMtdAboutToRespawn dev false, .clearUnlock)
  | .clearUnlock => .unlock .proxy .respawnLeave
  | .respawnLeave => .unlock .recipe .idle

/-- The mutexes a thread has taken. -/
def locks : Pc → List Lock
  | .hookLock _ underTable => if underTable then [.table] else []
  | .hookBody _ underTable | .hookUnlock underTable _ =>
    if underTable then [.table, .proxy] else [.proxy]
  | .hookLeave _ => [.table]
  | .infoRead | .infoUnlock => [.proxy]
  | .partsCheck | .partsCopy | .partsUnlock => [.proxy]
  | .listCheck | .listLockRecipe | .listUnlock => [.proxy]
  | .listCopy | .listUnlockRecipe => [.proxy, .recipe]
  | .editCheck _ | .editTable _ | .editUnlock => [.proxy]
  | .editCore _ | .editLeave => [.proxy, .table]
  | .recipeBody _ | .recipeUnlock => [.recipe]
  | .createConvert | .setLock _ | .bugRefcnt _ | .testRefcnt _ | .unregTable _ | .regTable _
  | .clearLock _ | .respawnLeave => [.recipe]
  | .setFlag _ | .setUnlock _ | .clearFlag _ | .clearUnlock => [.recipe, .proxy]
  | .unregCore _ | .unregLeave _ _ | .regCore _ | .regLeave => [.recipe, .table]
  | .idle | .holding | .hookTable _ | .infoLock | .partsLock | .listLock | .editLock _
  | .recipeLock _ | .createLock | .deleteLock => []

/-- The program of every thread. -/
def driver : Threads.Program MtdpartctlDevice Lock Pc Event where
  idle := .idle
  code := code
  holds pc l := decide (l ∈ locks pc)

/-- The state of the device and all threads. -/
abbrev ThreadState (T : Type*) := Threads.State MtdpartctlDevice Lock Pc T

/-- The device from its creation on, under any number of threads. -/
def threadSystem (T : Type*) [DecidableEq T] :
    TransitionSystem (ThreadState T) (T × Event) :=
  Threads.system driver T MtdpartctlDevice.Created

/-- All threads idle on a device. -/
def idleThreads (T : Type*) (dev : MtdpartctlDevice) : ThreadState T where
  shared := dev
  owner := fun _ => none
  pc := fun _ => .idle

theorem init_idleThreads {T : Type*} [DecidableEq T] {dev : MtdpartctlDevice}
    (h : dev.Created) : (threadSystem T).init (idleThreads T dev) :=
  ⟨h, fun _ => rfl, fun _ => rfl⟩

end Mtdpartikr
