import Mtdpartikr.Kernel.Recipe

/-!
# Respawning and editing the proxy MTD

The proxy half of `kernel/ctrl_dev.c` and the reference hooks of `kernel/proxy_mtd_dev.c`:
`respawn_proxy_mtd_locked` with its two callers, the immediate `ADD_MTD_PARTITION` and
`DEL_MTD_PARTITION`, and `proxy_mtd_get_device` / `proxy_mtd_put_device`.

Every function that calls into the MTD core also returns the calls it made, in order.
-/

namespace Mtdpartikr

/-! ### References on the proxy MTD -/

/-- `proxy_mtd_put_device` while it holds `proxy.lock`. -/
def proxyMtdPutDevice (proxy : ProxyMtd) : Except Oops ProxyMtd := do
  if proxy.useRefcnt = 0 then throw .zeroRefcnt
  return { proxy with useRefcnt := proxy.useRefcnt - 1 }

/-- `proxy_mtd_get_device` while it holds `proxy.lock`. -/
def proxyMtdGetDevice (proxy : ProxyMtd) : Int × ProxyMtd :=
  if proxy.aboutToRespawn then (neg .EBUSY, proxy)
  else (0, { proxy with useRefcnt := proxy.useRefcnt + 1 })

/-! ### Respawn -/

def setProxyMtdAboutToRespawn (dev : MtdpartctlDevice) (respawn : Bool) : MtdpartctlDevice :=
  { dev with proxy := { dev.proxy with aboutToRespawn := respawn } }

/-- `respawn_proxy_mtd_locked` between its two `set_proxy_mtd_about_to_respawn` calls. -/
def respawnFlagged (core : MtdCore) (dev : MtdpartctlDevice)
    (partitions : Option (List MtdPartition)) (partitionsCount : UInt64) :
    Except Oops (Int × MtdpartctlDevice × List CoreCall) := do
  if dev.proxy.useRefcnt < 0 then throw .negativeRefcnt
  -- Every early return is a `goto cleanup`, where the caller clears the flag.
  if dev.proxy.useRefcnt ≠ 0 then
    return (neg .EBUSY, dev, [])
  let (ret, mtd) := core.mtdDeviceUnregister dev.proxy.mtd
  let dev := { dev with proxy := { dev.proxy with mtd := mtd } }
  if ret < 0 then
    return (ret, dev, [.mtdDeviceUnregister])
  let (ret, mtd) := core.mtdDeviceParseRegister mtd partitions partitionsCount
  let dev := { dev with proxy := { dev.proxy with mtd := mtd } }
  return (ret, dev, [.mtdDeviceUnregister, .mtdDeviceParseRegister partitions partitionsCount])

def respawnProxyMtdLocked (core : MtdCore) (dev : MtdpartctlDevice)
    (partitions : Option (List MtdPartition)) (partitionsCount : UInt64) :
    Except Oops (Int × MtdpartctlDevice × List CoreCall) := do
  let dev := setProxyMtdAboutToRespawn dev true
  let (ret, dev, calls) ← respawnFlagged core dev partitions partitionsCount
  return (ret, setProxyMtdAboutToRespawn dev false, calls)

def createRecipePartitions (core : MtdCore) (dev : MtdpartctlDevice) (kvzalloc : Bool) :
    Except Oops (Int × MtdpartctlDevice × List CoreCall) := do
  let (ret, partitions) ← convertRecipeToMtdPartitionsLocked dev.recipe kvzalloc
  if ret < 0 then
    return (ret, dev, [])
  if dev.recipe.partsCount = 0 then throw .zeroPartsCount
  respawnProxyMtdLocked core dev partitions dev.recipe.partsCount

def deletePartitions (core : MtdCore) (dev : MtdpartctlDevice) :
    Except Oops (Int × MtdpartctlDevice × List CoreCall) :=
  respawnProxyMtdLocked core dev none 0

/-! ### Immediate edits -/

/-- `adapt_possible_full_mtd_partition_length`: the return value and the adapted request. -/
def adaptPossibleFullMtdPartitionLength (dev : MtdpartctlDevice) (partInfo : MtdPartitionInfo) :
    Int × MtdPartitionInfo :=
  -- `MTDPART_SIZ_FULL` is zero.
  if partInfo.length = 0 then
    let (overflow, partLength) := checkSubOverflow dev.backingMtd.size partInfo.offset
    if overflow then (neg .EINVAL, partInfo) else (0, { partInfo with length := partLength })
  else (0, partInfo)

/-- The walk over the proxy's partitions.  The loop body never advances `tmp_idx`, so it stays
at the value the walk starts with. -/
def relativeToAbsolute.loop (tmpIdx idx : UInt32) : List ChildMtd → Int32
  | [] => -1
  | child :: rest =>
    if tmpIdx = idx then child.index else relativeToAbsolute.loop tmpIdx idx rest

def mtdRelativeMasterIndexToAbsoluteIndex (mtd : ProxyMtdInfo) (idx : UInt32) : Int32 :=
  relativeToAbsolute.loop 0 idx mtd.partitions

/-- An immediate edit of the live partitions, its argument checks done. -/
inductive ImmediateEdit where
  | add (partInfo : MtdPartitionInfo)
  | del (idx : UInt32)
  deriving DecidableEq

/-- The core call an immediate edit makes on an idle proxy; `none` for an index that the walk
does not find. -/
def ImmediateEdit.coreCall (mtd : ProxyMtdInfo) : ImmediateEdit → Option CoreCall
  | .add partInfo =>
    some (.mtdAddPartition partInfo.name partInfo.offset.toInt64 partInfo.length.toInt64)
  | .del idx =>
    let relativeIdx := mtdRelativeMasterIndexToAbsoluteIndex mtd idx
    if relativeIdx < 0 then none else some (.mtdDelPartition relativeIdx)

/-- The core's answer to a call made on the proxy MTD. -/
def MtdCore.answer (core : MtdCore) (mtd : ProxyMtdInfo) : CoreCall → Int × ProxyMtdInfo
  | .mtdDeviceUnregister => core.mtdDeviceUnregister mtd
  | .mtdDeviceParseRegister partitions nrParts =>
    core.mtdDeviceParseRegister mtd partitions nrParts
  | .mtdAddPartition name offset length => core.mtdAddPartition mtd name offset length
  | .mtdDelPartition partno => core.mtdDelPartition mtd partno

/-- `MTDPARTCTL_IOC_ADD_MTD_PARTITION` and `MTDPARTCTL_IOC_DEL_MTD_PARTITION` while they hold
`proxy.lock`. -/
def immediateEditLocked (core : MtdCore) (proxy : ProxyMtd) (edit : ImmediateEdit) :
    Int × ProxyMtd × List CoreCall :=
  if proxy.aboutToRespawn || decide (proxy.useRefcnt ≠ 0) then (neg .EBUSY, proxy, [])
  else
    match edit.coreCall proxy.mtd with
    | none => (neg .EINVAL, proxy, [])
    | some call =>
      let (ret, mtd) := core.answer proxy.mtd call
      (ret, { proxy with mtd := mtd }, [call])

end Mtdpartikr
