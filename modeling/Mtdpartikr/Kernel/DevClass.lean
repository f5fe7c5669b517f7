import Mathlib.Algebra.Group.Nat.Defs
import Mtdpartikr.Kernel.ProxyMtd

/-!
# Setting up the device class

`kernel/ctrl_dev_class.c` with `mtdpartctl_device_create` and `mtdpartctl_device_destroy` of
`kernel/ctrl_dev.c`: counting the masters, taking references on them, allocating the devices, and
creating one after the other, with every way back.

`InitEnv` has the outcome of each call that can fail.  The state of a run is `InitState`; its last
three fields record what the two passes over the table did and are read by nobody.
-/

namespace Mtdpartikr

variable {σ : Type}

/-! ### Device numbers -/

/-- `dev_t`. -/
abbrev DevT : Type := UInt32

/-- `MAJOR`. -/
def devMajor (dev : DevT) : UInt32 := dev >>> 20

/-- `MINOR`. -/
def devMinor (dev : DevT) : UInt32 := dev &&& 0xFFFFF

/-- `MKDEV`. -/
def mkdev (major minor : UInt32) : DevT := (major <<< 20) ||| minor

/-! ### Data -/

/-- `struct mtdpartctl_device` from its allocation on; a pointer that is still NULL is `none`.
The class is the same for all devices. -/
structure ClassDevice (σ : Type) where
  backingMtd : Option (MtdDev σ)
  devno : DevT
  alreadyOpen : Bool
  recipe : MtdRecipe
  /-- `proxy.mtd`. -/
  proxyMtd : Option (MtdDev σ)
  useRefcnt : Int32
  aboutToRespawn : Bool

/-- A zero-filled `struct mtdpartctl_device`. -/
def ClassDevice.zero : ClassDevice σ := ⟨none, 0, false, ⟨[], 0⟩, none, 0, false⟩

/-- `struct mtdpartctl_dev_class`. -/
structure MtdpartctlDevClass (σ : Type) where
  mtdDevs : List (Option (MtdDev σ))
  devs : List (Option (ClassDevice σ))
  count : ℕ
  devno : DevT
  mtdCount : ℕ

/-- `s_all_devs` when the module is loaded. -/
def MtdpartctlDevClass.zero : MtdpartctlDevClass σ := ⟨[], [], 0, 0, 0⟩

/-- The state of the initialisation. -/
structure InitState (σ : Type) where
  cls : MtdpartctlDevClass σ
  kernel : KernelState
  /-- The MTDs `add_mtd_count` was called with. -/
  counted : List (MtdDev σ)
  /-- The MTDs `get_mtd_device_ref` was called with. -/
  referenced : List (MtdDev σ)
  /-- The slots of `mtd_devs` that were written. -/
  written : List ℕ

/-- The outcomes of what the creation of one device calls. -/
structure DeviceEnv where
  tryModuleGet : Bool
  proxy : ProxyEnv
  cdevAdd : Option KernelErr
  deviceCreate : Option KernelErr

/-- The outcomes of a whole initialisation. -/
structure InitEnv where
  /-- `__get_mtd_device` of the MTD with the index. -/
  getMtdDevice : ℕ → Option KernelErr
  /-- The `kvzalloc` of `mtd_devs`. -/
  allocMtdDevs : Bool
  /-- The `kvzalloc` of `devs`. -/
  allocDevs : Bool
  /-- The `kvzalloc` of the `k`-th device. -/
  allocDevice : ℕ → Bool
  classCreate : Option KernelErr
  /-- `alloc_chrdev_region` for so many numbers: the major one or an error. -/
  allocChrdevRegion : ℕ → Except KernelErr UInt32
  /-- There are `2 ^ 20` minor numbers. -/
  region_le : ∀ count major, allocChrdevRegion count = .ok major → count ≤ 2 ^ 20
  choice : IndexChoice
  device : ℕ → DeviceEnv

/-! ### `mtdpartctl_device_create` and `mtdpartctl_device_destroy` -/

/-- The creation of a proxy MTD as a step of `mtdpartctl_device_create`. -/
def createProxy (env : InitEnv) (k : ℕ) (backing : MtdDev σ) (dev : ClassDevice σ)
    (kernel : KernelState) : Except InitOops (Int × ClassDevice σ × KernelState) := do
  let (ret, mtd, kernel) ← proxyMtdCreateDevice env.choice (env.device k).proxy k backing kernel
  return (ret, { dev with proxyMtd := mtd, useRefcnt := 0 }, kernel)

/-- `proxy_mtd_device_destroy` on `dev->proxy.mtd`. -/
def destroyProxy (k : ℕ) (dev : ClassDevice σ) (kernel : KernelState) :
    Except InitOops KernelState :=
  match dev.proxyMtd with
  | none => throw .nullMtd
  | some mtd => proxyMtdDeviceDestroy k mtd kernel

/-- `mtdpartctl_device_create` of the `k`-th device, whose backing MTD is `backing`. -/
def mtdpartctlDeviceCreate (env : InitEnv) (k : ℕ) (backing : MtdDev σ) (dev : ClassDevice σ)
    (kernel : KernelState) : Except InitOops (Int × ClassDevice σ × KernelState) := do
  let dev := { dev with alreadyOpen := false }
  let (granted, kernel) := tryModuleGet backing.owner (env.device k).tryModuleGet k kernel
  if !granted then
    return (neg Errno.EIO, dev, kernel)
  let dev := { dev with recipe := { dev.recipe with partitions := [] } }
  let (ret, dev, kernel) ← createProxy env k backing dev kernel
  if ret < 0 then
    return (ret, dev, modulePut backing.owner k kernel)
  match (env.device k).cdevAdd with
  | some err =>
    let kernel ← destroyProxy k dev kernel
    return (err.ret, dev, modulePut backing.owner k kernel)
  | none =>
    let kernel := kernel.acquire (.cdev k)
    match (env.device k).deviceCreate with
    | some err =>
      let kernel ← destroyProxy k dev (kernel.release (.cdev k))
      return (err.ret, dev, modulePut backing.owner k kernel)
    | none => return (0, dev, kernel.acquire (.node k))

/-- `mtdpartctl_device_destroy` of the `k`-th device. -/
def mtdpartctlDeviceDestroy (k : ℕ) (dev : ClassDevice σ) (kernel : KernelState) :
    Except InitOops KernelState := do
  let kernel := (kernel.release (.node k)).release (.cdev k)
  let kernel ← destroyProxy k dev kernel
  match dev.backingMtd with
  | none => throw .nullBacking
  | some backing => return modulePut backing.owner k kernel

/-! ### `ctrl_dev_class.c` -/

def mtdpartctlDeviceResolveByMinor (cls : MtdpartctlDevClass σ) (minor : ℕ) :
    Option (ClassDevice σ) :=
  if cls.count ≤ minor then none else (cls.devs[minor]?).join

/-- The loop of `remove_devices`. -/
def removeDevices (cls : MtdpartctlDevClass σ) (maxIdx : ℕ) (kernel : KernelState) :
    Except InitOops KernelState :=
  (List.range maxIdx).foldlM (fun kernel idx =>
    match (cls.devs[idx]?).join with
    | none => throw .nullDevice
    | some dev => mtdpartctlDeviceDestroy idx dev kernel) kernel

/-- The loop of `add_devices`, from `maxIdx` on with `remaining` devices to go: the return value
and `*max_idx`. -/
def addDevices.loop (env : InitEnv) :
    (remaining maxIdx : ℕ) → MtdpartctlDevClass σ → KernelState →
      Except InitOops (Int × ℕ × MtdpartctlDevClass σ × KernelState)
  | 0, maxIdx, cls, kernel => pure (0, maxIdx, cls, kernel)
  | remaining + 1, maxIdx, cls, kernel =>
    match (cls.devs[maxIdx]?).join with
    | none => throw .nullDevice
    | some dev =>
      match (cls.mtdDevs[maxIdx]?).join with
      | none => throw .nullBacking
      | some backing => do
        let dev := { dev with
          backingMtd := some backing
          devno := mkdev (devMajor cls.devno) (UInt32.ofNat maxIdx) }
        let (ret, dev, kernel) ← mtdpartctlDeviceCreate env maxIdx backing dev kernel
        let cls := { cls with devs := cls.devs.set maxIdx (some dev) }
        if ret ≠ 0 then
          return (ret, maxIdx, cls, kernel)
        addDevices.loop env remaining (maxIdx + 1) cls kernel

def addDevices (env : InitEnv) (cls : MtdpartctlDevClass σ) (kernel : KernelState) :
    Except InitOops (Int × ℕ × MtdpartctlDevClass σ × KernelState) :=
  addDevices.loop env cls.count 0 cls kernel

def addMtdCount : HandleMtdFunc σ (InitState σ) := fun s _ info =>
  pure (0, { s with
    cls := { s.cls with count := s.cls.count + 1 }
    counted := s.counted ++ [info] })

def getMtdDeviceRef (env : InitEnv) : HandleMtdFunc σ (InitState σ) := fun s idx info =>
  let s := { s with referenced := s.referenced ++ [info] }
  match env.getMtdDevice info.index with
  | some err => pure (err.ret, s)
  | none =>
    let kernel := s.kernel.acquire (.mtdRef info.index)
    if idx < s.cls.mtdDevs.length then
      pure (0, { s with
        kernel := kernel
        cls := { s.cls with
          mtdDevs := s.cls.mtdDevs.set idx (some info)
          mtdCount := s.cls.mtdCount + 1 }
        written := s.written ++ [idx] })
    else throw .slotOverrun

def freeArrayWithItems (count : ℕ) (kernel : KernelState) : KernelState :=
  ((List.range count).foldl (fun kernel idx => kernel.release (.device idx)) kernel).release .devs

/-- The loop of `alloc_array_with_items` from `idx` on: the item whose allocation failed. -/
def allocArrayWithItems.loop (env : InitEnv) :
    (remaining idx : ℕ) → KernelState → Option ℕ × KernelState
  | 0, _, kernel => (none, kernel)
  | remaining + 1, idx, kernel =>
    if !env.allocDevice idx then (some idx, kernel)
    else allocArrayWithItems.loop env remaining (idx + 1) (kernel.acquire (.device idx))

/-- `alloc_array_with_items`: the array, or NULL. -/
def allocArrayWithItems (env : InitEnv) (count : ℕ) (kernel : KernelState) :
    Option (List (Option (ClassDevice σ))) × KernelState :=
  if !env.allocDevs then (none, kernel)
  else
    match allocArrayWithItems.loop env count 0 (kernel.acquire .devs) with
    | (some idx, kernel) => (none, freeArrayWithItems idx kernel)
    | (none, kernel) => (some (List.replicate count (some ClassDevice.zero)), kernel)

/-- `put_all_mtd_devices`. -/
def putAllMtdDevices (cls : MtdpartctlDevClass σ) (kernel : KernelState) :
    Except InitOops KernelState := do
  let kernel ← (List.range cls.mtdCount).foldlM (fun kernel idx =>
    match (cls.mtdDevs[idx]?).join with
    | none => throw .nullMtd
    | some mtd => putMtdDevice mtd kernel) kernel
  return kernel.release .mtdDevs

/-- `get_all_matching_mtd_devices` while it holds `mtd_table_mutex`. -/
def getAllMatchingMtdDevicesLocked (env : InitEnv) (table : MtdTable σ)
    (filter : MtdDeviceTypeFilter) (s : InitState σ) : Except InitOops (Int × InitState σ) := do
  let (ret, s) ← mtdForEachMasterDeviceFilteredLocked table addMtdCount filter s
  if ret < 0 then
    return (neg Errno.EIO, s)
  if s.cls.count = 0 then
    return (neg .EINVAL, s)
  if !env.allocMtdDevs then
    return (neg .ENOMEM, s)
  let s := { s with
    kernel := s.kernel.acquire .mtdDevs
    cls := { s.cls with mtdDevs := List.replicate s.cls.count none } }
  let (ret, s) ← mtdForEachMasterDeviceFilteredLocked table (getMtdDeviceRef env) filter s
  if ret < 0 then
    -- `free_mtd_devs_array`, with the mutex still held
    let kernel ← putAllMtdDevices s.cls s.kernel
    return (ret, { s with kernel := kernel.release .mtdDevs })
  return (0, s)

def getAllMatchingMtdDevices (env : InitEnv) (table : MtdTable σ) (filter : MtdDeviceTypeFilter)
    (s : InitState σ) : Except InitOops (Int × InitState σ) := do
  let s := { s with cls := { s.cls with mtdCount := 0, count := 0 } }
  let kernel ← lockMtdTable s.kernel
  let (ret, s) ← getAllMatchingMtdDevicesLocked env table filter { s with kernel := kernel }
  return (ret, { s with kernel := unlockMtdTable s.kernel })

/-- `device_class_create_devices`. -/
def deviceClassCreateDevices (env : InitEnv) (cls : MtdpartctlDevClass σ)
    (kernel : KernelState) : Except InitOops (Int × MtdpartctlDevClass σ × KernelState) := do
  match env.allocChrdevRegion cls.count with
  | .error err => return (err.ret, cls, kernel)
  | .ok major =>
    let cls := { cls with devno := mkdev major 0 }
    let (ret, deviceIdx, cls, kernel) ← addDevices env cls (kernel.acquire .chrdevRegion)
    if ret ≠ 0 then
      -- `error_create_devices` removes the devices; the region stays.
      let kernel ← removeDevices cls deviceIdx kernel
      return (ret, cls, kernel)
    return (0, cls, kernel)

/-- `mtdpartctl_device_class_init`. -/
def mtdpartctlDeviceClassInit (env : InitEnv) (table : MtdTable σ)
    (filter : MtdDeviceTypeFilter) (s : InitState σ) : Except InitOops (Int × InitState σ) := do
  let (ret, s) ← getAllMatchingMtdDevices env table filter s
  if ret < 0 then
    return (ret, s)
  if s.cls.count = 0 then throw .zeroCount
  match allocArrayWithItems env s.cls.count s.kernel with
  | (none, kernel) =>
    let kernel ← putAllMtdDevices s.cls kernel
    return (neg .ENOMEM, { s with kernel := kernel })
  | (some devs, kernel) =>
    let cls := { s.cls with devs := devs }
    match env.classCreate with
    | some err =>
      let kernel ← putAllMtdDevices cls (freeArrayWithItems cls.count kernel)
      return (err.ret, { s with cls := cls, kernel := kernel })
    | none =>
      let (ret, cls, kernel) ← deviceClassCreateDevices env cls (kernel.acquire .deviceClass)
      if ret ≠ 0 then
        let kernel := freeArrayWithItems cls.count (kernel.release .deviceClass)
        let kernel ← putAllMtdDevices cls kernel
        return (ret, { s with cls := cls, kernel := kernel })
      return (0, { s with cls := cls, kernel := kernel })

/-- `mtdpartctl_device_class_destroy`. -/
def mtdpartctlDeviceClassDestroy (cls : MtdpartctlDevClass σ) (kernel : KernelState) :
    Except InitOops KernelState := do
  let kernel ← removeDevices cls cls.count kernel
  let kernel := (kernel.release .chrdevRegion).release .deviceClass
  putAllMtdDevices cls (freeArrayWithItems cls.count kernel)

/-- The module when it is loaded. -/
def InitState.load (table : MtdTable σ) : InitState σ where
  cls := .zero
  kernel := ⟨false, table.mtds.map MtdDev.index, []⟩
  counted := []
  referenced := []
  written := []

end Mtdpartikr
