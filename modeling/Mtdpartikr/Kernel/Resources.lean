import Mtdpartikr.Kernel.MtdTable
import Mtdpartikr.Lib.Ledger

/-!
# What the initialisation takes from the kernel

`KernelState` is the kernel as the thread that initialises the module sees it: whether it holds
`mtd_table_mutex`, which indices the table has given out, and the trace of the resources it took
and gave back.  The functions below are the kernel's, as far as the module relies on them; the
outcome of one that can fail is an argument.
-/

namespace Mtdpartikr

/-- An error a kernel function returns as `-code`. -/
structure KernelErr where
  code : ℕ
  pos : 0 < code
  deriving DecidableEq

def KernelErr.ret (err : KernelErr) : Int := -(err.code : Int)

@[simp] theorem KernelErr.ret_lt_zero (err : KernelErr) : err.ret < 0 := by
  have hpos := err.pos
  unfold KernelErr.ret
  omega

@[simp] theorem KernelErr.ret_ne_zero (err : KernelErr) : err.ret ≠ 0 := by
  have hneg := err.ret_lt_zero
  omega

/-- What can be held.  `k` is the place of a device in the array `devs`. -/
inductive Resource where
  /-- A reference on the MTD with the index. -/
  | mtdRef (index : ℕ)
  /-- The array `mtd_devs`. -/
  | mtdDevs
  /-- The array `devs`. -/
  | devs
  /-- The `k`-th `struct mtdpartctl_device`. -/
  | device (k : ℕ)
  /-- The class of `class_create`. -/
  | deviceClass
  /-- The numbers of `alloc_chrdev_region`. -/
  | chrdevRegion
  /-- The reference on the backing MTD's owner, taken for the `k`-th device. -/
  | moduleRef (k : ℕ)
  /-- The memory of the `k`-th proxy MTD. -/
  | proxyMem (k : ℕ)
  /-- The registration of the `k`-th proxy MTD. -/
  | proxyReg (k : ℕ)
  /-- The `cdev` of the `k`-th device. -/
  | cdev (k : ℕ)
  /-- What `device_create` made for the `k`-th device. -/
  | node (k : ℕ)
  deriving DecidableEq

/-- The kernel around the initialisation. -/
structure KernelState where
  /-- Whether this thread holds `mtd_table_mutex`. -/
  mtdTableMutex : Bool
  /-- The indices of all registered MTDs. -/
  indices : List ℕ
  trace : List (Ledger.Event Resource)

namespace KernelState

def acquire (kernel : KernelState) (r : Resource) : KernelState :=
  { kernel with trace := kernel.trace ++ [.acquire r] }

def release (kernel : KernelState) (r : Resource) : KernelState :=
  { kernel with trace := kernel.trace ++ [.release r] }

end KernelState

/-- `mutex_lock(&mtd_table_mutex)` by this thread. -/
def lockMtdTable (kernel : KernelState) : Except InitOops KernelState :=
  if kernel.mtdTableMutex then throw .relock else pure { kernel with mtdTableMutex := true }

def unlockMtdTable (kernel : KernelState) : KernelState := { kernel with mtdTableMutex := false }

/-- `put_mtd_device`. -/
def putMtdDevice {σ : Type} (mtd : MtdDev σ) (kernel : KernelState) :
    Except InitOops KernelState := do
  let kernel ← lockMtdTable kernel
  return unlockMtdTable (kernel.release (.mtdRef mtd.index))

/-- `try_module_get`, which has nothing to get where there is no owner. -/
def tryModuleGet (owner : Option Module) (granted : Bool) (k : ℕ) (kernel : KernelState) :
    Bool × KernelState :=
  match owner with
  | none => (true, kernel)
  | some _ => if granted then (true, kernel.acquire (.moduleRef k)) else (false, kernel)

/-- `module_put`. -/
def modulePut (owner : Option Module) (k : ℕ) (kernel : KernelState) : KernelState :=
  match owner with
  | none => kernel
  | some _ => kernel.release (.moduleRef k)

/-- How the core chooses the index of an MTD it registers: one that is not in use. -/
structure IndexChoice where
  index : List ℕ → ℕ
  fresh : ∀ used, index used ∉ used

/-- `mtd_device_register(mtd, NULL, 0)`: the return value and the registered MTD. -/
def mtdDeviceRegister {σ : Type} (choice : IndexChoice) (outcome : Option KernelErr) (k : ℕ)
    (mtd : MtdDev σ) (kernel : KernelState) : Except InitOops (Int × MtdDev σ × KernelState) := do
  let kernel ← lockMtdTable kernel
  match outcome with
  | some err => return (err.ret, mtd, unlockMtdTable kernel)
  | none =>
    let index := choice.index kernel.indices
    let kernel := { kernel with indices := index :: kernel.indices }
    return (0, { mtd with index := index }, unlockMtdTable (kernel.acquire (.proxyReg k)))

/-- `mtd_device_unregister` of a proxy MTD that nobody uses. -/
def mtdDeviceUnregister {σ : Type} (k : ℕ) (mtd : MtdDev σ) (kernel : KernelState) :
    Except InitOops KernelState := do
  let kernel ← lockMtdTable kernel
  let kernel := { kernel with indices := kernel.indices.erase mtd.index }
  return unlockMtdTable (kernel.release (.proxyReg k))

end Mtdpartikr
