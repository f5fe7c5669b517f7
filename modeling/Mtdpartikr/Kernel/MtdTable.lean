import Mtdpartikr.Kernel.Mtd

/-!
# The walk over the MTD table

`determine_device_type_filter` of `kernel/init.c` and
`mtd_for_each_master_device_filtered_locked` of `kernel/ctrl_dev_class.c`, for any callback.

The table is the core's map from indices to registered MTDs.  `__mtd_next_device` looks the next
one up from an index on, and the walk goes from one to the next with it; the fuel of the walk is
the number of entries.
-/

namespace Mtdpartikr

/-- A call of the initialisation that does not return. -/
inductive InitOops where
  /-- More rounds of a walk than there are MTDs. -/
  | endless
  /-- `mutex_lock` of a mutex that the thread holds. -/
  | relock
  /-- A write behind the last slot of `mtd_devs`. -/
  | slotOverrun
  /-- `put_mtd_device(NULL)`. -/
  | nullMtd
  /-- `BUG_ON(dev == NULL)` of `add_devices`. -/
  | nullDevice
  /-- `BUG_ON(dev->backing_mtd == NULL)` of `add_devices`. -/
  | nullBacking
  /-- `BUG_ON(s_all_devs.count == 0)`. -/
  | zeroCount
  /-- `BUG_ON(backing_mtd->_read_oob == NULL)`. -/
  | noReadOob
  /-- `BUG_ON(backing_mtd->_read == NULL)`. -/
  | noRead
  /-- `BUG_ON(backing_mtd->_write == NULL)`. -/
  | noWrite
  deriving DecidableEq, Repr

/-! ### The filter -/

/-- `enum mtd_device_type_filter`. -/
inductive MtdDeviceTypeFilter where
  | all | nand | nor
  deriving DecidableEq, Repr

/-- `determine_device_type_filter` on the module parameter, which is NULL when it is not
given. -/
def determineDeviceTypeFilter (deviceTypeFilter : Option String) :
    Int × Option MtdDeviceTypeFilter :=
  if deviceTypeFilter = none ∨ deviceTypeFilter = some "all" then (0, some .all)
  else if deviceTypeFilter = some "nand" then (0, some .nand)
  else if deviceTypeFilter = some "nor" then (0, some .nor)
  else (neg .EINVAL, none)

/-! ### The walk -/

/-- The registered MTDs in the order of their indices. -/
structure MtdTable (σ : Type) where
  mtds : List (MtdDev σ)
  sorted : mtds.Pairwise fun a b => a.index < b.index

section Walk

variable {σ S : Type}

/-- `__mtd_next_device(i)`. -/
def mtdNextDevice (table : MtdTable σ) (i : ℕ) : Option (MtdDev σ) :=
  table.mtds.find? fun mtd => i ≤ mtd.index

/-- `handle_mtd_func_t` on a caller's state. -/
abbrev HandleMtdFunc (σ S : Type) : Type := S → ℕ → MtdDev σ → Except InitOops (Int × S)

/-- `mtd_for_each_device` around a test that continues and `INVOKE_CALLBACK`. -/
def mtdForEachDevice.loop (table : MtdTable σ) (skip : MtdDev σ → Bool)
    (func : HandleMtdFunc σ S) :
    ℕ → Option (MtdDev σ) → ℕ → S → Except InitOops (Int × S)
  | _, none, _, s => pure (0, s)
  | 0, some _, _, _ => throw .endless
  | fuel + 1, some mtd, idx, s => do
    if skip mtd then
      mtdForEachDevice.loop table skip func fuel (mtdNextDevice table (mtd.index + 1)) idx s
    else
      let (ret, s) ← func s idx mtd
      if ret < 0 then
        return (ret, s)
      mtdForEachDevice.loop table skip func fuel (mtdNextDevice table (mtd.index + 1)) (idx + 1) s

def mtdForEachDevice (table : MtdTable σ) (skip : MtdDev σ → Bool) (func : HandleMtdFunc σ S)
    (s : S) : Except InitOops (Int × S) :=
  mtdForEachDevice.loop table skip func table.mtds.length (mtdNextDevice table 0) 0 s

/-- The test of each of the three loops. -/
def skips (filter : MtdDeviceTypeFilter) (mtd : MtdDev σ) : Bool :=
  match filter with
  | .all => mtd.isPartition
  | .nor => mtd.isPartition || decide (mtd.type ≠ MTD_NORFLASH)
  | .nand => mtd.isPartition ||
    (decide (mtd.type ≠ MTD_NORFLASH) && decide (mtd.type ≠ MTD_MLCNANDFLASH))

def mtdForEachMasterDeviceFilteredLocked (table : MtdTable σ) (func : HandleMtdFunc σ S)
    (filter : MtdDeviceTypeFilter) (s : S) : Except InitOops (Int × S) :=
  mtdForEachDevice table (skips filter) func s

end Walk

end Mtdpartikr
