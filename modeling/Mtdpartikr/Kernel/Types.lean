import Mtdpartikr.Lib.CString

/-!
# Data model of the control device

The structures of `kernel/ctrl_dev.h` and `include/chrdev_ioctl.h`, field by field under the
source's names.  `u64`, `size_t` and `u32` are `UInt64` and `UInt32`, `int` fields are `Int32`;
the `int` a function returns is an `Int`, negative for an error.

The MTD core is not part of this repository.  What the module can see of its own proxy MTD is
`ProxyMtdInfo`; the calls the module makes into the core are the fields of `MtdCore`, with what
the module relies on as the laws of that structure.
-/

namespace Mtdpartikr

/-! ### Return codes -/

/-- The error numbers the module returns. -/
inductive Errno where
  | ENOENT | EIO | ENOMEM | EFAULT | EBUSY | ENODEV | EINVAL
  deriving DecidableEq, Repr

/-- The value of an error number. -/
def Errno.code : Errno → ℕ
  | ENOENT => 2
  | EIO => 5
  | ENOMEM => 12
  | EFAULT => 14
  | EBUSY => 16
  | ENODEV => 19
  | EINVAL => 22

/-- The return value `-e`. -/
def neg (e : Errno) : Int := -(e.code : Int)

@[simp] theorem neg_lt_zero (e : Errno) : neg e < 0 := by cases e <;> decide

/-- No return value is both an error and a success. -/
theorem not_nonneg_neg (e : Errno) : ¬ 0 ≤ neg e := Int.not_le.mpr (neg_lt_zero e)

@[simp] theorem neg_ne_zero (e : Errno) : neg e ≠ 0 := by cases e <;> decide

/-- A call that does not return: a `BUG_ON` that fires, a division by zero, or a write behind
the end of an allocation. -/
inductive Oops where
  /-- The first `BUG_ON(would_overflow)` of `existing_partition_contains_range`. -/
  | existingEndOverflow
  /-- The second one, for the new range. -/
  | newEndOverflow
  /-- `BUG_ON(list_empty(&recipe->partitions))`. -/
  | emptyRecipe
  /-- `BUG_ON(recipe->parts_count == 0)`. -/
  | zeroPartsCount
  /-- `BUG_ON(dev->proxy.use_refcnt < 0)`. -/
  | negativeRefcnt
  /-- `BUG_ON(dev->proxy.use_refcnt == 0)` of `proxy_mtd_put_device`. -/
  | zeroRefcnt
  /-- `do_div` by zero. -/
  | divideError
  /-- A write behind the last entry of the partition array. -/
  | arrayOverrun
  deriving DecidableEq, Repr

/-- A sequence that returned went through both of its halves. -/
theorem bind_eq_ok {α β : Type} {x : Except Oops α} {f : α → Except Oops β} {b : β}
    (h : x >>= f = .ok b) : ∃ a, x = .ok a ∧ f a = .ok b := by
  cases x with
  | error o => cases h
  | ok a => exact ⟨a, rfl, h⟩

/-- A sequence that did not return failed in one of its halves. -/
theorem bind_eq_error {α β : Type} {x : Except Oops α} {f : α → Except Oops β} {o : Oops}
    (h : x >>= f = .error o) : x = .error o ∨ ∃ a, x = .ok a ∧ f a = .error o := by
  cases x with
  | error o' => exact Or.inl (congrArg Except.error (Except.error.inj h))
  | ok a => exact Or.inr ⟨a, rfl, h⟩

/-! ### Requests -/

/-- `MTD_PARTITION_NAME_MAX_LENGTH`. -/
abbrev MTD_PARTITION_NAME_MAX_LENGTH : ℕ := 128

/-- `char name[MTD_PARTITION_NAME_MAX_LENGTH]`. -/
abbrev NameBuf : Type := CBuf MTD_PARTITION_NAME_MAX_LENGTH

/-- `struct mtd_partition_info`. -/
structure MtdPartitionInfo where
  offset : UInt64
  length : UInt64
  name : NameBuf
  deriving DecidableEq

/-- `struct ext_mtd_partition_info`. -/
structure ExtMtdPartitionInfo where
  base : MtdPartitionInfo
  readonly : Bool
  powerupLockEnabled : Bool
  deriving DecidableEq

/-- `struct mtd_indexed_partition_info`. -/
structure MtdIndexedPartitionInfo where
  absoluteIdx : UInt32
  offset : UInt64
  length : UInt64
  deriving DecidableEq

/-- `struct mtdpartctl_info`, without its zeroed reserve. -/
structure MtdpartctlInfo where
  backendMtdIndex : UInt32
  proxyMtdIndex : UInt32
  eraseSectorSize : UInt32
  backendMtdSize : UInt64
  deriving DecidableEq

/-! ### The MTD core as the module sees it -/

/-- What the module reads of the backing `struct mtd_info`. -/
structure MtdInfo where
  index : Int32
  size : UInt64
  erasesize : UInt32
  deriving DecidableEq

/-- A live partition: a `struct mtd_info` on the proxy's `partitions` list. -/
structure ChildMtd where
  index : Int32
  /-- `part.offset`. -/
  offset : UInt64
  /-- `part.size`. -/
  size : UInt64
  deriving DecidableEq

/-- The proxy's `struct mtd_info` as the core keeps it: whether the MTD is registered, under
which index, and its live partitions in list order. -/
structure ProxyMtdInfo where
  registered : Bool
  index : Int32
  partitions : List ChildMtd
  deriving DecidableEq

/-- `MTD_WRITEABLE`. -/
def MTD_WRITEABLE : UInt32 := 0x400

/-- `MTD_POWERUP_LOCK`. -/
def MTD_POWERUP_LOCK : UInt32 := 0x2000

/-- `mtdpartctl_probes`, up to its NULL. -/
def mtdpartctlProbes : List String := ["mtdpartikr"]

/-- `struct mtd_partition`; a pointer that is still NULL is `none`. -/
structure MtdPartition where
  name : Option NameBuf
  types : Option (List String)
  size : UInt64
  offset : UInt64
  maskFlags : UInt32
  addFlags : UInt32
  deriving DecidableEq

/-- A zero-filled `struct mtd_partition`. -/
def MtdPartition.zero : MtdPartition := ⟨none, none, 0, 0, 0, 0⟩

/-- A call into the MTD core with the arguments it is given.  `mtd_add_partition` takes its
range as `long long`. -/
inductive CoreCall where
  | mtdDeviceUnregister
  | mtdDeviceParseRegister (partitions : Option (List MtdPartition)) (nrParts : UInt64)
  | mtdAddPartition (name : NameBuf) (offset length : Int64)
  | mtdDelPartition (partno : Int32)
  deriving DecidableEq

/-- How the MTD core answers the calls made on the proxy MTD, and what becomes of the proxy.  A
failed call changes nothing, except that a failed `mtd_device_parse_register` leaves the proxy
unregistered and without partitions; a successful `mtd_device_unregister` removes the proxy and
all its partitions; the immediate calls neither register nor unregister the proxy itself. -/
structure MtdCore where
  mtdDeviceUnregister : ProxyMtdInfo → Int × ProxyMtdInfo
  mtdDeviceParseRegister : ProxyMtdInfo → Option (List MtdPartition) → UInt64 → Int × ProxyMtdInfo
  mtdAddPartition : ProxyMtdInfo → NameBuf → Int64 → Int64 → Int × ProxyMtdInfo
  mtdDelPartition : ProxyMtdInfo → Int32 → Int × ProxyMtdInfo
  unregister_failed : ∀ m, (mtdDeviceUnregister m).1 < 0 → (mtdDeviceUnregister m).2 = m
  unregister_done : ∀ m, 0 ≤ (mtdDeviceUnregister m).1 →
    (mtdDeviceUnregister m).2.registered = false ∧ (mtdDeviceUnregister m).2.partitions = []
  parseRegister_failed : ∀ m ps n, (mtdDeviceParseRegister m ps n).1 < 0 →
    (mtdDeviceParseRegister m ps n).2.registered = false ∧
      (mtdDeviceParseRegister m ps n).2.partitions = []
  parseRegister_done : ∀ m ps n, 0 ≤ (mtdDeviceParseRegister m ps n).1 →
    (mtdDeviceParseRegister m ps n).2.registered = true
  addPartition_failed : ∀ m nm o l, (mtdAddPartition m nm o l).1 < 0 →
    (mtdAddPartition m nm o l).2 = m
  addPartition_registered : ∀ m nm o l, (mtdAddPartition m nm o l).2.registered = m.registered
  delPartition_failed : ∀ m i, (mtdDelPartition m i).1 < 0 → (mtdDelPartition m i).2 = m
  delPartition_registered : ∀ m i, (mtdDelPartition m i).2.registered = m.registered

/-- A core that ends each kind of call with the given code: new partitions get the indices
after the ones in use, and a deletion removes the partition with the given index. -/
def MtdCore.answering (unregister register add del : Int) : MtdCore where
  mtdDeviceUnregister m :=
    if unregister < 0 then (unregister, m)
    else (unregister, { m with registered := false, partitions := [] })
  mtdDeviceParseRegister m partitions _ :=
    if register < 0 then (register, { m with registered := false, partitions := [] })
    else (register, { m with
      registered := true
      partitions := (partitions.getD []).mapIdx fun i p =>
        ⟨m.index + 1 + Int32.ofNat i, p.offset, p.size⟩ })
  mtdAddPartition m _ offset length :=
    if add < 0 then (add, m)
    else (add, { m with partitions := m.partitions ++
      [⟨m.index + 1 + Int32.ofNat m.partitions.length, offset.toUInt64, length.toUInt64⟩] })
  mtdDelPartition m partno :=
    if del < 0 then (del, m)
    else (del, { m with partitions := m.partitions.filter fun child => child.index ≠ partno })
  unregister_failed m h := by split_ifs at h ⊢ <;> first | rfl | exact absurd h (by assumption)
  unregister_done m h := by split_ifs at h ⊢ <;> first | exact ⟨rfl, rfl⟩ | omega
  parseRegister_failed m ps n h := by
    split_ifs at h ⊢ <;> first | exact ⟨rfl, rfl⟩ | exact absurd h (by assumption)
  parseRegister_done m ps n h := by split_ifs at h ⊢ <;> first | rfl | omega
  addPartition_failed m nm o l h := by
    split_ifs at h ⊢ <;> first | rfl | exact absurd h (by assumption)
  addPartition_registered m nm o l := by split_ifs <;> rfl
  delPartition_failed m i h := by split_ifs at h ⊢ <;> first | rfl | exact absurd h (by assumption)
  delPartition_registered m i := by split_ifs <;> rfl

/-! ### The control device -/

/-- `struct mtd_recipe_part`. -/
structure MtdRecipePart where
  offset : UInt64
  length : UInt64
  writable : Bool
  powerupLockEnabled : Bool
  name : NameBuf
  deriving DecidableEq

/-- `struct mtd_recipe`; the mutex is part of the thread model. -/
structure MtdRecipe where
  partitions : List MtdRecipePart
  partsCount : UInt64
  deriving DecidableEq

/-- `struct proxy_mtd`; the mutex is part of the thread model. -/
structure ProxyMtd where
  mtd : ProxyMtdInfo
  useRefcnt : Int32
  aboutToRespawn : Bool
  deriving DecidableEq

/-- `struct mtdpartctl_device`. -/
structure MtdpartctlDevice where
  backingMtd : MtdInfo
  alreadyOpen : Bool
  recipe : MtdRecipe
  proxy : ProxyMtd
  deriving DecidableEq

/-- A device as `mtdpartctl_device_create` leaves it: zero-filled, with its proxy registered. -/
structure MtdpartctlDevice.Created (dev : MtdpartctlDevice) : Prop where
  alreadyOpen : dev.alreadyOpen = false
  recipe : dev.recipe = ⟨[], 0⟩
  useRefcnt : dev.proxy.useRefcnt = 0
  aboutToRespawn : dev.proxy.aboutToRespawn = false
  registered : dev.proxy.mtd.registered = true

/-- The device `mtdpartctl_device_create` makes of a backing MTD, its proxy registered under
the given index. -/
def MtdpartctlDevice.create (backingMtd : MtdInfo) (proxyIndex : Int32) : MtdpartctlDevice where
  backingMtd := backingMtd
  alreadyOpen := false
  recipe := ⟨[], 0⟩
  proxy := ⟨⟨true, proxyIndex, []⟩, 0, false⟩

theorem MtdpartctlDevice.created_create (backingMtd : MtdInfo) (proxyIndex : Int32) :
    (create backingMtd proxyIndex).Created :=
  ⟨rfl, rfl, rfl, rfl, rfl⟩

end Mtdpartikr
