import Mtdpartikr.Kernel.Ioctl
import Mtdpartikr.Lib.Layout

/-!
# The structures of `include/chrdev_ioctl.h` as bytes

The members of each structure that crosses the user boundary: the assignments that fill it, and
the values a reader of its bytes finds.
-/

namespace Mtdpartikr

/-! ### Values -/

def u32Bytes (v : UInt32) : List UInt8 := leBytes 4 v.toNat

def u64Bytes (v : UInt64) : List UInt8 := leBytes 8 v.toNat

def boolByte (v : Bool) : List UInt8 := [if v then 1 else 0]

section Read

variable {n : ℕ} (b : CBuf n) (off : ℕ)

def u64At : UInt64 := UInt64.ofNat (ofLeBytes (b.field off 8))

def u32At : UInt32 := UInt32.ofNat (ofLeBytes (b.field off 4))

def boolAt : Bool := b.field off 1 ≠ [0]

end Read

/-! ### Members -/

def mtdpartctlInfoMembers : List CType := [.u32, .u32, .u32, .u64, .array .u32 6]

def mtdPartitionInfoMembers : List CType := [.u64, .u64, .chars MTD_PARTITION_NAME_MAX_LENGTH]

def mtdIndexedPartitionInfoMembers : List CType := [.u32, .u64, .u64]

def extMtdPartitionInfoMembers : List CType :=
  [structType mtdPartitionInfoMembers, .bool, .bool]

/-- `struct mtd_partitions_list`; the flexible array takes no room of its own. -/
def mtdPartitionsListMembers : List CType :=
  [.u32, .array (structType mtdIndexedPartitionInfoMembers) 0]

def recipePartitionsListMembers : List CType :=
  [.u32, .array (structType extMtdPartitionInfoMembers) 0]

/-! ### Assignments -/

/-- The assignments of `MTDPARTCTL_IOC_GET_INFO`, in the order of the members. -/
def MtdpartctlInfo.assigns (info : MtdpartctlInfo) : List (ℕ × List UInt8) :=
  [(offsetof mtdpartctlInfoMembers 0, u32Bytes info.backendMtdIndex),
    (offsetof mtdpartctlInfoMembers 1, u32Bytes info.proxyMtdIndex),
    (offsetof mtdpartctlInfoMembers 2, u32Bytes info.eraseSectorSize),
    (offsetof mtdpartctlInfoMembers 3, u64Bytes info.backendMtdSize)]

def MtdPartitionInfo.assigns (info : MtdPartitionInfo) : List (ℕ × List UInt8) :=
  [(offsetof mtdPartitionInfoMembers 0, u64Bytes info.offset),
    (offsetof mtdPartitionInfoMembers 1, u64Bytes info.length),
    (offsetof mtdPartitionInfoMembers 2, info.name.bytes)]

def MtdIndexedPartitionInfo.assigns (info : MtdIndexedPartitionInfo) : List (ℕ × List UInt8) :=
  [(offsetof mtdIndexedPartitionInfoMembers 0, u32Bytes info.absoluteIdx),
    (offsetof mtdIndexedPartitionInfoMembers 1, u64Bytes info.offset),
    (offsetof mtdIndexedPartitionInfoMembers 2, u64Bytes info.length)]

/-- `base` lies at the start of the structure. -/
def ExtMtdPartitionInfo.assigns (info : ExtMtdPartitionInfo) : List (ℕ × List UInt8) :=
  info.base.assigns ++
    [(offsetof extMtdPartitionInfoMembers 1, boolByte info.readonly),
      (offsetof extMtdPartitionInfoMembers 2, boolByte info.powerupLockEnabled)]

/-! ### Reading -/

/-- The array at `off`, as a buffer of its own. -/
def nameAt {n : ℕ} (b : CBuf n) (off : ℕ) (h : off + MTD_PARTITION_NAME_MAX_LENGTH ≤ n) :
    NameBuf :=
  ⟨b.field off MTD_PARTITION_NAME_MAX_LENGTH, b.length_field h⟩

def MtdPartitionInfo.ofBytes (b : CBuf (structSize mtdPartitionInfoMembers)) :
    MtdPartitionInfo where
  offset := u64At b (offsetof mtdPartitionInfoMembers 0)
  length := u64At b (offsetof mtdPartitionInfoMembers 1)
  name := nameAt b (offsetof mtdPartitionInfoMembers 2) (by decide)

def ExtMtdPartitionInfo.ofBytes (b : CBuf (structSize extMtdPartitionInfoMembers)) :
    ExtMtdPartitionInfo where
  base := {
    offset := u64At b (offsetof mtdPartitionInfoMembers 0)
    length := u64At b (offsetof mtdPartitionInfoMembers 1)
    name := nameAt b (offsetof mtdPartitionInfoMembers 2) (by decide) }
  readonly := boolAt b (offsetof extMtdPartitionInfoMembers 1)
  powerupLockEnabled := boolAt b (offsetof extMtdPartitionInfoMembers 2)

def MtdIndexedPartitionInfo.ofBytes (b : CBuf (structSize mtdIndexedPartitionInfoMembers)) :
    MtdIndexedPartitionInfo where
  absoluteIdx := u32At b (offsetof mtdIndexedPartitionInfoMembers 0)
  offset := u64At b (offsetof mtdIndexedPartitionInfoMembers 1)
  length := u64At b (offsetof mtdIndexedPartitionInfoMembers 2)

end Mtdpartikr
