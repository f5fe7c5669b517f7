import Mtdpartikr.Client.ConfigFile
import Mtdpartikr.Kernel.Uapi

/-!
# The wrappers for Go

`__go_mtdpartctl_add_new_partition` and `__go_mtdpartctl_recipe_add_part` of
`user/common/dev.c` down to the bytes the ioctl handler fetches, with
`mtdpartctl_add_new_partition` to compare the first with.

`ioctl` takes its third argument through `...`, so the compiler does not check it: the kernel
gets whatever machine word lies where a pointer would, and uses it as a user address.  For a
pointer that word is the pointer.  For a structure passed by value it depends on the calling
convention of the platform, `StructPassing`.
-/

namespace Mtdpartikr.Client

/-! ### The memory of the client -/

/-- The bytes at the addresses a process can read; `none` where nothing is mapped. -/
abbrev UserMemory : Type := UInt64 → Option UInt8

/-- The memory with `bytes` at `addr`. -/
def UserMemory.store (mem : UserMemory) (addr : UInt64) (bytes : List UInt8) : UserMemory :=
  fun a => match bytes[(a - addr).toNat]? with
    | some b => some b
    | none => mem a

/-- `copy_from_user(&s, addr, n)`: the bytes it copies, `none` when it faults. -/
def copyFromUser (mem : UserMemory) (addr : UInt64) (n : ℕ) : Option (CBuf n) :=
  if ∀ i < n, (mem (addr + UInt64.ofNat i)).isSome then
    some ⟨(List.range n).map fun i => (mem (addr + UInt64.ofNat i)).getD 0, by
      rw [List.length_map, List.length_range]⟩
  else none

/-! ### The third argument of `ioctl` -/

/-- How a calling convention passes a structure of more than 16 bytes by value. -/
inductive StructPassing where
  /-- As the address of a copy: arm64 and riscv64. -/
  | byReference
  /-- On the stack, with the argument registers left alone: x86-64. -/
  | onStack
  /-- Its first two words in registers and the rest on the stack: 32-bit arm. -/
  | inRegisters
  deriving DecidableEq

/-- What a caller puts where `ioctl` looks for its third argument. -/
inductive ThirdArg where
  | pointer (addr : UInt64)
  | struct (bytes : List UInt8)
  deriving DecidableEq

/-- A call of a wrapper: the memory before it, where its local `partition` and a copy of it made
for the call lie, and what its locals and the register for a third argument hold by chance. -/
structure CallFrame where
  memory : UserMemory
  partitionAddr : UInt64
  copyAddr : UInt64
  partition : CBuf (structSize mtdPartitionInfoMembers)
  extPartition : CBuf (structSize extMtdPartitionInfoMembers)
  staleWord : UInt64

section Wrappers

variable (passing : StructPassing) (frame : CallFrame)

/-- The word `ioctl` hands to the kernel. -/
def thirdWord : ThirdArg → UInt64
  | .pointer addr => addr
  | .struct bytes => match passing with
    | .byReference => frame.copyAddr
    | .onStack => frame.staleWord
    | .inRegisters => UInt64.ofNat (ofLeBytes (bytes.take 4))

/-- The memory in which the kernel looks the word up. -/
def memoryAtCall (memory : UserMemory) : ThirdArg → UserMemory
  | .pointer _ => memory
  | .struct bytes => match passing with
    | .inRegisters => memory.store frame.copyAddr (bytes.drop 8)
    | _ => memory.store frame.copyAddr bytes

/-- `ioctl(fd, MTDPARTCTL_IOC_ADD_MTD_PARTITION, arg)`, as the handler sees it once it has copied
its argument in. -/
def addMtdPartitionIoctl (memory : UserMemory) (arg : ThirdArg) : Ioctl :=
  .addMtdPartition <| (copyFromUser (memoryAtCall passing frame memory arg)
    (thirdWord passing frame arg) (structSize mtdPartitionInfoMembers)).map
      MtdPartitionInfo.ofBytes

/-- `ioctl(fd, MTDPARTCTL_IOC_RECIPE_ADD_PART, arg)`. -/
def recipeAddPartIoctl (memory : UserMemory) (arg : ThirdArg) : Ioctl :=
  .recipeAddPart <| (copyFromUser (memoryAtCall passing frame memory arg)
    (thirdWord passing frame arg) (structSize extMtdPartitionInfoMembers)).map
      ExtMtdPartitionInfo.ofBytes

/-! ### The wrappers -/

/-- The structure `__go_mtdpartctl_add_new_partition` fills. -/
def goAddNewPartitionRequest (offset length : UInt64) (name : GoString) : MtdPartitionInfo :=
  let cs := name ++ [0]
  let nameLen := (strBytes cs).length
  have hsrc : nameLen ≤ cs.length := length_strBytes_le cs
  { offset := offset
    length := length
    name :=
      if hle : nameLen ≤ MTD_PARTITION_NAME_MAX_LENGTH then
        (CBuf.zero MTD_PARTITION_NAME_MAX_LENGTH).memcpy cs nameLen hle hsrc
      else
        (CBuf.zero MTD_PARTITION_NAME_MAX_LENGTH).memcpy cs MTD_PARTITION_NAME_MAX_LENGTH
          (Nat.le_refl _) (Nat.le_trans (Nat.le_of_lt (Nat.lt_of_not_le hle)) hsrc) }

/-- The bytes of the local `partition` of `__go_mtdpartctl_add_new_partition` at its ioctl. -/
def goAddNewPartitionBytes (offset length : UInt64) (name : GoString) :
    CBuf (structSize mtdPartitionInfoMembers) :=
  frame.partition.assignAll (goAddNewPartitionRequest offset length name).assigns

def mtdpartctlAddNewPartition (memory : UserMemory) (partition : UInt64) : Ioctl :=
  addMtdPartitionIoctl passing frame memory (.pointer partition)

def goMtdpartctlAddNewPartition (offset length : UInt64) (name : GoString) : Ioctl :=
  let partition := goAddNewPartitionBytes frame offset length name
  -- `partition`, not `&partition`
  addMtdPartitionIoctl passing frame (frame.memory.store frame.partitionAddr partition.bytes)
    (.struct partition.bytes)

def goMtdpartctlRecipeAddPartCall (offset length : UInt64) (name : GoString)
    (writable powerupLockEnabled : Bool) : Ioctl :=
  let partition := frame.extPartition.assignAll
    (goRecipeAddPartRequest offset length name writable powerupLockEnabled).assigns
  recipeAddPartIoctl passing frame (frame.memory.store frame.partitionAddr partition.bytes)
    (.pointer frame.partitionAddr)

end Wrappers

end Mtdpartikr.Client
