import Mtdpartikr.Kernel.Uapi

/-!
# The bytes the module copies to userspace

`copy_recipe_parts_list_to_user`, `copy_mtd_parts_list_to_user` and the reply of
`MTDPARTCTL_IOC_GET_INFO` of `kernel/ctrl_dev.c` once more, this time byte for byte.  The local
structures live in stack memory with the contents `KernelStack`; an assignment writes its member
and leaves the padding as it was.

How far a `copy_to_user` gets depends on the user's mapping: `room n` bounds the bytes the call's
`n`-th copy can write.
-/

namespace Mtdpartikr

/-- Bytes that arrived in the memory of the calling process. -/
structure UserWrite where
  addr : UInt64
  bytes : List UInt8
  deriving DecidableEq

/-- `copy_to_user(dst, src, sizeof(*src))`: whether every byte was copied, and what arrived. -/
def copyToUser (dst : UInt64) (src : List UInt8) (room : ℕ) : Bool × UserWrite :=
  (decide (src.length ≤ room), ⟨dst, src.take room⟩)

/-- What the stack holds where a call will place its local reply structure. -/
structure KernelStack where
  /-- `struct mtdpartctl_info tmp`. -/
  tmp : CBuf (structSize mtdpartctlInfoMembers)
  /-- `struct ext_mtd_partition_info info`. -/
  recipeInfo : CBuf (structSize extMtdPartitionInfoMembers)
  /-- `struct mtd_indexed_partition_info info`. -/
  mtdInfo : CBuf (structSize mtdIndexedPartitionInfoMembers)

/-! ### Listing -/

section Listing

variable {α : Type} {n : ℕ} (assigns : α → List (ℕ × List UInt8)) (room : ℕ → ℕ)
  (partsCount : UInt64)

/-- The copy loop over a list with its local `info`, which every round fills anew; `slot` counts
the copies.  Returns `ret`, the final `tmp_idx` and what arrived. -/
def copyBytesToUser.loop :
    CBuf n → UInt64 → ℕ → UInt32 → List α → Int × UInt32 × List UserWrite
  | _, _, _, tmpIdx, [] => (0, tmpIdx, [])
  | info, item, slot, tmpIdx, part :: rest =>
    if partsCount ≤ tmpIdx.toUInt64 then (0, tmpIdx, [])
    else
      let info := info.assignAll (assigns part)
      let (copied, write) := copyToUser item info.bytes (room slot)
      if !copied then (neg .EFAULT, tmpIdx, [write])
      else
        let (ret, tmpIdx, writes) :=
          copyBytesToUser.loop info (item + UInt64.ofNat n) (slot + 1) (tmpIdx + 1) rest
        (ret, tmpIdx, write :: writes)

/-- The common body of the two listing functions; `parts` is the offset of the array behind the
list header at `arg`. -/
def copyBytesToUser (info : CBuf n) (arg : UInt64) (parts : ℕ) (list : List α) :
    Int × List UserWrite :=
  let (ret, tmpIdx, writes) :=
    copyBytesToUser.loop assigns room partsCount info (arg + UInt64.ofNat parts) 0 0 list
  if ret < 0 then (ret, writes)
  else
    let (copied, write) := copyToUser arg (u32Bytes tmpIdx) (room writes.length)
    (if !copied then neg .EFAULT else ret, writes ++ [write])

end Listing

/-- The entry `copy_recipe_parts_list_to_user` makes of a part. -/
def listedRecipePart (part : MtdRecipePart) : ExtMtdPartitionInfo where
  base := { offset := part.offset, length := part.length, name := part.name }
  readonly := !part.writable
  powerupLockEnabled := part.powerupLockEnabled

/-- The entry `copy_mtd_parts_list_to_user` makes of a live partition. -/
def listedMtdPart (child : ChildMtd) : MtdIndexedPartitionInfo where
  absoluteIdx := child.index.toUInt32
  offset := child.offset
  length := child.size

def copyRecipePartsBytes (info : CBuf (structSize extMtdPartitionInfoMembers)) (room : ℕ → ℕ)
    (arg : UInt64) (recipe : MtdRecipe) (partsCount : UInt64) : Int × List UserWrite :=
  copyBytesToUser (fun part => (listedRecipePart part).assigns) room partsCount info arg
    (offsetof recipePartitionsListMembers 1) recipe.partitions

def copyMtdPartsBytes (info : CBuf (structSize mtdIndexedPartitionInfoMembers)) (room : ℕ → ℕ)
    (arg : UInt64) (mtd : ProxyMtdInfo) (partsCount : UInt64) : Int × List UserWrite :=
  copyBytesToUser (fun child => (listedMtdPart child).assigns) room partsCount info arg
    (offsetof mtdPartitionsListMembers 1) mtd.partitions

/-! ### Replies -/

/-- `tmp` of `MTDPARTCTL_IOC_GET_INFO` once it is filled. -/
def getInfoTmp (tmp : CBuf (structSize mtdpartctlInfoMembers)) (dev : MtdpartctlDevice) :
    CBuf (structSize mtdpartctlInfoMembers) :=
  tmp.memsetZero.assignAll (getInfoLocked dev).assigns

/-- What an ioctl with the user address `arg` writes to userspace. -/
def userWrites (stack : KernelStack) (room : ℕ → ℕ) (arg : UInt64) (dev : MtdpartctlDevice) :
    Ioctl → List UserWrite
  | .getInfo => [(copyToUser arg (getInfoTmp stack.tmp dev).bytes (room 0)).2]
  | .listRecipeParts (some readCount) =>
    if dev.proxy.aboutToRespawn then []
    else (copyRecipePartsBytes stack.recipeInfo room arg dev.recipe readCount.toUInt64).2
  | .getPartitionList (some readCount) =>
    if dev.proxy.aboutToRespawn then []
    else (copyMtdPartsBytes stack.mtdInfo room arg dev.proxy.mtd readCount.toUInt64).2
  | _ => []

end Mtdpartikr
