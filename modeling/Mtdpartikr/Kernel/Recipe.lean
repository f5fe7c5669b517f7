import Mathlib.Algebra.Group.Nat.Defs
import Mtdpartikr.Kernel.Types

/-!
# The partition recipe

`add_recipe_part`, `del_recipe_part`, `restart_recipe` and
`convert_recipe_to_mtd_partitions_locked` of `kernel/ctrl_dev.c`.  The part of a function that
runs under `recipe->lock` is a definition of its own (`…Locked`), shared by the sequential calls
here and by the threads of `Threads/Program.lean`.

A function that can hit a `BUG_ON` or divide by zero returns in `Except Oops`.  The outcome of an
allocation is an argument.
-/

namespace Mtdpartikr

/-! ### Checked arithmetic -/

/-- `check_add_overflow(a, b, &d)`: whether the exact sum is out of range, and the sum as stored
in `d`. -/
def checkAddOverflow (a b : UInt64) : Bool × UInt64 :=
  (decide (2 ^ 64 ≤ a.toNat + b.toNat), a + b)

/-- `check_sub_overflow(a, b, &d)`. -/
def checkSubOverflow (a b : UInt64) : Bool × UInt64 :=
  (decide (a < b), a - b)

/-- `do_div(n, base)`: the quotient left in `n` and the remainder. -/
def doDiv (n : UInt64) (base : UInt32) : Except Oops (UInt64 × UInt64) :=
  if base = 0 then throw .divideError else pure (n / base.toUInt64, n % base.toUInt64)

/-! ### Checks on a requested partition -/

def existingPartitionContainsRange (partition : MtdRecipePart) (newOffset newLength : UInt64) :
    Except Oops Bool := do
  let (wouldOverflow, existingPartitionEnd) := checkAddOverflow partition.offset partition.length
  if wouldOverflow then throw .existingEndOverflow
  let (wouldOverflow, newPartitionEnd) := checkAddOverflow newOffset newLength
  if wouldOverflow then throw .newEndOverflow
  return decide (newOffset < existingPartitionEnd) && decide (partition.offset < newPartitionEnd)

/-- The scan over the list, left at the first part that contains some of the range. -/
def verifyPartitionParams.loop (offset length : UInt64) : List MtdRecipePart → Except Oops Int
  | [] => pure 0
  | item :: rest => do
    if ← existingPartitionContainsRange item offset length then
      return neg .EINVAL
    verifyPartitionParams.loop offset length rest

def verifyPartitionParamsLocked (recipe : MtdRecipe) (partition : ExtMtdPartitionInfo) :
    Except Oops Int :=
  verifyPartitionParams.loop partition.base.offset partition.base.length recipe.partitions

def verifyPartitionBasicConditions (dev : MtdpartctlDevice) (partition : MtdPartitionInfo) :
    Except Oops Int := do
  let masterMtd := dev.backingMtd
  -- `ADD_MTD_PARTITION` has replaced a length of zero before it comes here.
  if partition.length = 0 then
    return neg .EINVAL
  if (checkAddOverflow partition.offset partition.length).1 then
    return neg .EINVAL
  if masterMtd.size < partition.offset + partition.length then
    return neg .EINVAL
  let (_, rem) ← doDiv partition.offset masterMtd.erasesize
  if rem ≠ 0 then
    return neg .EINVAL
  let (_, rem) ← doDiv partition.length masterMtd.erasesize
  if rem ≠ 0 then
    return neg .EINVAL
  return 0

/-! ### Adding a part -/

/-- The fields `add_recipe_part` sets in the zeroed `new_part`. -/
def newRecipePart (partition : ExtMtdPartitionInfo) : MtdRecipePart where
  offset := partition.base.offset
  length := partition.base.length
  -- `strnlen`, `memcpy` of that many bytes, then a NUL in the last byte
  name := ((CBuf.zero MTD_PARTITION_NAME_MAX_LENGTH).memcpy partition.base.name.bytes
    (partition.base.name.strnlen MTD_PARTITION_NAME_MAX_LENGTH)
    (partition.base.name.strnlen_le _)
    (by rw [partition.base.name.size_eq]; exact partition.base.name.strnlen_le _)).set
      (MTD_PARTITION_NAME_MAX_LENGTH - 1) 0
  writable := !partition.readonly
  powerupLockEnabled := partition.powerupLockEnabled

/-- `add_recipe_part` while it holds `recipe->lock`. -/
def addRecipePartLocked (recipe : MtdRecipe) (partition : ExtMtdPartitionInfo)
    (kvzalloc : Bool) : Except Oops (Int × MtdRecipe) := do
  let ret ← verifyPartitionParamsLocked recipe partition
  if ret < 0 then
    return (ret, recipe)
  if !kvzalloc then
    return (neg .ENOMEM, recipe)
  return (0, {
    partitions := recipe.partitions ++ [newRecipePart partition]
    partsCount := recipe.partsCount + 1 })

def addRecipePart (dev : MtdpartctlDevice) (partition : ExtMtdPartitionInfo)
    (kvzalloc : Bool) : Except Oops (Int × MtdpartctlDevice) := do
  let ret ← verifyPartitionBasicConditions dev partition.base
  if ret < 0 then
    return (ret, dev)
  let (ret, recipe) ← addRecipePartLocked dev.recipe partition kvzalloc
  return (ret, { dev with recipe := recipe })

/-! ### Deleting a part -/

/-- The search for `index`: the list without that node, `none` when the list ends first. -/
def delRecipePart.loop (index : UInt32) : UInt64 → List MtdRecipePart →
    Option (List MtdRecipePart)
  | _, [] => none
  | curIdx, item :: rest =>
    if curIdx = index.toUInt64 then some rest
    else (delRecipePart.loop index (curIdx + 1) rest).map (item :: ·)

/-- `del_recipe_part` while it holds `recipe->lock`.  Only the list changes. -/
def delRecipePartLocked (recipe : MtdRecipe) (index : UInt32) : Int × MtdRecipe :=
  match delRecipePart.loop index 0 recipe.partitions with
  | some partitions => (0, { recipe with partitions := partitions })
  | none => (neg .ENOENT, recipe)

def delRecipePart (dev : MtdpartctlDevice) (index : UInt32) : Int × MtdpartctlDevice :=
  let (ret, recipe) := delRecipePartLocked dev.recipe index
  (ret, { dev with recipe := recipe })

/-! ### Restarting -/

/-- `restart_recipe`: every node is unlinked and freed. -/
def restartRecipe (_recipe : MtdRecipe) : MtdRecipe where
  partitions := []
  partsCount := 0

/-! ### Conversion to an array of `struct mtd_partition` -/

/-- What one round of the conversion loop writes into its array entry. -/
def fillMtdPartition (item : MtdRecipePart) (partition : MtdPartition) : MtdPartition where
  name := some item.name
  types := some mtdpartctlProbes
  offset := item.offset
  size := item.length
  maskFlags :=
    if !item.writable then partition.maskFlags ||| MTD_WRITEABLE else partition.maskFlags
  addFlags :=
    if item.powerupLockEnabled then partition.addFlags ||| MTD_POWERUP_LOCK
    else partition.addFlags

/-- The loop over the list with its running `idx`. -/
def convertRecipe.loop : ℕ → List MtdRecipePart → List MtdPartition →
    Except Oops (List MtdPartition)
  | _, [], partitions => pure partitions
  | idx, item :: rest, partitions =>
    match partitions[idx]? with
    | some partition =>
      convertRecipe.loop (idx + 1) rest (partitions.set idx (fillMtdPartition item partition))
    | none => throw .arrayOverrun

/-- `convert_recipe_to_mtd_partitions_locked`: the return value and `*partitions_np`. -/
def convertRecipeToMtdPartitionsLocked (recipe : MtdRecipe) (kvzalloc : Bool) :
    Except Oops (Int × Option (List MtdPartition)) := do
  if recipe.partsCount = 0 then
    return (neg .EINVAL, none)
  if recipe.partitions.isEmpty then throw .emptyRecipe
  if !kvzalloc then
    return (neg .ENOMEM, none)
  -- The array is as long as the counter says, the loop follows the list.
  let partitions ← convertRecipe.loop 0 recipe.partitions
    (List.replicate recipe.partsCount.toNat MtdPartition.zero)
  return (0, some partitions)

end Mtdpartikr
