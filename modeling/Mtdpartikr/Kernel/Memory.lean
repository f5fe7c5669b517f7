import Mtdpartikr.Kernel.DevClass
import Mtdpartikr.Kernel.Ioctl

/-!
# The device with its memory

The functions of `kernel/ctrl_dev.c` that allocate and free, once more and with the memory they
work on: a node of the recipe has an identity, and each `kvzalloc` and `kvfree` leaves its mark on
a `Heap`.  All of these functions do so under `recipe->lock`.

`memorySystem` is the device with its memory, from its creation to `mtdpartctl_device_destroy`.
-/

namespace Mtdpartikr.Memory

/-! ### The heap -/

/-- What the `n`-th `kvzalloc` returned. -/
inductive Block where
  /-- A `struct mtd_recipe_part`. -/
  | recipePart (n : ℕ)
  /-- An array of `struct mtd_partition`. -/
  | mtdPartitions (n : ℕ)
  deriving DecidableEq

structure Heap where
  /-- How many allocations there have been. -/
  allocs : ℕ
  trace : List (Ledger.Event Block)

namespace Heap

/-- A `kvzalloc` that returns memory. -/
def alloc (heap : Heap) (block : ℕ → Block) : Heap :=
  ⟨heap.allocs + 1, heap.trace ++ [.acquire (block heap.allocs)]⟩

def kvfree (heap : Heap) (block : Block) : Heap :=
  { heap with trace := heap.trace ++ [.release block] }

end Heap

/-! ### The device -/

/-- A `struct mtd_recipe_part` in memory, the `addr`-th allocation. -/
structure RecipeNode where
  addr : ℕ
  part : MtdRecipePart

def RecipeNode.block (node : RecipeNode) : Block := .recipePart node.addr

/-- `struct mtd_recipe` with its nodes in memory. -/
structure Recipe where
  partitions : List RecipeNode
  partsCount : UInt64

/-- The recipe without its places in memory. -/
def Recipe.forget (recipe : Recipe) : MtdRecipe :=
  ⟨recipe.partitions.map (·.part), recipe.partsCount⟩

structure Device where
  backingMtd : MtdInfo
  alreadyOpen : Bool
  recipe : Recipe
  proxy : ProxyMtd
  heap : Heap

/-- The device without its memory. -/
def Device.forget (dev : Device) : MtdpartctlDevice :=
  ⟨dev.backingMtd, dev.alreadyOpen, dev.recipe.forget, dev.proxy⟩

/-! ### Restarting -/

/-- The loop of `restart_recipe`. -/
def restartRecipe.loop : List RecipeNode → Heap → Heap
  | [], heap => heap
  | node :: rest, heap => restartRecipe.loop rest (heap.kvfree node.block)

def restartRecipe (dev : Device) : Device :=
  { dev with
    recipe := ⟨[], 0⟩
    heap := restartRecipe.loop dev.recipe.partitions dev.heap }

def mtdpartctlChrdevOpen (dev : Device) : Int × Device :=
  if dev.alreadyOpen then (neg .EBUSY, dev)
  else (0, restartRecipe { dev with alreadyOpen := true })

/-- `mtdpartctl_chrdev_release` keeps the recipe. -/
def mtdpartctlChrdevRelease (dev : Device) : Device := { dev with alreadyOpen := false }

/-! ### Adding and deleting a part -/

/-- `add_recipe_part` while it holds `recipe->lock`. -/
def addRecipePartLocked (recipe : Recipe) (heap : Heap) (partition : ExtMtdPartitionInfo)
    (kvzalloc : Bool) : Except Oops (Int × Recipe × Heap) := do
  let ret ← verifyPartitionParamsLocked recipe.forget partition
  if ret < 0 then
    return (ret, recipe, heap)
  if !kvzalloc then
    return (neg .ENOMEM, recipe, heap)
  let newPart : RecipeNode := ⟨heap.allocs, newRecipePart partition⟩
  return (0, {
    partitions := recipe.partitions ++ [newPart]
    partsCount := recipe.partsCount + 1 }, heap.alloc .recipePart)

def addRecipePart (dev : Device) (partition : ExtMtdPartitionInfo) (kvzalloc : Bool) :
    Except Oops (Int × Device) := do
  let ret ← verifyPartitionBasicConditions dev.forget partition.base
  if ret < 0 then
    return (ret, dev)
  let (ret, recipe, heap) ← addRecipePartLocked dev.recipe dev.heap partition kvzalloc
  return (ret, { dev with recipe := recipe, heap := heap })

/-- The search for `index`: the node found and the list without it. -/
def delRecipePart.loop (index : UInt32) : UInt64 → List RecipeNode →
    Option (RecipeNode × List RecipeNode)
  | _, [] => none
  | curIdx, item :: rest =>
    if curIdx = index.toUInt64 then some (item, rest)
    else (delRecipePart.loop index (curIdx + 1) rest).map fun found => (found.1, item :: found.2)

def delRecipePart (dev : Device) (index : UInt32) : Int × Device :=
  match delRecipePart.loop index 0 dev.recipe.partitions with
  | some (item, partitions) => (0, { dev with
      recipe := { dev.recipe with partitions := partitions }
      heap := dev.heap.kvfree item.block })
  | none => (neg .ENOENT, dev)

/-! ### Conversion -/

/-- `convert_recipe_to_mtd_partitions_locked`: the return value and `*partitions_np`, with the
array in memory. -/
def convertRecipeToMtdPartitionsLocked (recipe : Recipe) (heap : Heap) (kvzalloc : Bool) :
    Except Oops (Int × Option (Block × List MtdPartition) × Heap) := do
  if recipe.partsCount = 0 then
    return (neg .EINVAL, none, heap)
  if recipe.partitions.isEmpty then throw .emptyRecipe
  if !kvzalloc then
    return (neg .ENOMEM, none, heap)
  let partitions ← convertRecipe.loop 0 (recipe.partitions.map (·.part))
    (List.replicate recipe.partsCount.toNat MtdPartition.zero)
  return (0, some (.mtdPartitions heap.allocs, partitions), heap.alloc .mtdPartitions)

def createRecipePartitions (core : MtdCore) (dev : Device) (kvzalloc : Bool) :
    Except Oops (Int × Device × List CoreCall) := do
  let (ret, partitions, heap) ←
    convertRecipeToMtdPartitionsLocked dev.recipe dev.heap kvzalloc
  if ret < 0 then
    return (ret, { dev with heap := heap }, [])
  if dev.recipe.partsCount = 0 then throw .zeroPartsCount
  let (ret, live, calls) ← respawnProxyMtdLocked core dev.forget (partitions.map (·.2))
    dev.recipe.partsCount
  -- The array is freed whatever the respawn returned.
  let heap := match partitions with
    | some (array, _) => heap.kvfree array
    | none => heap
  return (ret, { dev with proxy := live.proxy, heap := heap }, calls)

/-! ### Calls -/

def mtdpartctlChrdevIoctl (env : Env) (dev : Device) : Ioctl → Except Oops (Int × Device)
  | .recipeAddPart (some partition) => addRecipePart dev partition env.kvzalloc
  | .recipeDelPart (some idx) => return delRecipePart dev idx
  | .recipeCreatePartitions => do
    let (ret, dev, _) ← createRecipePartitions env.core dev env.kvzalloc
    return (ret, dev)
  | .restartRecipe => return (0, restartRecipe dev)
  | cmd => do
    -- No other command allocates, frees or touches the recipe.
    let result ← Mtdpartikr.mtdpartctlChrdevIoctl env dev.forget cmd
    return (result.ret, { dev with proxy := result.dev.proxy })

/-- One call: its return value and the device after it. -/
def deviceCall (env : Env) (dev : Device) : DevCall → Except Oops (Int × Device)
  | .open => pure (mtdpartctlChrdevOpen dev)
  | .release => pure (0, mtdpartctlChrdevRelease dev)
  | .ioctl cmd => mtdpartctlChrdevIoctl env dev cmd
  | .getDevice =>
    let (ret, proxy) := proxyMtdGetDevice dev.proxy
    pure (ret, { dev with proxy := proxy })
  | .putDevice => do
    let proxy ← proxyMtdPutDevice dev.proxy
    return (0, { dev with proxy := proxy })

/-! ### From creation to destruction -/

inductive State where
  | live (dev : Device)
  | destroyed (heap : Heap)

inductive Event where
  | call (env : Env) (call : DevCall)
  | destroy

/-- A device as `mtdpartctl_device_create` leaves it, with nothing allocated for its recipe. -/
structure Device.Created (dev : Device) : Prop where
  forget : dev.forget.Created
  heap : dev.heap = ⟨0, []⟩

variable {σ : Type}

/-- The device as the class has it in its array: what the class set, and what became of the
rest. -/
def Device.inClass (made : ClassDevice σ) (dev : Device) : ClassDevice σ :=
  { made with
    alreadyOpen := dev.alreadyOpen
    recipe := dev.recipe.forget
    useRefcnt := dev.proxy.useRefcnt
    aboutToRespawn := dev.proxy.aboutToRespawn }

/-- The `k`-th device of the class, which the class had as `made` after its creation. -/
def memorySystem (k : ℕ) (made : ClassDevice σ) : TransitionSystem State Event where
  init s := ∃ dev : Device, s = .live dev ∧ dev.Created
  step
    | .live dev, .call env call =>
      match deviceCall env dev call with
      | .ok (_, dev') => some (.live dev')
      | .error _ => none
    | .live dev, .destroy =>
      -- It gives back what the creation took, and leaves the recipe alone.
      match mtdpartctlDeviceDestroy k (dev.inClass made) ⟨false, [], []⟩ with
      | .ok _ => some (.destroyed dev.heap)
      | .error _ => none
    | .destroyed _, _ => none

end Mtdpartikr.Memory
