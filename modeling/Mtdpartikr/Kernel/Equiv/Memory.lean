import Mtdpartikr.Kernel.Equiv.ClassInit
import Mtdpartikr.Kernel.Equiv.DeviceRun
import Mtdpartikr.Kernel.Memory

/-!
# What a device frees

`Kernel/Memory.lean` is `Kernel/Ioctl.lean` with the places in memory: forgetting them, every call
does the same (`deviceCall_forget`).

`HeapStep` says once what a call can do to the heap (`deviceCall_heap`).  Between two calls the
allocated blocks are those of the parts on the recipe (`HeapInv`), so nothing is freed twice, and
`mtdpartctl_device_destroy`, which does not free the parts, leaves exactly these allocated
(`memory_freed_iff`).
-/

namespace Mtdpartikr.Memory

open Ledger (Holds Released)

/-! ### The calls without the memory -/

theorem addRecipePartLocked_forget (recipe : Recipe) (heap : Heap)
    (partition : ExtMtdPartitionInfo) (kvzalloc : Bool) :
    (addRecipePartLocked recipe heap partition kvzalloc).map (fun r => (r.1, r.2.1.forget)) =
      Mtdpartikr.addRecipePartLocked recipe.forget partition kvzalloc := by
  unfold addRecipePartLocked Mtdpartikr.addRecipePartLocked
  cases verifyPartitionParamsLocked recipe.forget partition with
  | error o => rfl
  | ok ret =>
    simp only [bind, Except.bind]
    by_cases hret : ret < 0
    · rw [if_pos hret, if_pos hret]
      rfl
    · rw [if_neg hret, if_neg hret]
      cases kvzalloc with
      | false => rfl
      | true => simp [pure, Except.pure, Except.map, Recipe.forget]

theorem addRecipePart_forget (dev : Device) (partition : ExtMtdPartitionInfo) (kvzalloc : Bool) :
    (addRecipePart dev partition kvzalloc).map (fun r => (r.1, r.2.forget)) =
      Mtdpartikr.addRecipePart dev.forget partition kvzalloc := by
  unfold addRecipePart Mtdpartikr.addRecipePart
  cases verifyPartitionBasicConditions dev.forget partition.base with
  | error o => rfl
  | ok ret =>
    simp only [bind, Except.bind]
    by_cases hret : ret < 0
    · rw [if_pos hret, if_pos hret]
      rfl
    · rw [if_neg hret, if_neg hret]
      have hlocked := addRecipePartLocked_forget dev.recipe dev.heap partition kvzalloc
      have hrecipe : dev.forget.recipe = dev.recipe.forget := rfl
      rw [hrecipe, ← hlocked]
      cases addRecipePartLocked dev.recipe dev.heap partition kvzalloc <;> rfl

theorem delRecipePart.loop_forget (index : UInt32) (nodes : List RecipeNode) :
    ∀ curIdx : UInt64,
      (delRecipePart.loop index curIdx nodes).map (fun found => found.2.map (·.part)) =
        Mtdpartikr.delRecipePart.loop index curIdx (nodes.map (·.part)) := by
  induction nodes with
  | nil => intro curIdx; rfl
  | cons item rest ih =>
    intro curIdx
    rw [delRecipePart.loop, List.map_cons, Mtdpartikr.delRecipePart.loop]
    by_cases hidx : curIdx = index.toUInt64
    · rw [if_pos hidx, if_pos hidx]
      rfl
    · rw [if_neg hidx, if_neg hidx, ← ih, Option.map_map, Option.map_map]
      rfl

theorem delRecipePart_forget (dev : Device) (index : UInt32) :
    ((delRecipePart dev index).1, (delRecipePart dev index).2.forget) =
      Mtdpartikr.delRecipePart dev.forget index := by
  have hloop := delRecipePart.loop_forget index dev.recipe.partitions 0
  unfold delRecipePart Mtdpartikr.delRecipePart delRecipePartLocked
  have hparts : dev.forget.recipe.partitions = dev.recipe.partitions.map (·.part) := rfl
  rw [hparts, ← hloop]
  cases delRecipePart.loop index 0 dev.recipe.partitions with
  | none => rfl
  | some found => rfl

theorem convertRecipeToMtdPartitionsLocked_forget (recipe : Recipe) (heap : Heap)
    (kvzalloc : Bool) :
    (convertRecipeToMtdPartitionsLocked recipe heap kvzalloc).map
        (fun r => (r.1, r.2.1.map (·.2))) =
      Mtdpartikr.convertRecipeToMtdPartitionsLocked recipe.forget kvzalloc := by
  unfold convertRecipeToMtdPartitionsLocked Mtdpartikr.convertRecipeToMtdPartitionsLocked
  have hempty : recipe.forget.partitions.isEmpty = recipe.partitions.isEmpty := by
    simp [Recipe.forget]
  have hcount : recipe.forget.partsCount = recipe.partsCount := rfl
  rw [hempty, hcount]
  by_cases hzero : recipe.partsCount = 0
  · rw [if_pos hzero, if_pos hzero]
    rfl
  · rw [if_neg hzero, if_neg hzero]
    cases recipe.partitions.isEmpty with
    | true => rfl
    | false =>
      cases kvzalloc with
      | false => rfl
      | true =>
        show _ = (convertRecipe.loop 0 (recipe.partitions.map (·.part)) _ >>= _)
        cases convertRecipe.loop 0 (recipe.partitions.map (·.part))
          (List.replicate recipe.partsCount.toNat MtdPartition.zero) <;> rfl

theorem createRecipePartitions_forget (core : MtdCore) (dev : Device) (kvzalloc : Bool) :
    (createRecipePartitions core dev kvzalloc).map (fun r => (r.1, r.2.1.forget, r.2.2)) =
      Mtdpartikr.createRecipePartitions core dev.forget kvzalloc := by
  have hconv := convertRecipeToMtdPartitionsLocked_forget dev.recipe dev.heap kvzalloc
  have hrecipe : dev.forget.recipe = dev.recipe.forget := rfl
  have hcount : dev.recipe.forget.partsCount = dev.recipe.partsCount := rfl
  unfold createRecipePartitions Mtdpartikr.createRecipePartitions
  rw [hrecipe, ← hconv, hcount]
  cases convertRecipeToMtdPartitionsLocked dev.recipe dev.heap kvzalloc with
  | error o => rfl
  | ok r =>
    obtain ⟨ret, partitions, heap⟩ := r
    simp only [bind, Except.bind, Except.map]
    by_cases hret : ret < 0
    · rw [if_pos hret, if_pos hret]
      rfl
    · rw [if_neg hret, if_neg hret]
      by_cases hzero : dev.recipe.partsCount = 0
      · rw [if_pos hzero, if_pos hzero]
        rfl
      · rw [if_neg hzero, if_neg hzero]
        cases hresp : respawnProxyMtdLocked core dev.forget (partitions.map (·.2))
          dev.recipe.partsCount with
        | error o => rfl
        | ok live =>
          -- The respawn changes the proxy only.
          obtain ⟨mtd, hlive⟩ := respawnProxyMtdLocked_frame core dev.forget hresp
          have hproxy : { dev.forget with proxy := live.2.1.proxy } = live.2.1 := by
            rw [hlive]
            rfl
          show Except.ok (live.1, { dev.forget with proxy := live.2.1.proxy }, live.2.2) = _
          rw [hproxy]

/-- The commands that neither allocate nor free. -/
def KeepsMemory : Ioctl → Prop
  | .recipeAddPart (some _) | .recipeDelPart (some _) | .recipeCreatePartitions
  | .restartRecipe => False
  | _ => True

theorem mtdpartctlChrdevIoctl_keeps (env : Env) (dev : Device) {cmd : Ioctl}
    (hcmd : KeepsMemory cmd) :
    mtdpartctlChrdevIoctl env dev cmd = (do
      let result ← Mtdpartikr.mtdpartctlChrdevIoctl env dev.forget cmd
      return (result.ret, { dev with proxy := result.dev.proxy })) := by
  cases cmd with
  | recipeAddPart arg | recipeDelPart arg =>
    cases arg with
    | none => rfl
    | some arg => cases hcmd
  | recipeCreatePartitions | restartRecipe => cases hcmd
  | _ => rfl

/-- These commands change the proxy at most. -/
theorem ioctl_frame {env : Env} {dev : MtdpartctlDevice} {cmd : Ioctl} {r : IoctlResult}
    (hcmd : KeepsMemory cmd) (h : Mtdpartikr.mtdpartctlChrdevIoctl env dev cmd = .ok r) :
    { dev with proxy := r.dev.proxy } = r.dev := by
  cases ioctl_outcome h with
  | recipeAdd | recipeDel | restart | create => cases hcmd
  | read | edit => rfl
  | delete hdelete =>
    obtain ⟨mtd, hmtd⟩ := respawnProxyMtdLocked_frame env.core dev hdelete
    simp only [hmtd]
    rfl

theorem mtdpartctlChrdevIoctl_forget (env : Env) (dev : Device) (cmd : Ioctl) :
    (mtdpartctlChrdevIoctl env dev cmd).map (fun r => (r.1, r.2.forget)) =
      (Mtdpartikr.mtdpartctlChrdevIoctl env dev.forget cmd).map (fun r => (r.ret, r.dev)) := by
  by_cases hcmd : KeepsMemory cmd
  · rw [mtdpartctlChrdevIoctl_keeps env dev hcmd]
    cases hioctl : Mtdpartikr.mtdpartctlChrdevIoctl env dev.forget cmd with
    | error o => rfl
    | ok r =>
      have hframe := ioctl_frame hcmd hioctl
      show Except.ok (r.ret, { dev.forget with proxy := r.dev.proxy }) = _
      rw [hframe]
      rfl
  · cases cmd with
    | recipeAddPart arg =>
      cases arg with
      | none => exact absurd trivial hcmd
      | some partition =>
        have hadd := addRecipePart_forget dev partition env.kvzalloc
        show (addRecipePart dev partition env.kvzalloc).map _ =
          (Mtdpartikr.addRecipePart dev.forget partition env.kvzalloc >>= _).map _
        rw [← hadd]
        cases addRecipePart dev partition env.kvzalloc <;> rfl
    | recipeDelPart arg =>
      cases arg with
      | none => exact absurd trivial hcmd
      | some index => exact congrArg Except.ok (delRecipePart_forget dev index)
    | recipeCreatePartitions =>
      have hcreate := createRecipePartitions_forget env.core dev env.kvzalloc
      show (createRecipePartitions env.core dev env.kvzalloc >>= _).map _ =
        (Mtdpartikr.createRecipePartitions env.core dev.forget env.kvzalloc >>= _).map _
      rw [← hcreate]
      cases createRecipePartitions env.core dev env.kvzalloc <;> rfl
    | restartRecipe => rfl
    | _ => exact absurd trivial hcmd

/-- **Every call does what it does without the memory.** -/
theorem deviceCall_forget (env : Env) (dev : Device) (call : DevCall) :
    (deviceCall env dev call).map (fun r => (r.1, r.2.forget)) =
      Mtdpartikr.deviceCall env dev.forget call := by
  cases call with
  | «open» =>
    show Except.ok _ = Except.ok (Mtdpartikr.mtdpartctlChrdevOpen dev.forget)
    unfold mtdpartctlChrdevOpen Mtdpartikr.mtdpartctlChrdevOpen
    have hopen : dev.forget.alreadyOpen = dev.alreadyOpen := rfl
    rw [hopen]
    cases dev.alreadyOpen <;> rfl
  | release => rfl
  | ioctl cmd =>
    have hioctl := mtdpartctlChrdevIoctl_forget env dev cmd
    show (mtdpartctlChrdevIoctl env dev cmd).map _ =
      (Mtdpartikr.mtdpartctlChrdevIoctl env dev.forget cmd >>= _)
    rw [hioctl]
    cases Mtdpartikr.mtdpartctlChrdevIoctl env dev.forget cmd <;> rfl
  | getDevice => rfl
  | putDevice =>
    show (proxyMtdPutDevice dev.proxy >>= _).map _ = (proxyMtdPutDevice dev.proxy >>= _)
    cases proxyMtdPutDevice dev.proxy <;> rfl

/-! ### What a call does to the heap -/

/-- The lists and heaps a call can leave behind. -/
inductive HeapStep (nodes : List RecipeNode) (heap : Heap) : List RecipeNode → Heap → Prop
  | same : HeapStep nodes heap nodes heap
  | restarted : HeapStep nodes heap [] (restartRecipe.loop nodes heap)
  | added (part : MtdRecipePart) :
      HeapStep nodes heap (nodes ++ [⟨heap.allocs, part⟩]) (heap.alloc .recipePart)
  | deleted {before after : List RecipeNode} {item : RecipeNode} :
      nodes = before ++ item :: after →
      HeapStep nodes heap (before ++ after) (heap.kvfree item.block)
  /-- An array was allocated and freed. -/
  | converted : HeapStep nodes heap nodes
      ((heap.alloc .mtdPartitions).kvfree (.mtdPartitions heap.allocs))

theorem addRecipePart_heap {dev : Device} {partition : ExtMtdPartitionInfo} {kvzalloc : Bool}
    {r : Int × Device} (h : addRecipePart dev partition kvzalloc = .ok r) :
    HeapStep dev.recipe.partitions dev.heap r.2.recipe.partitions r.2.heap := by
  obtain ⟨ret, -, h⟩ := bind_eq_ok h
  split_ifs at h
  · obtain rfl := Except.ok.inj h
    exact .same
  · obtain ⟨r', hlocked, h⟩ := bind_eq_ok h
    obtain rfl := Except.ok.inj h
    obtain ⟨ret', -, hlocked⟩ := bind_eq_ok hlocked
    split_ifs at hlocked
    · obtain rfl := Except.ok.inj hlocked
      exact .same
    · obtain rfl := Except.ok.inj hlocked
      exact .same
    · obtain rfl := Except.ok.inj hlocked
      exact .added _

/-- The node that is found is taken out of the list. -/
theorem delRecipePart.loop_eq_some {index : UInt32} {item : RecipeNode} (nodes : List RecipeNode) :
    ∀ {curIdx : UInt64} {rest : List RecipeNode},
      delRecipePart.loop index curIdx nodes = some (item, rest) →
      ∃ before after, nodes = before ++ item :: after ∧ rest = before ++ after := by
  induction nodes with
  | nil => intro curIdx rest h; cases h
  | cons node nodes ih =>
    intro curIdx rest h
    rw [delRecipePart.loop] at h
    split_ifs at h
    · obtain ⟨rfl, rfl⟩ := Prod.mk.inj (Option.some.inj h)
      exact ⟨[], nodes, rfl, rfl⟩
    · obtain ⟨⟨found, rest'⟩, hfound, heq⟩ := Option.map_eq_some_iff.mp h
      obtain ⟨rfl, rfl⟩ := Prod.mk.inj heq
      obtain ⟨before, after, rfl, rfl⟩ := ih hfound
      exact ⟨node :: before, after, rfl, rfl⟩

theorem delRecipePart_heap (dev : Device) (index : UInt32) :
    HeapStep dev.recipe.partitions dev.heap (delRecipePart dev index).2.recipe.partitions
      (delRecipePart dev index).2.heap := by
  unfold delRecipePart
  cases hloop : delRecipePart.loop index 0 dev.recipe.partitions with
  | none => exact .same
  | some found =>
    obtain ⟨before, after, hnodes, hrest⟩ := delRecipePart.loop_eq_some _ hloop
    simp only [hrest]
    exact .deleted hnodes

/-- The conversion has allocated the array it returns, and nothing else. -/
theorem convertRecipeToMtdPartitionsLocked_heap {recipe : Recipe} {heap heap' : Heap}
    {kvzalloc : Bool} {ret : Int} {partitions : Option (Block × List MtdPartition)}
    (h : convertRecipeToMtdPartitionsLocked recipe heap kvzalloc = .ok (ret, partitions, heap')) :
    (partitions = none ∧ heap' = heap) ∨
      (ret = 0 ∧ heap' = heap.alloc .mtdPartitions ∧
        ∃ entries, partitions = some (.mtdPartitions heap.allocs, entries)) := by
  unfold convertRecipeToMtdPartitionsLocked at h
  by_cases hzero : recipe.partsCount = 0
  · rw [if_pos hzero] at h
    obtain ⟨-, rfl, rfl⟩ := Except.ok.inj h
    exact .inl ⟨rfl, rfl⟩
  · rw [if_neg hzero] at h
    cases hempty : recipe.partitions.isEmpty with
    | true =>
      rw [hempty] at h
      cases h
    | false =>
      rw [hempty] at h
      cases kvzalloc with
      | false =>
        obtain ⟨-, rfl, rfl⟩ := Except.ok.inj h
        exact .inl ⟨rfl, rfl⟩
      | true =>
        obtain ⟨entries, -, h⟩ := bind_eq_ok h
        obtain ⟨rfl, rfl, rfl⟩ := Except.ok.inj h
        exact .inr ⟨rfl, rfl, entries, rfl⟩

theorem createRecipePartitions_heap {core : MtdCore} {dev : Device} {kvzalloc : Bool}
    {r : Int × Device × List CoreCall} (h : createRecipePartitions core dev kvzalloc = .ok r) :
    HeapStep dev.recipe.partitions dev.heap r.2.1.recipe.partitions r.2.1.heap := by
  obtain ⟨⟨ret, partitions, heap⟩, hconv, h⟩ := bind_eq_ok h
  simp only at h
  by_cases hret : ret < 0
  · rw [if_pos hret] at h
    obtain rfl := Except.ok.inj h
    rcases convertRecipeToMtdPartitionsLocked_heap hconv with ⟨-, rfl⟩ | ⟨rfl, -⟩
    · exact .same
    · omega
  · rw [if_neg hret] at h
    by_cases hzero : dev.recipe.partsCount = 0
    · rw [if_pos hzero] at h
      cases h
    · rw [if_neg hzero] at h
      obtain ⟨live, -, h⟩ := bind_eq_ok h
      obtain rfl := Except.ok.inj h
      rcases convertRecipeToMtdPartitionsLocked_heap hconv with
        ⟨rfl, rfl⟩ | ⟨-, rfl, entries, rfl⟩
      · exact .same
      · exact .converted

theorem ioctl_heap {env : Env} {dev : Device} {cmd : Ioctl} {r : Int × Device}
    (h : mtdpartctlChrdevIoctl env dev cmd = .ok r) :
    HeapStep dev.recipe.partitions dev.heap r.2.recipe.partitions r.2.heap := by
  by_cases hcmd : KeepsMemory cmd
  · rw [mtdpartctlChrdevIoctl_keeps env dev hcmd] at h
    obtain ⟨result, -, h⟩ := bind_eq_ok h
    obtain rfl := Except.ok.inj h
    exact .same
  · cases cmd with
    | recipeAddPart arg =>
      cases arg with
      | none => exact absurd trivial hcmd
      | some partition => exact addRecipePart_heap h
    | recipeDelPart arg =>
      cases arg with
      | none => exact absurd trivial hcmd
      | some index =>
        obtain rfl := Except.ok.inj h
        exact delRecipePart_heap dev index
    | recipeCreatePartitions =>
      obtain ⟨r', hcreate, h⟩ := bind_eq_ok h
      obtain rfl := Except.ok.inj h
      exact createRecipePartitions_heap hcreate
    | restartRecipe =>
      obtain rfl := Except.ok.inj h
      exact .restarted
    | _ => exact absurd trivial hcmd

/-- **Every call is a step of the heap.** -/
theorem deviceCall_heap {env : Env} {dev dev' : Device} {call : DevCall} {ret : Int}
    (h : deviceCall env dev call = .ok (ret, dev')) :
    HeapStep dev.recipe.partitions dev.heap dev'.recipe.partitions dev'.heap := by
  cases call with
  | «open» =>
    unfold deviceCall mtdpartctlChrdevOpen at h
    split_ifs at h
    · obtain ⟨-, rfl⟩ := Prod.mk.inj (Except.ok.inj h)
      exact .same
    · obtain ⟨-, rfl⟩ := Prod.mk.inj (Except.ok.inj h)
      exact .restarted
  | release =>
    obtain ⟨-, rfl⟩ := Prod.mk.inj (Except.ok.inj h)
    exact .same
  | ioctl cmd => exact ioctl_heap h
  | getDevice =>
    obtain ⟨-, rfl⟩ := Prod.mk.inj (Except.ok.inj h)
    exact .same
  | putDevice =>
    obtain ⟨proxy, -, h⟩ := bind_eq_ok h
    obtain ⟨-, rfl⟩ := Prod.mk.inj (Except.ok.inj h)
    exact .same

/-! ### What is allocated between two calls -/

/-- The blocks that are allocated are those of the nodes. -/
structure HeapInv (nodes : List RecipeNode) (heap : Heap) : Prop where
  holds : Holds heap.trace (· ∈ nodes.map RecipeNode.block)
  nodup : (nodes.map RecipeNode.block).Nodup
  addr_lt : ∀ node ∈ nodes, node.addr < heap.allocs

theorem HeapInv.nil : HeapInv [] ⟨0, []⟩ where
  holds := Holds.nil.congr fun b => by simp
  nodup := List.nodup_nil
  addr_lt := by simp

/-- What is allocated next is not on the recipe. -/
theorem HeapInv.fresh {nodes : List RecipeNode} {heap : Heap} (h : HeapInv nodes heap) :
    .recipePart heap.allocs ∉ nodes.map RecipeNode.block := by
  intro hmem
  obtain ⟨node, hnode, hblock⟩ := List.mem_map.mp hmem
  have haddr : node.addr = heap.allocs := Block.recipePart.inj hblock
  have hlt := h.addr_lt node hnode
  omega

theorem restartRecipe.loop_eq (nodes : List RecipeNode) :
    ∀ heap : Heap, restartRecipe.loop nodes heap =
      { heap with trace := heap.trace ++ (nodes.map RecipeNode.block).map .release } := by
  induction nodes with
  | nil => intro heap; simp [restartRecipe.loop]
  | cons node rest ih => intro heap; simp [restartRecipe.loop, ih, Heap.kvfree]

section

variable {nodes : List RecipeNode} {heap : Heap}

theorem HeapInv.restart (hinv : HeapInv nodes heap) :
    HeapInv [] (restartRecipe.loop nodes heap) := by
  rw [restartRecipe.loop_eq]
  have hreleased := hinv.holds.releaseAll _ hinv.nodup fun _ hb => hb
  exact ⟨hreleased.congr fun b => by simp, List.nodup_nil, by simp⟩

theorem HeapInv.append (hinv : HeapInv nodes heap) (part : MtdRecipePart) :
    HeapInv (nodes ++ [⟨heap.allocs, part⟩]) (heap.alloc .recipePart) where
  holds := by
    refine (hinv.holds.acquire hinv.fresh).congr fun b => ?_
    rw [List.map_append, List.mem_append, List.map_singleton, List.mem_singleton]
    exact or_comm
  nodup := by
    rw [List.map_append, List.map_singleton]
    have hnew : (nodes.map RecipeNode.block).Disjoint [.recipePart heap.allocs] :=
      List.disjoint_singleton.mpr hinv.fresh
    exact hinv.nodup.append (List.nodup_singleton _) hnew
  addr_lt := by
    intro node hnode
    show node.addr < heap.allocs + 1
    rcases List.mem_append.mp hnode with hnode | hnode
    · have hlt := hinv.addr_lt node hnode
      omega
    · have heq : node.addr = heap.allocs := by rw [List.mem_singleton.mp hnode]
      omega

theorem HeapInv.remove {before after : List RecipeNode} {item : RecipeNode}
    (hinv : HeapInv (before ++ item :: after) heap) :
    HeapInv (before ++ after) (heap.kvfree item.block) := by
  have hperm : ((before ++ item :: after).map RecipeNode.block).Perm
      (item.block :: (before ++ after).map RecipeNode.block) :=
    List.perm_middle.map RecipeNode.block
  obtain ⟨hnot, hnodup⟩ := List.nodup_cons.mp (hperm.nodup_iff.mp hinv.nodup)
  have hreleased := hinv.holds.release (hperm.mem_iff.mpr (List.mem_cons_self ..))
  refine ⟨hreleased.congr fun b => ?_, hnodup, fun node hnode => hinv.addr_lt node ?_⟩
  · rw [hperm.mem_iff, List.mem_cons]
    constructor
    · rintro ⟨hne, heq | hmem⟩
      · exact absurd heq hne
      · exact hmem
    · exact fun hmem => ⟨fun heq => hnot (heq ▸ hmem), .inr hmem⟩
  · exact List.perm_middle.mem_iff.mpr (List.mem_cons_of_mem _ hnode)

/-- The array of a dispatch is gone when the dispatch is over. -/
theorem HeapInv.convert (hinv : HeapInv nodes heap) :
    HeapInv nodes ((heap.alloc .mtdPartitions).kvfree (.mtdPartitions heap.allocs)) := by
  have hnot : .mtdPartitions heap.allocs ∉ nodes.map RecipeNode.block := by
    intro hmem
    obtain ⟨node, -, hblock⟩ := List.mem_map.mp hmem
    cases hblock
  refine ⟨hinv.holds.borrow hnot, hinv.nodup, fun node hnode => ?_⟩
  have hlt := hinv.addr_lt node hnode
  show node.addr < heap.allocs + 1
  omega

/-- **A step of the heap keeps the invariant.** -/
theorem HeapStep.inv {nodes' : List RecipeNode} {heap' : Heap}
    (h : HeapStep nodes heap nodes' heap') (hinv : HeapInv nodes heap) : HeapInv nodes' heap' := by
  cases h with
  | same => exact hinv
  | restarted => exact hinv.restart
  | added part => exact hinv.append part
  | deleted hnodes => exact (hnodes ▸ hinv).remove
  | converted => exact hinv.convert

end

/-! ### Runs -/

section

variable {σ : Type} {k : ℕ} {made : ClassDevice σ}

/-- The destruction leaves the heap as it is. -/
theorem destroyed_of_step {dev : Device} {s : State}
    (h : (memorySystem k made).step (.live dev) .destroy = some s) : s = .destroyed dev.heap := by
  simp only [memorySystem] at h
  cases hdestroy : mtdpartctlDeviceDestroy k (dev.inClass made) ⟨false, [], []⟩ with
  | error o =>
    rw [hdestroy] at h
    cases h
  | ok kernel =>
    rw [hdestroy] at h
    exact (Option.some.inj h).symm

/-- A step that leaves the device alive is a call that returned. -/
theorem deviceCall_of_step {s : State} {dev' : Device} {e : Event}
    (h : (memorySystem k made).step s e = some (.live dev')) :
    ∃ dev env call ret, s = .live dev ∧ e = .call env call ∧
      deviceCall env dev call = .ok (ret, dev') := by
  cases s with
  | destroyed heap => cases h
  | live dev =>
    cases e with
    | call env call =>
      simp only [memorySystem] at h
      cases hcall : deviceCall env dev call with
      | error o =>
        rw [hcall] at h
        cases h
      | ok r =>
        rw [hcall] at h
        obtain rfl := State.live.inj (Option.some.inj h)
        exact ⟨dev, env, call, r.1, rfl, rfl, hcall⟩
    | destroy => cases destroyed_of_step h

/-- What holds after the creation and is kept by every call holds of every device in a run. -/
theorem live_invariant {P : Device → Prop} (hcreated : ∀ dev : Device, dev.Created → P dev)
    (hcall : ∀ dev env call ret dev', P dev → deviceCall env dev call = .ok (ret, dev') → P dev')
    {dev : Device} (h : (memorySystem k made).Reach (fun _ _ => True) (.live dev)) : P dev := by
  have hlive : ∀ dev', State.live dev = .live dev' → P dev' := by
    refine h.invariant (P := fun s => ∀ dev', s = .live dev' → P dev') ?_ ?_
    · rintro s ⟨dev, rfl, hdev⟩ dev' heq
      obtain rfl := State.live.inj heq
      exact hcreated dev hdev
    · rintro s e s' ih - hstep dev' rfl
      obtain ⟨dev, env, call, ret, hs, -, hok⟩ := deviceCall_of_step hstep
      exact hcall dev env call ret dev' (ih dev hs) hok
  exact hlive dev rfl

/-- **The device with its memory is the device.** -/
theorem reachable_forget {dev : Device}
    (h : (memorySystem k made).Reach (fun _ _ => True) (.live dev)) : Reachable dev.forget := by
  refine live_invariant (P := fun dev => Reachable dev.forget)
    (fun dev hdev => .init hdev.forget) ?_ h
  intro dev env call ret dev' hdev hcall
  have hforget := deviceCall_forget env dev call
  rw [hcall] at hforget
  refine .step (e := (env, call)) hdev trivial ?_
  simp only [deviceSystem]
  rw [← hforget]
  rfl

theorem heapInv_reach {dev : Device}
    (h : (memorySystem k made).Reach (fun _ _ => True) (.live dev)) :
    HeapInv dev.recipe.partitions dev.heap := by
  refine live_invariant (P := fun dev => HeapInv dev.recipe.partitions dev.heap) ?_ ?_ h
  · intro dev hdev
    have hnil : dev.recipe.partitions = [] := by
      have hforget : dev.recipe.partitions.map (·.part) = [] :=
        congrArg MtdRecipe.partitions hdev.forget.recipe
      exact List.map_eq_nil_iff.mp hforget
    rw [hnil, hdev.heap]
    exact .nil
  · exact fun dev env call ret dev' hinv hcall => (deviceCall_heap hcall).inv hinv

/-- **A run frees everything it allocated exactly once** if and only if the recipe is empty when
`mtdpartctl_device_destroy` is called. -/
theorem memory_freed_iff {dev : Device} {heap : Heap}
    (hrun : (memorySystem k made).Reach (fun _ _ => True) (.live dev))
    (hdestroy : (memorySystem k made).step (.live dev) .destroy = some (.destroyed heap)) :
    Released heap.trace ↔ dev.recipe.partitions = [] := by
  rw [State.destroyed.inj (destroyed_of_step hdestroy), (heapInv_reach hrun).holds.released_iff]
  rw [← List.map_eq_nil_iff, ← List.eq_nil_iff_forall_not_mem]

end

/-! ### Two runs -/

/-- The device `mtdpartctl_device_create` makes. -/
def Device.create (backingMtd : MtdInfo) (proxyIndex : Int32) : Device :=
  ⟨backingMtd, false, ⟨[], 0⟩, (MtdpartctlDevice.create backingMtd proxyIndex).proxy, ⟨0, []⟩⟩

theorem Device.created_create (backingMtd : MtdInfo) (proxyIndex : Int32) :
    (Device.create backingMtd proxyIndex).Created :=
  ⟨MtdpartctlDevice.created_create _ _, rfl⟩

/-- The first device of the class, on a NOR chip. -/
def norDevice : ClassDevice Unit := madeDevice 0 0 (norChip 0) (norChip 1)

/-- A part is added and dispatched, and the next session restarts the recipe. -/
theorem memory_freed_reopened :
    ∃ dev heap,
      (memorySystem 0 norDevice).run (.live (Device.create ⟨0, 0x1000, 0x1000⟩ 1))
          [.call .succeeding .open, .call .succeeding (.ioctl (.recipeAddPart (some oneBlockPart))),
            .call .succeeding (.ioctl .recipeCreatePartitions), .call .succeeding .release,
            .call .succeeding .open, .call .succeeding .release] = some (.live dev) ∧
        (memorySystem 0 norDevice).step (.live dev) .destroy = some (.destroyed heap) ∧
        heap.trace = [.acquire (.recipePart 0), .acquire (.mtdPartitions 1),
          .release (.mtdPartitions 1), .release (.recipePart 0)] ∧
        Released heap.trace := by
  obtain ⟨dev, heap, hrun, hdestroy, htrace, hnil⟩ : ∃ dev heap,
      (memorySystem 0 norDevice).run (.live (Device.create ⟨0, 0x1000, 0x1000⟩ 1))
          [.call .succeeding .open, .call .succeeding (.ioctl (.recipeAddPart (some oneBlockPart))),
            .call .succeeding (.ioctl .recipeCreatePartitions), .call .succeeding .release,
            .call .succeeding .open, .call .succeeding .release] = some (.live dev) ∧
        (memorySystem 0 norDevice).step (.live dev) .destroy = some (.destroyed heap) ∧
        heap.trace = [.acquire (.recipePart 0), .acquire (.mtdPartitions 1),
          .release (.mtdPartitions 1), .release (.recipePart 0)] ∧
        dev.recipe.partitions = [] := ⟨_, _, rfl, rfl, rfl, rfl⟩
  refine ⟨dev, heap, hrun, hdestroy, htrace, ?_⟩
  have hinit : (memorySystem 0 norDevice).init (.live (Device.create ⟨0, 0x1000, 0x1000⟩ 1)) :=
    ⟨_, rfl, Device.created_create _ _⟩
  have hreach : (memorySystem 0 norDevice).Reach (fun _ _ => True) (.live dev) :=
    .of_run _ (fun _ _ => trivial) (.init hinit) hrun
  exact (memory_freed_iff hreach hdestroy).mpr hnil

/-- A part is added, the session ends and the device is destroyed: the part stays allocated. -/
theorem memory_leaked :
    ∃ dev heap,
      (memorySystem 0 norDevice).run (.live (Device.create ⟨0, 0x1000, 0x1000⟩ 1))
          [.call .succeeding .open, .call .succeeding (.ioctl (.recipeAddPart (some oneBlockPart))),
            .call .succeeding .release] = some (.live dev) ∧
        (memorySystem 0 norDevice).step (.live dev) .destroy = some (.destroyed heap) ∧
        heap.trace = [.acquire (.recipePart 0)] ∧ ¬ Released heap.trace :=
  ⟨_, _, rfl, rfl, rfl, by decide⟩

end Mtdpartikr.Memory
