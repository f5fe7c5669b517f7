import Mtdpartikr.Kernel.CopyOut
import Mtdpartikr.Kernel.Equiv.Session

/-!
# Listing a recipe and submitting it again

* `copyListToUser.loop_eq`: with copies that succeed, a listing is the first `read_count` entries
  at consecutive slots.
* `session_relist`: a client that lists the recipe, restarts it and submits the listed entries in
  order gets every one accepted and has the recipe it started from.
-/

namespace Mtdpartikr

/-! ### The listing loop -/

section Loop

variable {α β : Type} (entry : α → β) {copyToUser : ℕ → Bool} {partsCount : UInt64}

/-- From slot `item` on, the loop writes the entries up to the count, one slot after the other. -/
theorem copyListToUser.loop_eq (hcopy : ∀ i, copyToUser i = true)
    (hcount : partsCount.toNat < 2 ^ 32) (parts : List α) :
    ∀ (item : ℕ) (tmpIdx : UInt32) (k : ℕ), tmpIdx.toNat + k = partsCount.toNat →
      copyListToUser.loop entry copyToUser partsCount item tmpIdx parts =
        (0, tmpIdx + UInt32.ofNat (parts.take k).length,
          ((parts.take k).zipIdx item).map fun x => (x.2, entry x.1)) := by
  induction parts with
  | nil => intro item tmpIdx k _; simp [copyListToUser.loop]
  | cons part rest ih =>
    intro item tmpIdx k hk
    have hle : partsCount ≤ tmpIdx.toUInt64 ↔ k = 0 := by
      rw [UInt64.le_iff_toNat_le, UInt32.toNat_toUInt64]
      omega
    rw [copyListToUser.loop]
    by_cases h0 : k = 0
    · rw [if_pos (hle.mpr h0), h0]
      simp
    · -- The counter stays below the count and so does not wrap.
      obtain ⟨j, rfl⟩ : ∃ j, k = j + 1 := ⟨k - 1, by omega⟩
      have hnext : (tmpIdx + 1).toNat + j = partsCount.toNat := by
        rw [UInt32.toNat_add, UInt32.toNat_one, Nat.mod_eq_of_lt (by omega)]
        omega
      rw [if_neg fun h => h0 (hle.mp h), if_neg (by simp [hcopy]), ih (item + 1) _ j hnext]
      have hsum : tmpIdx + 1 + UInt32.ofNat (rest.take j).length =
          tmpIdx + UInt32.ofNat ((rest.take j).length + 1) := by
        rw [UInt32.ofNat_add, UInt32.add_assoc, UInt32.add_comm 1]
        rfl
      simp only [hsum, List.take_succ_cons, List.zipIdx_cons, List.map_cons, List.length_cons]

/-- A listing whose copies succeed: the first `readCount` entries, slot by slot. -/
theorem copyListToUser_eq (hcopy : ∀ i, copyToUser i = true) (parts : List α)
    (readCount : UInt32) :
    copyListToUser entry copyToUser readCount.toUInt64 parts =
      (0, (parts.take readCount.toNat).zipIdx.map fun x => (x.2, entry x.1),
        some (UInt32.ofNat (parts.take readCount.toNat).length)) := by
  have hcount : readCount.toUInt64.toNat < 2 ^ 32 := by
    rw [UInt32.toNat_toUInt64]
    exact readCount.toNat_lt
  have hloop := copyListToUser.loop_eq entry hcopy hcount parts 0 0 readCount.toNat
    (by rw [UInt32.toNat_toUInt64]; simp)
  rw [UInt32.zero_add] at hloop
  unfold copyListToUser
  rw [hloop]
  simp [hcopy]

end Loop

/-- A listing with room for all parts. -/
theorem copyRecipePartsListToUser_eq {copyToUser : ℕ → Bool} (hcopy : ∀ i, copyToUser i = true)
    {recipe : MtdRecipe} {readCount : UInt32} (hroom : recipe.partitions.length ≤ readCount.toNat) :
    copyRecipePartsListToUser copyToUser recipe readCount.toUInt64 =
      (0, recipe.partitions.zipIdx.map fun x => (x.2, listedRecipePart x.1),
        some (UInt32.ofNat recipe.partitions.length)) := by
  have hlist := copyListToUser_eq listedRecipePart hcopy recipe.partitions readCount
  rw [List.take_of_length_le hroom] at hlist
  exact hlist

/-! ### Submitting a listing -/

/-- A part that was made from a request is made again from its listed entry. -/
theorem newRecipePart_listedRecipePart (partition : ExtMtdPartitionInfo) :
    newRecipePart (listedRecipePart (newRecipePart partition)) = newRecipePart partition := by
  have hname : (newRecipePart (listedRecipePart (newRecipePart partition))).name =
      (newRecipePart partition).name := by
    apply CBuf.ext
    exact CBuf.bytes_terminated_twice (by decide) (CBuf.bytes_terminated _ (by decide))
  have hwritable : (newRecipePart (listedRecipePart (newRecipePart partition))).writable =
      (newRecipePart partition).writable := Bool.not_not _
  simp only [MtdRecipePart.mk.injEq, newRecipePart, listedRecipePart] at hname hwritable ⊢
  exact ⟨trivial, trivial, hwritable, trivial, hname⟩

/-- Every part of a reachable recipe was made from a request. -/
theorem Reachable.newRecipePart_listed {dev : MtdpartctlDevice} (h : Reachable dev)
    {part : MtdRecipePart} (hpart : part ∈ dev.recipe.partitions) :
    newRecipePart (listedRecipePart part) = part := by
  obtain ⟨dev₀, es, hcreated, hrun⟩ := TransitionSystem.Reach.exists_run h
  obtain ⟨requests, heq, -⟩ := run_requests hcreated hrun
  rw [heq, List.mem_map] at hpart
  obtain ⟨partition, -, rfl⟩ := hpart
  exact newRecipePart_listedRecipePart partition

/-- The call that submits a listed entry. -/
def submitCall (env : Env) (entry : ExtMtdPartitionInfo) : Env × DevCall :=
  (env, .ioctl (.recipeAddPart (some entry)))

/-- The parts of a packing are accepted one after the other. -/
theorem session_submit {env : Env} (hk : env.kvzalloc = true) (parts : List MtdRecipePart)
    (hmade : ∀ part ∈ parts, newRecipePart (listedRecipePart part) = part) :
    ∀ dev : MtdpartctlDevice, RecipeInv dev.backingMtd (dev.recipe.partitions ++ parts) →
      session.outputs dev (parts.map fun part => submitCall env (listedRecipePart part)) =
        List.replicate parts.length (.returned (.ok (0, .none))) ∧
      ∃ dev', session.final dev
          (parts.map fun part => submitCall env (listedRecipePart part)) = some dev' ∧
        dev'.recipe.partitions = dev.recipe.partitions ++ parts := by
  induction parts with
  | nil =>
    intro dev _
    exact ⟨rfl, dev, rfl, (List.append_nil _).symm⟩
  | cons part rest ih =>
    intro dev hinv
    rw [List.forall_mem_cons] at hmade
    have hdone : RecipeInv dev.backingMtd dev.recipe.partitions :=
      hinv.sublist (List.sublist_append_left _ _)
    have hmem : part ∈ dev.recipe.partitions ++ part :: rest := by simp
    -- The recipe so far has room for the part: both are in one packing.
    have hacc : Acceptable dev.backingMtd dev.recipe.partitions (listedRecipePart part).base := by
      refine ⟨hinv.fits part hmem, fun q hq => ?_⟩
      exact (List.pairwise_append.mp hinv.disjoint).2.2 q hq part List.mem_cons_self
    have hstep : session.step dev (submitCall env (listedRecipePart part)) =
        (.returned (.ok (0, .none)), some (dev.appendPart (listedRecipePart part))) := by
      simp only [session, submitCall, answer, step_addPart hdone hacc hk, mtdpartctlChrdevIoctl, hk,
        addRecipePart_of_acceptable hdone hacc]
      rfl
    have hparts : (dev.appendPart (listedRecipePart part)).recipe.partitions =
        dev.recipe.partitions ++ [part] := by
      rw [← hmade.1]
      simp only [MtdpartctlDevice.appendPart, hmade.1]
    obtain ⟨hout, dev', hfinal, hdev'⟩ := ih hmade.2
      (dev.appendPart (listedRecipePart part)) (by
        rw [hparts, List.append_assoc]
        exact hinv)
    refine ⟨?_, dev', ?_, ?_⟩
    · simp only [List.map_cons, Machine.outputs, hstep, hout, List.length_cons,
        List.replicate_succ]
    · simp only [List.map_cons, Machine.final, hstep, Option.bind_some, hfinal]
    · rw [hdev', hparts, List.append_assoc, List.singleton_append]

/-- **A listed recipe can be submitted again as it is.**  The listing has one entry for every
part; after a restart every entry is accepted, and the recipe is the one that was listed, byte for
byte. -/
theorem session_relist {dev : MtdpartctlDevice} (h : Reachable dev) (env : Env)
    (hk : env.kvzalloc = true) (hcopy : ∀ i, env.copyToUser i = true) (readCount : UInt32)
    (hroom : dev.recipe.partitions.length ≤ readCount.toNat) :
    ∃ writes,
      session.step dev (env, .ioctl (.listRecipeParts (some readCount))) =
        (.returned (.ok (0, .recipeParts writes
          (some (UInt32.ofNat dev.recipe.partitions.length)))), some dev) ∧
      writes.map Prod.fst = List.range dev.recipe.partitions.length ∧
      session.outputs dev ((env, .ioctl .restartRecipe) ::
          writes.map fun w => submitCall env w.2) =
        List.replicate (dev.recipe.partitions.length + 1) (.returned (.ok (0, .none))) ∧
      ∃ dev', session.final dev ((env, .ioctl .restartRecipe) ::
          writes.map fun w => submitCall env w.2) = some dev' ∧
        dev'.recipe.partitions = dev.recipe.partitions := by
  refine ⟨dev.recipe.partitions.zipIdx.map fun x => (x.2, listedRecipePart x.1), ?_, ?_, ?_⟩
  · simp only [session, answer, deviceSystem, deviceCall, mtdpartctlChrdevIoctl,
      h.aboutToRespawn, copyRecipePartsListToUser_eq hcopy hroom]
    rfl
  · rw [List.map_map, List.range_eq_range', ← List.zipIdx_map_snd]
    rfl
  · have hsubmits : (dev.recipe.partitions.zipIdx.map fun x => (x.2, listedRecipePart x.1)).map
          (fun w => submitCall env w.2) =
        dev.recipe.partitions.map fun part => submitCall env (listedRecipePart part) := by
      conv_rhs => rw [← List.zipIdx_map_fst 0 dev.recipe.partitions]
      rw [List.map_map, List.map_map]
      rfl
    have hrestart : session.step dev (env, .ioctl .restartRecipe) =
        (.returned (.ok (0, .none)), some { dev with recipe := ⟨[], 0⟩ }) := rfl
    obtain ⟨hout, dev', hfinal, hdev'⟩ := session_submit hk dev.recipe.partitions
      (fun _ hpart => h.newRecipePart_listed hpart) { dev with recipe := ⟨[], 0⟩ } h.recipeInv
    rw [hsubmits]
    refine ⟨?_, dev', ?_, hdev'⟩
    · simp only [Machine.outputs, hrestart, hout, List.replicate_succ]
    · simp only [Machine.final, hrestart, Option.bind_some, hfinal]

/-- The recipe of one part. -/
theorem session_relist_oneBlockPart :
    ∃ (writes : List (ℕ × ExtMtdPartitionInfo)) (dev' : MtdpartctlDevice), writes.length = 1 ∧
      session.final (openDevice.appendPart oneBlockPart) ((.succeeding, .ioctl .restartRecipe) ::
        writes.map fun w => submitCall .succeeding w.2) = some dev' ∧
      dev'.recipe.partitions = [newRecipePart oneBlockPart] := by
  obtain ⟨writes, -, hslots, -, dev', hfinal, hdev'⟩ :=
    session_relist reachable_oneBlockPart .succeeding rfl (fun _ => rfl) 1 (by decide)
  have hlen := congrArg List.length hslots
  rw [List.length_map, List.length_range] at hlen
  exact ⟨writes, dev', hlen, hfinal, hdev'⟩

end Mtdpartikr
