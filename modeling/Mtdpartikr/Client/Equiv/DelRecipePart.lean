import Mtdpartikr.Client.Equiv.Repl
import Mtdpartikr.Kernel.Equiv.Positions

/-!
# Deleting a recipe part by its index

The index of `del_recipe_part` is a `uint` of Go and a `size_t` of the wrapper, and goes to the
kernel as a `u32`.  `recipeDelPart_iff`: the part at the index is deleted, and an index behind the
list refused, exactly where the cut to 32 bits does not matter.
-/

namespace Mtdpartikr.Client

variable {ε : Type}

/-- `del_recipe_part` by the positions of `LIST_RECIPE_PARTS`. -/
structure DeletesShown (ε : Type) (env : ReplEnv) (session : Session) (index : UInt64) :
    Prop where
  /-- An index on the list succeeds: the part that is listed there is removed, the order of the
  others kept. -/
  below : index.toNat < session.dev.recipe.partitions.length → ∃ part session',
    session.dev.recipe.partitions[index.toNat]? = some part ∧
    (∀ listEnv : Env, (∀ i, listEnv.copyToUser i = true) → ∀ readCount : UInt32,
      index.toNat < readCount.toNat → ∃ writes count,
        mtdpartctlChrdevIoctl listEnv session.dev (.listRecipeParts (some readCount)) =
          .ok ⟨0, session.dev, [], .recipeParts writes count⟩ ∧
        (index.toNat, listedRecipePart part) ∈ writes) ∧
    (mtdpartctlRecipeDelPart env index : ClientM ε Int).outcome session = (.ok 0, session') ∧
    session'.dev.recipe.partitions = session.dev.recipe.partitions.eraseIdx index.toNat
  /-- An index behind the list is refused. -/
  beyond : session.dev.recipe.partitions.length ≤ index.toNat → ∃ session',
    (mtdpartctlRecipeDelPart env index : ClientM ε Int).outcome session =
      (.ok (neg .ENOENT), session') ∧
    session'.dev.recipe.partitions = session.dev.recipe.partitions

section DelRecipePart

variable {env : ReplEnv} (hcopy : env.copyFromUser = true)

include hcopy

/-- The wrapper deletes at the low 32 bits of the index. -/
theorem mtdpartctlRecipeDelPart_outcome (session : Session) (index : UInt64) :
    ∃ session', (mtdpartctlRecipeDelPart env index : ClientM ε Int).outcome session =
      (.ok (delRecipePart session.dev index.toUInt32).1, session') ∧
    session'.dev = (delRecipePart session.dev index.toUInt32).2 := by
  have hioctl : mtdpartctlChrdevIoctl env.toEnv session.dev
      (.recipeDelPart (if env.copyFromUser then some index.toUInt32 else none)) =
      .ok ⟨(delRecipePart session.dev index.toUInt32).1,
        (delRecipePart session.dev index.toUInt32).2, [], .none⟩ := by
    rw [hcopy]
    rfl
  exact ⟨_, @outcome_ioctl_ok ε (fun _ => env.toClientEnv) session
    (fun env => .recipeDelPart (if env.copyFromUser then some index.toUInt32 else none)) _ hioctl,
    rfl⟩

/-- The wrapper on an index whose low 32 bits are on the list. -/
theorem mtdpartctlRecipeDelPart_of_lt {session : Session} {index : UInt64}
    (h : index.toNat % 2 ^ 32 < session.dev.recipe.partitions.length) :
    ∃ session', (mtdpartctlRecipeDelPart env index : ClientM ε Int).outcome session =
      (.ok 0, session') ∧ session'.dev.recipe.partitions =
        session.dev.recipe.partitions.eraseIdx (index.toNat % 2 ^ 32) := by
  obtain ⟨session', hout, hdev⟩ := mtdpartctlRecipeDelPart_outcome (ε := ε) hcopy session index
  have hlow : index.toUInt32.toNat = index.toNat % 2 ^ 32 := UInt64.toNat_toUInt32 index
  unfold delRecipePart at hout hdev
  rw [delRecipePartLocked_eq, hlow, if_pos h] at hout hdev
  exact ⟨session', hout, by rw [hdev]⟩

/-- The wrapper on an index whose low 32 bits are behind the list. -/
theorem mtdpartctlRecipeDelPart_of_le {session : Session} {index : UInt64}
    (h : session.dev.recipe.partitions.length ≤ index.toNat % 2 ^ 32) :
    ∃ session', (mtdpartctlRecipeDelPart env index : ClientM ε Int).outcome session =
      (.ok (neg .ENOENT), session') ∧
        session'.dev.recipe.partitions = session.dev.recipe.partitions := by
  obtain ⟨session', hout, hdev⟩ := mtdpartctlRecipeDelPart_outcome (ε := ε) hcopy session index
  have hlow : index.toUInt32.toNat = index.toNat % 2 ^ 32 := UInt64.toNat_toUInt32 index
  unfold delRecipePart at hout hdev
  rw [delRecipePartLocked_eq, hlow, if_neg (Nat.not_lt.mpr h)] at hout hdev
  exact ⟨session', hout, by rw [hdev]⟩

/-- **When `del_recipe_part` deletes by position**: for an index below 2³², and for one whose low
32 bits are behind the list as well.  Any other index deletes a part it does not name. -/
theorem recipeDelPart_iff {session : Session} (h : Reachable session.dev) (index : UInt64) :
    DeletesShown ε env session index ↔ index.toNat < 2 ^ 32 ∨
      session.dev.recipe.partitions.length ≤ index.toNat % 2 ^ 32 := by
  constructor
  · intro hshown
    by_contra hno
    rw [not_or, Nat.not_lt, Nat.not_le] at hno
    obtain ⟨hbig, hlow⟩ := hno
    obtain ⟨session₁, hout, hparts⟩ := mtdpartctlRecipeDelPart_of_lt (ε := ε) hcopy hlow
    by_cases hidx : index.toNat < session.dev.recipe.partitions.length
    · obtain ⟨part, session₂, -, -, hout₂, hparts₂⟩ := hshown.below hidx
      rw [hout] at hout₂
      rw [← (Prod.mk.inj hout₂).2, hparts] at hparts₂
      -- Another part is gone than the one at the index.
      have heq := eraseIdx_inj h.recipeInv.nodup hlow hparts₂
      omega
    · obtain ⟨session₂, hout₂, -⟩ := hshown.beyond (Nat.not_lt.mp hidx)
      rw [hout] at hout₂
      exact absurd (Except.ok.inj (Prod.mk.inj hout₂).1) (by decide)
  · intro hcond
    refine ⟨fun hidx => ?_, fun hidx => ?_⟩
    · have hmod : index.toNat % 2 ^ 32 = index.toNat := by
        rcases hcond with hsmall | hle
        · exact Nat.mod_eq_of_lt hsmall
        · have hmod_le := Nat.mod_le index.toNat (2 ^ 32)
          omega
      obtain ⟨session', hout, hparts⟩ :=
        mtdpartctlRecipeDelPart_of_lt (ε := ε) hcopy (hmod.symm ▸ hidx)
      rw [hmod] at hparts
      have hpart := List.getElem?_eq_getElem hidx
      exact ⟨_, session', hpart, fun listEnv hlist readCount hroom =>
        listRecipeParts_mem hlist h.aboutToRespawn hpart hroom, hout, hparts⟩
    · have hlow : session.dev.recipe.partitions.length ≤ index.toNat % 2 ^ 32 := by
        rcases hcond with hsmall | hle
        · rw [Nat.mod_eq_of_lt hsmall]
          exact hidx
        · exact hle
      exact mtdpartctlRecipeDelPart_of_le hcopy hlow

end DelRecipePart

/-- A recipe of three parts. -/
def threeParts : MtdpartctlDevice :=
  ((threeBlocks.appendPart (blockPart 0)).appendPart (blockPart 1)).appendPart (blockPart 2)

theorem reachable_threeParts : Reachable threeParts := by
  have hsecond : Reachable ((threeBlocks.appendPart (blockPart 0)).appendPart (blockPart 1)) :=
    .step (e := (.succeeding, .ioctl (.recipeAddPart (some (blockPart 1))))) reachable_firstBlock
      trivial rfl
  exact .step (e := (.succeeding, .ioctl (.recipeAddPart (some (blockPart 2))))) hsecond trivial rfl

/-- The middle one of them, by its index. -/
theorem recipeDelPart_iff_middle :
    DeletesShown Unit .succeeding (.start threeParts) 1 ∧
      ∃ session', (mtdpartctlRecipeDelPart .succeeding 1 : ClientM Unit Int).outcome
          (.start threeParts) = (.ok 0, session') ∧
        session'.dev.recipe.partitions =
          [newRecipePart (blockPart 0), newRecipePart (blockPart 2)] := by
  have hshown : DeletesShown Unit .succeeding (.start threeParts) 1 :=
    (recipeDelPart_iff rfl reachable_threeParts 1).mpr (Or.inl (by decide))
  obtain ⟨_, session', -, -, hout, hparts⟩ := hshown.below (by decide)
  exact ⟨hshown, session', hout, hparts⟩

/-- The only part of a recipe, by an index far behind the list. -/
theorem recipeDelPart_twoPow :
    Reachable (openDevice.appendPart oneBlockPart) ∧
      (∃ session', (mtdpartctlRecipeDelPart .succeeding 0x100000000 : ClientM Unit Int).outcome
          (.start (openDevice.appendPart oneBlockPart)) = (.ok 0, session') ∧
        session'.dev.recipe.partitions = []) ∧
      ¬ DeletesShown Unit .succeeding (.start (openDevice.appendPart oneBlockPart))
        0x100000000 := by
  obtain ⟨session', hout, hparts⟩ := @mtdpartctlRecipeDelPart_of_lt Unit .succeeding rfl
    (.start (openDevice.appendPart oneBlockPart)) 0x100000000 (by decide)
  refine ⟨reachable_oneBlockPart, ⟨session', hout, hparts⟩, fun h => ?_⟩
  obtain ⟨session₂, hout₂, -⟩ := h.beyond (by decide)
  rw [hout] at hout₂
  exact absurd (Except.ok.inj (Prod.mk.inj hout₂).1) (by decide)

end Mtdpartikr.Client
