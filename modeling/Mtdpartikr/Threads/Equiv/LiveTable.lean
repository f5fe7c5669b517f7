import Mtdpartikr.Kernel.Equiv.LiveTable
import Mtdpartikr.Threads.Equiv.PartitionService

/-!
# The tables under many threads

Read off the service, which every interleaving follows.

* `threads_tables`: the recipe is a packing of the backing MTD at every moment, whoever edits,
  lists and dispatches it, and every live partition is a range of whole erase blocks.
* `threads_apart`: unless somebody uses `ADD_MTD_PARTITION`, the live partitions are a packing too.
-/

namespace Mtdpartikr

open Threads (Moves)

section

variable {T : Type*} [DecidableEq T]

/-- **The tables are valid at every moment.** -/
theorem threads_tables {backingMtd : MtdInfo} {proxyIndex : Int32} {es : List (T × Event)}
    {s : ThreadState T} (hcore : ∀ e ∈ es, e.2.env.core.KeepsTable backingMtd.size)
    (hrun : (threadSystem T).run (idleThreads T (.create backingMtd proxyIndex)) es = some s) :
    RecipeInv backingMtd s.shared.recipe.partitions ∧
      ∀ child ∈ s.shared.proxy.mtd.partitions, child.extent.Valid backingMtd := by
  obtain ⟨d, hrep, hinv⟩ := TransitionSystem.Follows.invariant (threadSystem_follows backingMtd)
    (P := Draft.Inv (Extent.Valid backingMtd) Extent.Apart) (A := fun _ => True)
    (fun _ _ _ hs _ hstep => hs.step hstep) (threadsRepresent_create backingMtd proxyIndex) .nil
    (fun x hx => hcore x.2 (TransitionSystem.mem_of_mem_taken es hx))
    (fun _ _ _ _ => trivial) hrun
  rw [hrep.tables] at hinv
  exact ⟨hrep.recipeInv, fun child hchild => hinv.live_ok _ (List.mem_map_of_mem hchild)⟩

theorem threads_tables_dispatch : ∃ s, (threadSystem (Fin 2)).run
    (idleThreads (Fin 2) (.create ⟨0, 0x2000, 0x1000⟩ 1)) dispatchSteps = some s ∧
    s.shared.tables =
      ⟨[⟨0, 0x1000⟩, ⟨0x1000, 0x1000⟩], [⟨0, 0x1000⟩, ⟨0x1000, 0x1000⟩]⟩ ∧
    RecipeInv ⟨0, 0x2000, 0x1000⟩ s.shared.recipe.partitions ∧
    ∀ child ∈ s.shared.proxy.mtd.partitions, child.extent.Valid ⟨0, 0x2000, 0x1000⟩ := by
  obtain ⟨s, hrun, htables⟩ := run_dispatchSteps
  exact ⟨s, hrun, htables, threads_tables keepsTable_dispatchSteps hrun⟩

/-! ### Without immediate adds -/

/-- In an `ADD_MTD_PARTITION`, up to the call into the MTD core. -/
def addsLiveAt : Pc → Bool
  | .editLock (.add _) | .editCheck (.add _) | .editTable (.mtdAddPartition _ _ _)
  | .editCore (.mtdAddPartition _ _ _) => true
  | _ => false

/-- It is entered by the ioctl only. -/
theorem addsLiveAt_of_ioctlEntry {dev : MtdpartctlDevice} {cmd : Ioctl} {pc : Pc}
    (h : ioctlEntry dev cmd = .ok pc) (hcmd : ∀ arg, cmd ≠ .addMtdPartition arg) :
    addsLiveAt pc = false := by
  cases cmd with
  | addMtdPartition arg => exact absurd rfl (hcmd arg)
  | recipeAddPart arg =>
    cases arg with
    | none => obtain rfl := Except.ok.inj h; rfl
    | some partition =>
      obtain ⟨ret, -, h⟩ := bind_eq_ok h
      obtain rfl := Except.ok.inj h
      split_ifs <;> rfl
  | delMtdPartition arg | recipeDelPart arg | listRecipeParts arg | getPartitionList arg =>
    cases arg <;> (obtain rfl := Except.ok.inj h; rfl)
  | getInfo | recipeCreatePartitions | deleteMtdPartitions | restartRecipe | unknown =>
    obtain rfl := Except.ok.inj h
    rfl

theorem addsLiveAt_of_callEntry {e : Event} {dev dev' : MtdpartctlDevice} {pc : Pc}
    (h : callEntry e dev = .ok (dev', pc)) (hcall : ∀ arg, e.call ≠ .ioctl (.addMtdPartition arg)) :
    addsLiveAt pc = false := by
  unfold callEntry at h
  cases hc : e.call with
  | «open» =>
    simp only [hc] at h
    split_ifs at h <;> (obtain ⟨-, rfl⟩ := Prod.mk.inj (Except.ok.inj h); rfl)
  | release =>
    simp only [hc] at h
    obtain ⟨-, rfl⟩ := Prod.mk.inj (Except.ok.inj h)
    rfl
  | getMtdDevice =>
    simp only [hc] at h
    obtain ⟨-, rfl⟩ := Prod.mk.inj (Except.ok.inj h)
    unfold hookEntry
    split_ifs <;> rfl
  | ioctl cmd =>
    simp only [hc] at h
    obtain ⟨pc', hentry, h⟩ := bind_eq_ok h
    obtain ⟨-, rfl⟩ := Prod.mk.inj (Except.ok.inj h)
    refine addsLiveAt_of_ioctlEntry hentry fun arg harg => hcall arg ?_
    rw [hc, harg]

theorem addsLiveAt_of_act {e : Event} {dev dev' : MtdpartctlDevice} {pc pc' : Pc}
    {f : Event → MtdpartctlDevice → Option (MtdpartctlDevice × Pc)}
    (hcode : driver.code pc = .act f) (hf : f e dev = some (dev', pc'))
    (hcall : ∀ arg, e.call ≠ .ioctl (.addMtdPartition arg)) (h : addsLiveAt pc = false) :
    addsLiveAt pc' = false := by
  have hacts := acts_of_code hcode hf
  cases hacts with
  | call _ _ _ => exact addsLiveAt_of_callEntry (tryAct_eq_some hcode hf) hcall
  | put =>
    unfold hookEntry
    split_ifs <;> rfl
  | @editPassed edit call htest hflag hrefs =>
    cases edit with
    | add partInfo => cases h
    | del idx =>
      -- A deletion becomes a deletion in the core.
      unfold editTest ImmediateEdit.coreCall at htest
      rw [hflag, hrefs] at htest
      simp only at htest
      split_ifs at htest
      · obtain rfl := Pc.editTable.inj htest
        rfl
  | _ => rfl

theorem addsLiveAt_of_moves {s s' : ThreadState T} {t : T} {e : Event}
    (hcall : ∀ arg, e.call ≠ .ioctl (.addMtdPartition arg))
    (hno : ∀ u, addsLiveAt (s.pc u) = false) (h : Moves driver s t e s') :
    ∀ u, addsLiveAt (s'.pc u) = false := by
  refine Threads.relies_step (R := fun _ pc => addsLiveAt pc = false) hno h ?_ ?_ ?_
  · exact fun f dev' pc hcode hf => ⟨addsLiveAt_of_act hcode hf hcall (hno t), fun u _ => hno u⟩
  · intro l pc hcode
    have hpc := hno t
    generalize s.pc t = c at hcode hpc
    cases c with
    | editLock edit => cases edit <;> (first | (cases hpc; done) | (cases hcode; rfl))
    | editTable call => cases call <;> (first | (cases hpc; done) | (cases hcode; rfl))
    | _ => cases hcode <;> rfl
  · intro l pc hcode
    generalize s.pc t = c at hcode
    cases c <;> cases hcode <;> first | rfl | (split_ifs <;> rfl)

/-- Away from such points no step is an insertion. -/
theorem not_isInsert_of_explainsAt {dev : MtdpartctlDevice} {op : Draft.Op Extent} {pc : Pc}
    (h : ExplainsAt dev op pc) (hpc : addsLiveAt pc = false) : ¬ op.IsInsert := by
  unfold ExplainsAt at h
  split at h
  · rename_i edit
    rcases h with rfl | rfl
    · exact id
    · cases edit <;> exact id
  · cases hpc
  · rcases h with rfl | rfl <;> exact id
  · rcases h with rfl | rfl <;> exact id
  · rcases h with rfl | ⟨-, rfl⟩ <;> exact id
  · rw [h]
    exact id

/-- **Without `ADD_MTD_PARTITION` no two live partitions share a byte at any moment.** -/
theorem threads_apart {backingMtd : MtdInfo} {proxyIndex : Int32} {es : List (T × Event)}
    {s : ThreadState T} (hcore : ∀ e ∈ es, e.2.env.core.KeepsTable backingMtd.size)
    (hno : ∀ e ∈ es, ∀ arg, e.2.call ≠ .ioctl (.addMtdPartition arg))
    (hrun : (threadSystem T).run (idleThreads T (.create backingMtd proxyIndex)) es = some s) :
    (s.shared.proxy.mtd.partitions.map ChildMtd.extent).Pairwise Extent.Apart := by
  have hfollows : TransitionSystem.Follows (threadSystem T) (partitionService backingMtd)
      (fun _ e => e.2.env.core.KeepsTable backingMtd.size ∧
        ∀ arg, e.2.call ≠ .ioctl (.addMtdPartition arg))
      (fun s d => ThreadsRepresent backingMtd s d ∧ ∀ u, addsLiveAt (s.pc u) = false)
      (fun _ _ op => ¬ op.IsInsert) := by
    rintro s s' e d ⟨hrep, hpcs⟩ ⟨hcore, hcall⟩ hstep
    obtain ⟨op, d', hexp, hd, hrep'⟩ := threadSystem_follows backingMtd s s' e d hrep hcore hstep
    exact ⟨op, d', not_isInsert_of_explainsAt hexp (hpcs e.1), hd, hrep',
      addsLiveAt_of_moves hcall hpcs (Threads.moves_of_step hstep)⟩
  -- So the service never inserts, and its live list stays a packing.
  obtain ⟨d, ⟨hrep, -⟩, -, hlive⟩ := TransitionSystem.Follows.invariant hfollows
    (P := fun d => Draft.Inv (Extent.Valid backingMtd) Extent.Apart d ∧
      d.live.Pairwise Extent.Apart) (A := fun op => ¬ op.IsInsert)
    (fun _ _ _ ht hop hstep => Draft.live_pairwise_step ht hop hstep)
    ⟨threadsRepresent_create backingMtd proxyIndex, fun _ => rfl⟩ ⟨.nil, .nil⟩
    (fun x hx => ⟨hcore x.2 (TransitionSystem.mem_of_mem_taken es hx),
      hno x.2 (TransitionSystem.mem_of_mem_taken es hx)⟩)
    (fun _ _ _ h => h) hrun
  rw [hrep.tables] at hlive
  exact hlive

theorem threads_apart_dispatch : ∃ s, (threadSystem (Fin 2)).run
    (idleThreads (Fin 2) (.create ⟨0, 0x2000, 0x1000⟩ 1)) dispatchSteps = some s ∧
    s.shared.proxy.mtd.partitions.map ChildMtd.extent = [⟨0, 0x1000⟩, ⟨0x1000, 0x1000⟩] ∧
    (s.shared.proxy.mtd.partitions.map ChildMtd.extent).Pairwise Extent.Apart := by
  obtain ⟨s, hrun, htables⟩ := run_dispatchSteps
  refine ⟨s, hrun, congrArg Draft.State.live htables, ?_⟩
  exact threads_apart keepsTable_dispatchSteps (fun e he => (mem_dispatchSteps he).2) hrun

end

end Mtdpartikr
