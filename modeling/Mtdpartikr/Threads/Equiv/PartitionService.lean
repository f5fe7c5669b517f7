import Mtdpartikr.Kernel.Equiv.PartitionService
import Mtdpartikr.Threads.Equiv.Isolation

/-!
# The threads are one service for partition tables

Whatever the threads do, and however their steps interleave, they do what `partitionService` does,
one operation at a time: the critical section of a recipe edit is an operation on the draft, and
each core call that edits the proxy's partitions is one on the live list.  A respawn withdraws the
live list in `mtd_device_unregister` and publishes the draft in `mtd_device_parse_register`.

* `relies_of_moves`: what a thread has found out about the device stays true until it uses it.
* `threadSystem_follows`: step by step, the threads follow the service.
* `threadRun_refines`: so does every run.
-/

namespace Mtdpartikr

open Threads (Moves)

/-! ### What a thread relies on -/

/-- The array of a respawn is the recipe, filled up with zeroed entries, unless there is none. -/
def RespawnArgs.OfRecipe (dev : MtdpartctlDevice) (args : RespawnArgs) : Prop :=
  args.partitions = none ∨ dev.recipe.partitions ≠ [] ∧ ∃ k, args.partitions =
    some (dev.recipe.partitions.map (fillMtdPartition · MtdPartition.zero) ++
      List.replicate k MtdPartition.zero)

/-- The core call of an immediate edit: it adds a range that was checked, or deletes the first
partition. -/
def CallFits (dev : MtdpartctlDevice) : CoreCall → Prop
  | .mtdAddPartition _ offset length =>
    Fits dev.backingMtd offset.toUInt64 length.toUInt64
  | .mtdDelPartition partno => ∃ child rest, dev.proxy.mtd.partitions = child :: rest ∧
    child.index = partno
  | _ => False

/-- What a thread at the point has found out about the device. -/
def Relies (dev : MtdpartctlDevice) : Pc → Prop
  | .recipeLock (.add partition) | .recipeBody (.add partition) =>
    Fits dev.backingMtd partition.base.offset partition.base.length
  | .editLock (.add partInfo) | .editCheck (.add partInfo) =>
    Fits dev.backingMtd partInfo.offset partInfo.length
  | .editTable call | .editCore call => CallFits dev call
  | .setLock args | .setFlag args | .setUnlock args | .bugRefcnt args | .testRefcnt args
  | .unregTable args | .unregCore args => args.OfRecipe dev
  | .unregLeave args done =>
    args.OfRecipe dev ∧ (done = true → dev.proxy.mtd.partitions = [])
  | .regTable args | .regCore args => args.OfRecipe dev ∧ dev.proxy.mtd.partitions = []
  | _ => True

/-- It is about the backing MTD, the recipe if the thread holds `recipe.lock`, and the live
partitions if it holds them fast. -/
theorem Relies.frame {dev dev' : MtdpartctlDevice} {pc : Pc} (h : Relies dev pc)
    (hmtd : dev'.backingMtd = dev.backingMtd)
    (hrecipe : Lock.recipe ∈ locks pc → dev'.recipe = dev.recipe)
    (hparts : flagged pc = true ∨ sawClear pc = true →
      dev'.proxy.mtd.partitions = dev.proxy.mtd.partitions) : Relies dev' pc := by
  cases pc with
  | recipeLock edit | recipeBody edit =>
    cases edit with
    | add partition =>
      unfold Relies at h ⊢
      rwa [hmtd]
    | del | restart => trivial
  | editLock edit | editCheck edit =>
    cases edit with
    | add partInfo =>
      unfold Relies at h ⊢
      rwa [hmtd]
    | del => trivial
  | editTable call | editCore call =>
    cases call with
    | mtdAddPartition name offset length =>
      unfold Relies CallFits at h ⊢
      rwa [hmtd]
    | mtdDelPartition partno =>
      unfold Relies CallFits at h ⊢
      rwa [hparts (Or.inr rfl)]
    | _ => exact h
  | setLock args | setFlag args | setUnlock args | bugRefcnt args | testRefcnt args
  | unregTable args | unregCore args =>
    unfold Relies RespawnArgs.OfRecipe at h ⊢
    rwa [hrecipe (by simp [locks])]
  | unregLeave args done | regTable args | regCore args =>
    unfold Relies RespawnArgs.OfRecipe at h ⊢
    rwa [hrecipe (by simp [locks]), hparts (Or.inl rfl)]
  | _ => trivial

/-! ### What an action does to the tables -/

/-- What an action changes of the recipe and the live partitions. -/
inductive Edits (e : Event) (dev : MtdpartctlDevice) : Pc → MtdpartctlDevice → Prop
  | none {pc : Pc} {dev' : MtdpartctlDevice} : dev'.recipe = dev.recipe →
      dev'.proxy.mtd.partitions = dev.proxy.mtd.partitions → Edits e dev pc dev'
  | recipe {edit : RecipeEdit} {dev' : MtdpartctlDevice} :
      recipeSection edit e.env dev = .ok dev' → Edits e dev (.recipeBody edit) dev'
  | core {call : CoreCall} :
      Edits e dev (.editCore call) (withMtd dev (e.env.core.answer dev.proxy.mtd call).2)
  | unregister {args : RespawnArgs} : 0 ≤ (e.env.core.mtdDeviceUnregister dev.proxy.mtd).1 →
      Edits e dev (.unregCore args)
        (withMtd dev (e.env.core.mtdDeviceUnregister dev.proxy.mtd).2)
  | register {args : RespawnArgs} :
      Edits e dev (.regCore args) (withMtd dev (e.env.core.mtdDeviceParseRegister dev.proxy.mtd
        args.partitions args.partitionsCount).2)

/-- Starting a call changes neither. -/
theorem callEntry_recipe {e : Event} {dev dev' : MtdpartctlDevice} {pc : Pc}
    (h : callEntry e dev = .ok (dev', pc)) : dev'.recipe = dev.recipe := by
  unfold callEntry at h
  cases hc : e.call with
  | «open» =>
    simp only [hc] at h
    split_ifs at h <;> (obtain ⟨rfl, -⟩ := Prod.mk.inj (Except.ok.inj h); rfl)
  | release | getMtdDevice =>
    simp only [hc] at h
    obtain ⟨rfl, -⟩ := Prod.mk.inj (Except.ok.inj h)
    rfl
  | ioctl cmd =>
    simp only [hc] at h
    obtain ⟨pc', -, h⟩ := bind_eq_ok h
    obtain ⟨rfl, -⟩ := Prod.mk.inj (Except.ok.inj h)
    rfl

section

variable {e : Event} {dev dev' : MtdpartctlDevice} {pc pc' : Pc}
  {f : Event → MtdpartctlDevice → Option (MtdpartctlDevice × Pc)}

theorem edits_of_code (hcode : driver.code pc = .act f) (hf : f e dev = some (dev', pc')) :
    Edits e dev pc dev' := by
  have hacts := acts_of_code hcode hf
  cases hacts with
  | call _ hproxy _ =>
    exact .none (callEntry_recipe (tryAct_eq_some hcode hf)) (by rw [hproxy])
  | recipe _ _ =>
    obtain ⟨dev₁, hbody, h⟩ := bind_eq_ok (tryAct_eq_some hcode hf)
    obtain ⟨rfl, -⟩ := Prod.mk.inj (Except.ok.inj h)
    exact .recipe hbody
  | editCore => exact .core
  | unregDone hret => exact .unregister hret
  | regCore => exact .register
  | _ => exact .none rfl rfl

/-- The recipe is edited under `recipe.lock`. -/
theorem Edits.recipe_eq (h : Edits e dev pc dev') (hpc : Lock.recipe ∉ locks pc) :
    dev'.recipe = dev.recipe := by
  cases h with
  | none hrecipe _ => exact hrecipe
  | recipe _ => exact absurd (by simp [locks]) hpc
  | core | unregister _ | register => rfl

/-- The live partitions are edited in a respawn, or in an immediate edit that saw none. -/
theorem Edits.partitions_eq (h : Edits e dev pc dev') (hflag : flagged pc = false)
    (hsaw : sawClear pc = false) :
    dev'.proxy.mtd.partitions = dev.proxy.mtd.partitions := by
  cases h with
  | none _ hparts => exact hparts
  | @recipe edit _ hbody =>
    cases recipeSection_acts (e := e) hbody with
    | recipe _ hproxy => rw [hproxy]
  | core => cases hsaw
  | unregister _ | register => cases hflag

/-! ### What the thread that moves relies on next -/

/-- A range that passes the check of a request fits. -/
theorem fits_of_verify {info : MtdPartitionInfo} {ret : Int}
    (h : verifyPartitionBasicConditions dev info = .ok ret) (hret : ¬ ret < 0) :
    Fits dev.backingMtd info.offset info.length := by
  rcases verifyPartitionBasicConditions_cases dev info with ⟨hfits, -⟩ | ⟨-, heq⟩ | ⟨-, -, heq⟩
  · exact hfits
  · rw [heq] at h
    obtain rfl := Except.ok.inj h
    exact absurd (neg_lt_zero _) hret
  · rw [heq] at h
    cases h

/-- Nothing is found out by a thread that starts a call, except by its checks of a request. -/
theorem relies_of_ioctlEntry {cmd : Ioctl} (h : ioctlEntry dev cmd = .ok pc) : Relies dev pc := by
  cases cmd with
  | addMtdPartition arg =>
    cases arg with
    | none => obtain rfl := Except.ok.inj h; trivial
    | some partInfo =>
      obtain ⟨⟨ret, partInfo'⟩, hprep, h⟩ := bind_eq_ok h
      obtain rfl := Except.ok.inj h
      split_ifs with hret
      · trivial
      · unfold prepareAddMtdPartition at hprep
        simp only at hprep
        split_ifs at hprep with hadapt
        · obtain ⟨rfl, -⟩ := Prod.mk.inj (Except.ok.inj hprep)
          -- A length that could not be adapted ends the call.
          exact absurd hadapt hret
        · obtain ⟨ret', hverify, hprep⟩ := bind_eq_ok hprep
          obtain ⟨rfl, rfl⟩ := Prod.mk.inj (Except.ok.inj hprep)
          exact fits_of_verify hverify hret
  | recipeAddPart arg =>
    cases arg with
    | none => obtain rfl := Except.ok.inj h; trivial
    | some partition =>
      obtain ⟨ret, hverify, h⟩ := bind_eq_ok h
      obtain rfl := Except.ok.inj h
      split_ifs with hret
      · trivial
      · exact fits_of_verify hverify hret
  -- These are checked under a lock, and not before.
  | delMtdPartition arg | recipeDelPart arg | listRecipeParts arg | getPartitionList arg =>
    cases arg <;> (obtain rfl := Except.ok.inj h; trivial)
  | getInfo | recipeCreatePartitions | deleteMtdPartitions | restartRecipe | unknown =>
    obtain rfl := Except.ok.inj h
    exact trivial

theorem relies_hookEntry (hook : Hook) (underTable : Bool) :
    Relies dev (hookEntry hook underTable) := by
  unfold hookEntry
  split_ifs <;> trivial

theorem relies_of_callEntry (h : callEntry e dev = .ok (dev', pc)) : Relies dev' pc := by
  unfold callEntry at h
  cases hc : e.call with
  | «open» =>
    simp only [hc] at h
    split_ifs at h <;> (obtain ⟨rfl, rfl⟩ := Prod.mk.inj (Except.ok.inj h); trivial)
  | release =>
    simp only [hc] at h
    obtain ⟨rfl, rfl⟩ := Prod.mk.inj (Except.ok.inj h)
    trivial
  | getMtdDevice =>
    simp only [hc] at h
    obtain ⟨rfl, rfl⟩ := Prod.mk.inj (Except.ok.inj h)
    exact relies_hookEntry _ _
  | ioctl cmd =>
    simp only [hc] at h
    obtain ⟨pc', hentry, h⟩ := bind_eq_ok h
    obtain ⟨rfl, rfl⟩ := Prod.mk.inj (Except.ok.inj h)
    exact relies_of_ioctlEntry hentry

/-- The call an immediate edit decides on fits. -/
theorem callFits_of_coreCall {edit : ImmediateEdit} {call : CoreCall}
    (h : edit.coreCall dev.proxy.mtd = some call) (hedit : Relies dev (.editCheck edit)) :
    CallFits dev call := by
  cases edit with
  | add partInfo =>
    obtain rfl := Option.some.inj h
    exact hedit
  | del idx =>
    unfold ImmediateEdit.coreCall mtdRelativeMasterIndexToAbsoluteIndex at h
    simp only [relativeToAbsolute.loop_eq] at h
    split_ifs at h with hidx hneg hneg
    · obtain rfl := Option.some.inj h
      -- The walk looks at the first partition only.
      cases hlist : dev.proxy.mtd.partitions with
      | nil =>
        rw [hlist] at hneg
        exact absurd (by decide) hneg
      | cons child rest => exact ⟨child, rest, hlist, rfl⟩
    · exact absurd (by decide) hneg

/-- The conversion of the recipe makes its array. -/
theorem ofRecipe_of_convertSection {args : RespawnArgs}
    (h : convertSection e.env dev = .ok (.setLock args)) : args.OfRecipe dev := by
  obtain ⟨⟨ret, entries⟩, hconv, h⟩ := bind_eq_ok h
  simp only at h
  split_ifs at h with hret
  · cases Except.ok.inj h
  · cases h
  · obtain rfl := Pc.setLock.inj (Except.ok.inj h)
    obtain ⟨hne, rfl⟩ := convertRecipeToMtdPartitionsLocked_done hconv (Int.not_lt.mp hret)
    exact Or.inr ⟨hne, _, rfl⟩

theorem relies_of_act (hcode : driver.code pc = .act f) (hf : f e dev = some (dev', pc'))
    (h : Relies dev pc) : Relies dev' pc' := by
  have hacts := acts_of_code hcode hf
  cases hacts with
  | call _ _ _ => exact relies_of_callEntry (tryAct_eq_some hcode hf)
  | put => exact relies_hookEntry _ _
  | @editPassed edit call htest hflag hrefs =>
    -- The call was decided on under `proxy.lock`, which the thread still holds.
    refine callFits_of_coreCall ?_ h
    unfold editTest at htest
    rw [hflag, hrefs] at htest
    cases hcall : edit.coreCall dev.proxy.mtd with
    | none =>
      rw [hcall] at htest
      cases htest
    | some call' =>
      rw [hcall] at htest
      obtain rfl := Pc.editTable.inj htest
      rfl
  | converted hconv => exact ofRecipe_of_convertSection hconv
  | setFlag | bugRefcnt _ | testPassed _ => exact h
  -- Only a respawn whose unregistration went through relies on an empty table.
  | unregFailed _ => exact ⟨h, fun hdone => nomatch hdone⟩
  | unregDone hret => exact ⟨h, fun _ => (e.env.core.unregister_done _ hret).2⟩
  | _ => trivial

theorem relies_of_lock {l : Lock} (hcode : driver.code pc = .lock l pc') (h : Relies dev pc) :
    Relies dev pc' := by
  cases pc with
  | recipeLock edit | editLock edit => cases edit <;> (cases hcode; exact h)
  | deleteLock =>
    cases hcode
    exact Or.inl rfl
  | _ => cases hcode <;> exact h

theorem relies_of_unlock {l : Lock} (hcode : driver.code pc = .unlock l pc')
    (h : Relies dev pc) : Relies dev pc' := by
  cases pc with
  | hookUnlock underTable held =>
    cases hcode
    split_ifs <;> trivial
  | hookLeave held =>
    cases hcode
    split_ifs <;> trivial
  | unregLeave args done =>
    cases hcode
    split_ifs with hdone
    · exact ⟨h.1, h.2 hdone⟩
    · trivial
  | _ => cases hcode <;> exact h

/-! ### Operations of the service -/

/-- The uninterrupted call that makes the edit. -/
def RecipeEdit.call : RecipeEdit → DevCall
  | .add partition => .ioctl (.recipeAddPart (some partition))
  | .del idx => .ioctl (.recipeDelPart (some idx))
  | .restart => .ioctl .restartRecipe

/-- What the service did in a step from the point: nothing, or the operation that the point is
for. -/
def ExplainsAt (dev : MtdpartctlDevice) (op : Draft.Op Extent) : Pc → Prop
  | .recipeBody edit => op = .idle ∨ op = requestedOp dev edit.call
  | .editCore (.mtdAddPartition _ offset length) =>
    op = .idle ∨ op = .insert ⟨offset.toUInt64.toNat, length.toUInt64.toNat⟩
  | .editCore (.mtdDelPartition _) => op = .idle ∨ op = .remove 0
  | .unregCore _ => op = .idle ∨ op = .withdraw
  | .regCore args => op = .idle ∨ (args.partitions ≠ none ∧ op = .publish)
  | _ => op = .idle

theorem explainsAt_idle (dev : MtdpartctlDevice) (pc : Pc) : ExplainsAt dev .idle pc := by
  unfold ExplainsAt
  split
  all_goals first | exact Or.inl rfl | rfl

/-- The step of the service that answers an action. -/
structure Answers (dev dev' : MtdpartctlDevice) (pc : Pc) (op : Draft.Op Extent) : Prop where
  explains : ExplainsAt dev op pc
  allowed : Draft.Allowed (Extent.Valid dev.backingMtd) Extent.Apart dev.tables op
  tables : dev'.tables = dev.tables.apply op

theorem answers_idle (pc : Pc) (h : dev'.tables = dev.tables) : Answers dev dev' pc .idle :=
  ⟨explainsAt_idle dev pc, trivial, h⟩

/-- The critical section of a recipe edit is the uninterrupted call. -/
theorem deviceCall_of_recipeSection {edit : RecipeEdit} {env : Env}
    (h : recipeSection edit env dev = .ok dev') (hedit : Relies dev (.recipeBody edit)) :
    ∃ ret, deviceCall env dev edit.call = .ok (ret, dev') := by
  cases edit with
  | add partition =>
    obtain ⟨⟨ret, recipe⟩, hlocked, h⟩ := bind_eq_ok h
    obtain rfl := Except.ok.inj h
    have hverify : verifyPartitionBasicConditions dev partition.base = .ok 0 :=
      verifyPartitionBasicConditions_of_fits hedit
    refine ⟨ret, ?_⟩
    simp only [RecipeEdit.call, deviceCall, mtdpartctlChrdevIoctl, addRecipePart, hverify, hlocked,
      bind, Except.bind]
    rfl
  | del idx =>
    obtain rfl := Except.ok.inj h
    exact ⟨_, rfl⟩
  | restart =>
    obtain rfl := Except.ok.inj h
    exact ⟨_, rfl⟩

theorem not_respawns_recipeEdit (edit : RecipeEdit) : ¬ Respawns edit.call := by
  rintro (h | h) <;> cases edit <;> cases h

/-- A recipe edit is an operation on the draft. -/
theorem answers_recipe {edit : RecipeEdit} {env : Env}
    (hinv : RecipeInv dev.backingMtd dev.recipe.partitions)
    (hcore : env.core.KeepsTable dev.backingMtd.size)
    (h : recipeSection edit env dev = .ok dev') (hedit : Relies dev (.recipeBody edit)) :
    ∃ op, Answers dev dev' (.recipeBody edit) op := by
  obtain ⟨ret, hcall⟩ := deviceCall_of_recipeSection h hedit
  obtain ⟨op, hserves⟩ := serves_deviceCall hinv hcore hcall
  refine ⟨op, ?_, hserves.allowed, hserves.tables⟩
  have hexp := hserves.explains
  unfold Explains at hexp
  split_ifs at hexp
  · -- A recipe edit that fails is no respawn, so it did nothing.
    exact hexp.imp id fun hresp => absurd hresp.1 (not_respawns_recipeEdit edit)
  · exact Or.inr hexp

theorem tables_withMtd (dev : MtdpartctlDevice) (mtd : ProxyMtdInfo) :
    (withMtd dev mtd).tables =
      { dev.tables with live := mtd.partitions.map ChildMtd.extent } := rfl

/-- A core call that changes nothing of the proxy's partitions. -/
theorem tables_withMtd_of_eq {mtd : ProxyMtdInfo} (h : mtd.partitions = dev.proxy.mtd.partitions) :
    (withMtd dev mtd).tables = dev.tables := by
  rw [tables_withMtd, h]
  rfl

/-- The core call of an immediate edit inserts or removes one live partition. -/
theorem answers_core {env : Env} (hcore : env.core.KeepsTable dev.backingMtd.size)
    {call : CoreCall} (hcall : CallFits dev call) :
    ∃ op, Answers dev (withMtd dev (env.core.answer dev.proxy.mtd call).2) (.editCore call) op := by
  cases call with
  | mtdAddPartition name offset length =>
    by_cases hret : 0 ≤ (env.core.mtdAddPartition dev.proxy.mtd name offset length).1
    · have hlt := hcore.size_lt
      have hle := hcall.le_size
      have hpos := hcall.pos
      -- Inside the master neither argument changes its sign.
      have hoffset := toInt_toInt64_of_lt (show offset.toUInt64.toNat < 2 ^ 63 by omega)
      have hlength := toInt_toInt64_of_lt (show length.toUInt64.toNat < 2 ^ 63 by omega)
      rw [show offset.toUInt64.toInt64 = offset from rfl] at hoffset
      rw [show length.toUInt64.toInt64 = length from rfl] at hlength
      obtain ⟨index, hadd⟩ := hcore.addPartition dev.proxy.mtd name offset length hret (by omega)
        (by omega) (by omega)
      refine ⟨_, Or.inr rfl, extent_valid hcall, ?_⟩
      rw [tables_withMtd]
      show { dev.tables with live := (env.core.mtdAddPartition dev.proxy.mtd name offset
        length).2.partitions.map ChildMtd.extent } = _
      rw [hadd, List.map_append]
      rfl
    · refine ⟨_, answers_idle _ (tables_withMtd_of_eq ?_)⟩
      exact congrArg _ (env.core.addPartition_failed _ _ _ _ (Int.not_le.mp hret))
  | mtdDelPartition partno =>
    by_cases hret : 0 ≤ (env.core.mtdDelPartition dev.proxy.mtd partno).1
    · obtain ⟨child, rest, hlist, rfl⟩ := hcall
      have hdel := hcore.delPartition _ _ hret
      rw [hlist, List.eraseP_cons_of_pos (by simp)] at hdel
      refine ⟨_, Or.inr rfl, ?_, ?_⟩
      · show 0 < (dev.proxy.mtd.partitions.map ChildMtd.extent).length
        rw [hlist]
        simp
      · rw [tables_withMtd]
        show { dev.tables with live := (env.core.mtdDelPartition dev.proxy.mtd
          child.index).2.partitions.map ChildMtd.extent } = _
        rw [hdel]
        simp only [MtdpartctlDevice.tables, Draft.State.apply, hlist, List.map_cons,
          List.eraseIdx_cons_zero]
    · refine ⟨_, answers_idle _ (tables_withMtd_of_eq ?_)⟩
      exact congrArg _ (env.core.delPartition_failed _ _ (Int.not_le.mp hret))
  | mtdDeviceUnregister | mtdDeviceParseRegister => exact hcall.elim

/-- Registering the recipe's array publishes the draft. -/
theorem answers_register {env : Env} {args : RespawnArgs}
    (hinv : RecipeInv dev.backingMtd dev.recipe.partitions)
    (hcore : env.core.KeepsTable dev.backingMtd.size) (hargs : Relies dev (.regCore args)) :
    ∃ op, Answers dev (withMtd dev (env.core.mtdDeviceParseRegister dev.proxy.mtd args.partitions
      args.partitionsCount).2) (.regCore args) op := by
  obtain ⟨hof, hempty⟩ := hargs
  by_cases hret : 0 ≤ (env.core.mtdDeviceParseRegister dev.proxy.mtd args.partitions
    args.partitionsCount).1
  · have hchildren := hcore.parseRegister _ _ _ hempty hret
    -- Without an array nothing is registered and the table stays empty.
    rcases hof with hnone | ⟨hne, k, hsome⟩
    · rw [hnone] at hchildren
      refine ⟨_, answers_idle _ (tables_withMtd_of_eq ?_)⟩
      rw [hempty, hnone]
      exact List.forall₂_nil_left_iff.mp hchildren
    · rw [hsome] at hchildren
      refine ⟨.publish, Or.inr ⟨by rw [hsome]; exact Option.some_ne_none _, rfl⟩, ?_, ?_⟩
      · exact fun hnil => hne (List.map_eq_nil_iff.mp hnil)
      · rw [tables_withMtd, hsome, hinv.extents_children hchildren]
        rfl
  · refine ⟨_, answers_idle _ (tables_withMtd_of_eq ?_)⟩
    rw [hempty]
    exact (env.core.parseRegister_failed _ _ _ (Int.not_le.mp hret)).2

/-- **Every action is one operation of the service.** -/
theorem answers_of_edits (hinv : RecipeInv dev.backingMtd dev.recipe.partitions)
    (hcore : e.env.core.KeepsTable dev.backingMtd.size) (h : Edits e dev pc dev')
    (hpc : Relies dev pc) : ∃ op, Answers dev dev' pc op := by
  cases h with
  | none hrecipe hparts =>
    refine ⟨_, answers_idle _ ?_⟩
    simp only [MtdpartctlDevice.tables, hrecipe, hparts]
  | recipe hbody => exact answers_recipe hinv hcore hbody hpc
  | core => exact answers_core hcore hpc
  -- The window of a respawn: between here and the registration nothing is live.
  | unregister hret =>
    refine ⟨.withdraw, Or.inr rfl, trivial, ?_⟩
    rw [tables_withMtd, (e.env.core.unregister_done _ hret).2]
    rfl
  | register => exact answers_register hinv hcore hpc

/-- The actions keep the recipe a packing. -/
theorem recipeInv_of_edits (hinv : RecipeInv dev.backingMtd dev.recipe.partitions)
    (h : Edits e dev pc dev') (hpc : Relies dev pc) :
    RecipeInv dev.backingMtd dev'.recipe.partitions := by
  cases h with
  | none hrecipe _ =>
    rw [hrecipe]
    exact hinv
  | recipe hbody =>
    obtain ⟨ret, hcall⟩ := deviceCall_of_recipeSection hbody hpc
    exact (deviceCall_recipe hinv hcall).2.inv hinv
  | core | unregister _ | register => exact hinv

end

/-! ### Whole runs -/

section

variable {T : Type*} [DecidableEq T]

/-- **No thread disturbs what another relies on.** -/
theorem relies_of_moves {s s' : ThreadState T} {t : T} {e : Event} (hflag : FlagInv s)
    (hrely : ∀ u, Relies s.shared (s.pc u)) (h : Moves driver s t e s') :
    ∀ u, Relies s'.shared (s'.pc u) := by
  refine Threads.relies_step hrely h ?_ (fun l pc hcode => relies_of_lock hcode (hrely t))
    (fun l pc hcode => relies_of_unlock hcode (hrely t))
  intro f dev' pc hcode hf
  have hedits := edits_of_code hcode hf
  refine ⟨relies_of_act hcode hf (hrely t), fun u hu => ?_⟩
  refine (hrely u).frame (acts_of_code hcode hf).backingMtd ?_ ?_
  · -- Only one thread holds `recipe.lock`.
    intro hlock
    exact hedits.recipe_eq fun hlock' => hu (hflag.unique hlock hlock')
  · rintro (hfl | hsaw)
    · -- One respawn is on, and nobody relies on there being none.
      have hset : s.shared.proxy.aboutToRespawn = true := hflag.flag.mpr ⟨u, hfl⟩
      refine hedits.partitions_eq ?_ ?_
      · refine Bool.eq_false_iff.mpr fun hfl' => hu ?_
        exact hflag.unique (recipe_mem_locks hfl) (recipe_mem_locks hfl')
      · refine Bool.eq_false_iff.mpr fun hsaw' => ?_
        exact absurd (hset.symm.trans (hflag.sawClear t hsaw')) (by decide)
    · have hclear := hflag.sawClear u hsaw
      refine hedits.partitions_eq ?_ ?_
      · refine Bool.eq_false_iff.mpr fun hfl' => ?_
        exact absurd ((hflag.flag.mpr ⟨t, hfl'⟩).symm.trans hclear) (by decide)
      · refine Bool.eq_false_iff.mpr fun hsaw' => hu ?_
        exact hflag.unique (proxy_mem_locks hsaw) (proxy_mem_locks hsaw')

/-- The threads and the state of the service they stand for. -/
structure ThreadsRepresent (mtd : MtdInfo) (s : ThreadState T) (d : Draft.State Extent) :
    Prop where
  flag : FlagInv s
  backingMtd : s.shared.backingMtd = mtd
  recipeInv : RecipeInv mtd s.shared.recipe.partitions
  relies : ∀ t, Relies s.shared (s.pc t)
  tables : d = s.shared.tables

/-- The point of the thread that moves explains the operation. -/
def ExplainsMove (s : ThreadState T) (e : T × Event) (op : Draft.Op Extent) : Prop :=
  ExplainsAt s.shared op (s.pc e.1)

/-- **The threads follow the service.** -/
theorem threadSystem_follows (mtd : MtdInfo) :
    TransitionSystem.Follows (threadSystem T) (partitionService mtd)
      (fun _ e => e.2.env.core.KeepsTable mtd.size) (ThreadsRepresent mtd) ExplainsMove := by
  rintro s s' ⟨t, e⟩ d ⟨hflag, rfl, hinv, hrely, rfl⟩ hcore hstep
  have hmoves := Threads.moves_of_step hstep
  have hflag' := flagInv_step hflag hmoves
  have hrely' := relies_of_moves hflag hrely hmoves
  cases hmoves with
  | act hcode hf =>
    have hedits := edits_of_code hcode hf
    have hmtd := (acts_of_code hcode hf).backingMtd
    obtain ⟨op, hanswers⟩ := answers_of_edits hinv hcore hedits (hrely t)
    refine ⟨op, _, hanswers.explains, Draft.service_step hanswers.allowed, hflag', hmtd, ?_,
      hrely', hanswers.tables.symm⟩
    exact recipeInv_of_edits hinv hedits (hrely t)
  -- Taking and leaving a lock is no operation.
  | lock _ _ | unlock _ =>
    exact ⟨.idle, _, explainsAt_idle _ _, Draft.service_step trivial, hflag', rfl, hinv, hrely',
      rfl⟩

theorem threadsRepresent_create (backingMtd : MtdInfo) (proxyIndex : Int32) :
    ThreadsRepresent backingMtd (idleThreads T (.create backingMtd proxyIndex)) ⟨[], []⟩ where
  flag := flagInv_init (init_idleThreads (MtdpartctlDevice.created_create _ _))
  backingMtd := rfl
  recipeInv := RecipeInv.nil _
  relies _ := trivial
  tables := rfl

/-- **Every interleaving is a sequence of operations of the service.**  Whatever any number of
threads do with a device, the recipe and the live partitions go through the states of one service,
and its operations are those of the points the threads pass. -/
theorem threadRun_refines {backingMtd : MtdInfo} {proxyIndex : Int32} {es : List (T × Event)}
    {s' : ThreadState T} (hcore : ∀ e ∈ es, e.2.env.core.KeepsTable backingMtd.size)
    (hrun : (threadSystem T).run (idleThreads T (.create backingMtd proxyIndex)) es = some s') :
    ∃ ops, List.Forall₂ (fun x op => ExplainsMove x.1 x.2 op)
        ((threadSystem T).taken (idleThreads T (.create backingMtd proxyIndex)) es) ops ∧
      (partitionService backingMtd).run ⟨[], []⟩ ops = some s'.shared.tables := by
  obtain ⟨ops, d, hops, hservice, hrep⟩ := TransitionSystem.Follows.run
    (threadSystem_follows backingMtd) es (threadsRepresent_create backingMtd proxyIndex)
    (fun x hx => hcore x.2 (TransitionSystem.mem_of_mem_taken es hx)) hrun
  rw [hrep.tables] at hservice
  exact ⟨ops, hops, hservice⟩

/-- Two threads add a part each, one of them waiting for the other, and one dispatches both. -/
def dispatchSteps : List (Fin 2 × Event) :=
  let does (t : Fin 2) (cmd : Ioctl) (n : ℕ) : List (Fin 2 × Event) :=
    List.replicate n (t, ⟨.ioctl cmd, false, .keeping⟩)
  does 0 (.recipeAddPart (some (blockPart 0))) 2 ++
    does 1 (.recipeAddPart (some (blockPart 1))) 1 ++
    does 0 (.recipeAddPart (some (blockPart 0))) 2 ++
    does 1 (.recipeAddPart (some (blockPart 1))) 3 ++ does 0 .recipeCreatePartitions 18

theorem run_dispatchSteps : ∃ s, (threadSystem (Fin 2)).run
    (idleThreads (Fin 2) (.create ⟨0, 0x2000, 0x1000⟩ 1)) dispatchSteps = some s ∧
    s.shared.tables =
      ⟨[⟨0, 0x1000⟩, ⟨0x1000, 0x1000⟩], [⟨0, 0x1000⟩, ⟨0x1000, 0x1000⟩]⟩ := ⟨_, rfl, rfl⟩

/-- Its events are ioctls other than `ADD_MTD_PARTITION`, in an environment of `.keeping`. -/
theorem mem_dispatchSteps {e : Fin 2 × Event} (he : e ∈ dispatchSteps) :
    e.2.env = .keeping ∧ ∀ arg, e.2.call ≠ .ioctl (.addMtdPartition arg) := by
  simp only [dispatchSteps, List.mem_append, List.mem_replicate] at he
  rcases he with (((⟨-, rfl⟩ | ⟨-, rfl⟩) | ⟨-, rfl⟩) | ⟨-, rfl⟩) | ⟨-, rfl⟩ <;>
    exact ⟨rfl, fun _ h => by cases h⟩

theorem keepsTable_dispatchSteps :
    ∀ e ∈ dispatchSteps, e.2.env.core.KeepsTable (0x2000 : UInt64) := by
  intro e he
  rw [(mem_dispatchSteps he).1]
  exact MtdCore.keepsTable_keeping (by decide)

theorem threadRun_refines_dispatch : ∃ ops,
    (partitionService ⟨0, 0x2000, 0x1000⟩).run ⟨[], []⟩ ops =
      some ⟨[⟨0, 0x1000⟩, ⟨0x1000, 0x1000⟩], [⟨0, 0x1000⟩, ⟨0x1000, 0x1000⟩]⟩ := by
  obtain ⟨s, hrun, htables⟩ := run_dispatchSteps
  obtain ⟨ops, -, hops⟩ := threadRun_refines keepsTable_dispatchSteps hrun
  rw [htables] at hops
  exact ⟨ops, hops⟩

end

end Mtdpartikr
