import Mathlib.Data.Fintype.EquivFin
import Mtdpartikr.Kernel.Equiv.DeviceRun
import Mtdpartikr.Threads.Equiv.Step

/-!
# The sequential calls are runs of the threads

A call that is not interrupted goes through the points of `driver` and ends with the device the
sequential definition of `Kernel/` computes.

* `solo_ioctl`, `solo_open`, `solo_release`, `solo_get`, `solo_put`: one call of a thread on its
  own.
* `reachable_simulated`: every device reached by sequential calls is reached by threads, with no
  thread inside the module and as many threads holding a reference as `use_refcnt` says.
-/

namespace Mtdpartikr

open Threads (Instr NoRelock Solo soloStep)

section Solo

variable {e : Event} {dev : MtdpartctlDevice}

/-! ### Readers -/

theorem solo_info : Solo driver e (dev, .infoLock) (dev, .idle) :=
  .step rfl <| .step rfl <| .step rfl .refl

theorem solo_parts : Solo driver e (dev, .partsLock) (dev, .idle) := by
  have hcheck : soloStep driver e (dev, .partsCheck) =
      some (dev, if dev.proxy.aboutToRespawn then .partsUnlock else .partsCopy) := rfl
  cases hflag : dev.proxy.aboutToRespawn with
  | true =>
    rw [hflag] at hcheck
    exact .step rfl <| .step hcheck <| .step rfl .refl
  | false =>
    rw [hflag] at hcheck
    exact .step rfl <| .step hcheck <| .step rfl <| .step rfl .refl

theorem solo_list : Solo driver e (dev, .listLock) (dev, .idle) := by
  have hcheck : soloStep driver e (dev, .listCheck) =
      some (dev, if dev.proxy.aboutToRespawn then .listUnlock else .listLockRecipe) := rfl
  cases hflag : dev.proxy.aboutToRespawn with
  | true =>
    rw [hflag] at hcheck
    exact .step rfl <| .step hcheck <| .step rfl .refl
  | false =>
    rw [hflag] at hcheck
    exact .step rfl <| .step hcheck <| .step rfl <| .step rfl <| .step rfl <| .step rfl .refl

/-! ### Editors -/

/-- An immediate edit. -/
theorem solo_edit (edit : ImmediateEdit) : Solo driver e (dev, .editLock edit)
    ({ dev with proxy := (immediateEditLocked e.env.core dev.proxy edit).2.1 }, .idle) := by
  have hcheck : soloStep driver e (dev, .editCheck edit) = some (dev, editTest edit dev) := rfl
  refine .step rfl <| .step hcheck ?_
  unfold editTest immediateEditLocked
  split_ifs with hbusy
  · exact .step rfl .refl
  · cases hcall : edit.coreCall dev.proxy.mtd with
    | none => exact .step rfl .refl
    | some call => exact .step rfl <| .step rfl <| .step rfl <| .step rfl .refl

/-- An edit of the recipe. -/
theorem solo_recipe {edit : RecipeEdit} {dev' : MtdpartctlDevice}
    (h : recipeSection edit e.env dev = .ok dev') :
    Solo driver e (dev, .recipeLock edit) (dev', .idle) := by
  have hbody : soloStep driver e (dev, .recipeBody edit) = some (dev', .recipeUnlock) := by
    simp only [soloStep, driver, code, tryAct, h]
    rfl
  exact .step rfl <| .step hbody <| .step rfl .refl

/-- The `BUG_ON` of a respawn lets a count through that is not negative. -/
theorem soloStep_bugRefcnt {args : RespawnArgs} (h : ¬ dev.proxy.useRefcnt < 0) :
    soloStep driver e (dev, .bugRefcnt args) = some (dev, .testRefcnt args) := by
  simp only [soloStep, driver, code, tryAct]
  rw [if_neg h]
  rfl

/-- A respawn with its end: refused by a user, stopped by `mtd_device_unregister`, or gone through
both core calls. -/
theorem solo_respawn {args : RespawnArgs} {r : Int × MtdpartctlDevice × List CoreCall}
    (h : respawnProxyMtdLocked e.env.core dev args.partitions args.partitionsCount = .ok r) :
    Solo driver e (dev, .setLock args) (r.2.1, .idle) := by
  have hneg : ¬ dev.proxy.useRefcnt < 0 := by
    intro hneg
    unfold respawnProxyMtdLocked respawnFlagged setProxyMtdAboutToRespawn at h
    simp only [if_pos hneg] at h
    cases h
  have hbug : soloStep driver e (setProxyMtdAboutToRespawn dev true, .bugRefcnt args) =
      some (setProxyMtdAboutToRespawn dev true, .testRefcnt args) := soloStep_bugRefcnt hneg
  have htest : soloStep driver e (setProxyMtdAboutToRespawn dev true, .testRefcnt args) =
      some (setProxyMtdAboutToRespawn dev true,
        if dev.proxy.useRefcnt ≠ 0 then .clearLock false else .unregTable args) := rfl
  refine .step rfl <| .step rfl <| .step rfl <| .step hbug <| .step htest ?_
  -- What is left after the test: to clear the flag and release `recipe.lock`.
  have hclear : ∀ (dev' : MtdpartctlDevice) (tested : Bool), Solo driver e
      (dev', .clearLock tested) (setProxyMtdAboutToRespawn dev' false, .idle) :=
    fun _ _ => .step rfl <| .step rfl <| .step rfl <| .step rfl .refl
  have hcore : soloStep driver e (setProxyMtdAboutToRespawn dev true, .unregCore args) =
      some (withMtd (setProxyMtdAboutToRespawn dev true)
          (e.env.core.mtdDeviceUnregister dev.proxy.mtd).2,
        .unregLeave args (decide (0 ≤ (e.env.core.mtdDeviceUnregister dev.proxy.mtd).1))) := rfl
  rcases respawnProxyMtdLocked_cases e.env.core dev args.partitions _ h with
    ⟨hne, rfl⟩ | ⟨hzero, hunreg, rfl⟩ | ⟨hzero, hunreg, reg, rfl, rfl⟩
  · rw [if_pos hne]
    exact hclear _ _
  · rw [if_neg (not_not_intro hzero)]
    rw [e.env.core.unregister_failed _ hunreg, decide_eq_false (Int.not_le.mpr hunreg)] at hcore
    exact .step rfl <| .step hcore <| .step rfl <| hclear _ _
  · rw [if_neg (not_not_intro hzero)]
    rw [decide_eq_true hunreg] at hcore
    exact .step rfl <| .step hcore <| .step rfl <| .step rfl <| .step rfl <| .step rfl <| hclear _ _

/-- A dispatch. -/
theorem solo_create {r : Int × MtdpartctlDevice × List CoreCall}
    (h : createRecipePartitions e.env.core dev e.env.kvzalloc = .ok r) :
    Solo driver e (dev, .createLock) (r.2.1, .idle) := by
  obtain ⟨⟨ret, partitions⟩, hconv, h⟩ := bind_eq_ok h
  have hstep : ∀ {pc : Pc}, convertSection e.env dev = .ok pc →
      soloStep driver e (dev, .createConvert) = some (dev, pc) := by
    intro pc hpc
    simp only [soloStep, driver, code, tryAct, hpc]
    rfl
  simp only at h
  by_cases hret : ret < 0
  · rw [if_pos hret] at h
    obtain rfl := Except.ok.inj h
    have hpc : convertSection e.env dev = .ok .respawnLeave := by
      simp only [convertSection, hconv, bind, Except.bind, if_pos hret]
      rfl
    exact .step rfl <| .step (hstep hpc) <| .step rfl .refl
  · rw [if_neg hret] at h
    by_cases hzero : dev.recipe.partsCount = 0
    · rw [if_pos hzero] at h
      cases h
    · rw [if_neg hzero] at h
      have hpc : convertSection e.env dev =
          .ok (.setLock ⟨partitions, dev.recipe.partsCount⟩) := by
        simp only [convertSection, hconv, bind, Except.bind, if_neg hret, if_neg hzero]
        rfl
      exact .step rfl <| .step (hstep hpc) (solo_respawn h)

/-- A deletion of all partitions. -/
theorem solo_delete {r : Int × MtdpartctlDevice × List CoreCall}
    (h : deletePartitions e.env.core dev = .ok r) :
    Solo driver e (dev, .deleteLock) (r.2.1, .idle) := by
  have hrespawn : Solo driver e (dev, .setLock ⟨none, 0⟩) (r.2.1, .idle) := solo_respawn h
  exact .step rfl hrespawn

/-! ### Whole calls -/

variable (env : Env) (underTable : Bool)

/-- The three ioctls that only read leave the device alone. -/
theorem ioctl_reader {cmd : Ioctl} {r : IoctlResult}
    (hcmd : cmd = .getInfo ∨ (∃ n, cmd = .listRecipeParts (some n)) ∨
      ∃ n, cmd = .getPartitionList (some n))
    (h : mtdpartctlChrdevIoctl env dev cmd = .ok r) : r.dev = dev := by
  rcases hcmd with rfl | ⟨n, rfl⟩ | ⟨n, rfl⟩
  all_goals
    unfold mtdpartctlChrdevIoctl at h
    split_ifs at h <;> (obtain rfl := Except.ok.inj h; rfl)

/-- **An ioctl on its own.** -/
theorem solo_ioctl {cmd : Ioctl} {r : IoctlResult}
    (h : mtdpartctlChrdevIoctl env dev cmd = .ok r) :
    Solo driver ⟨.ioctl cmd, underTable, env⟩ (dev, .idle) (r.dev, .idle) := by
  cases cmd with
  | getInfo =>
    rw [ioctl_reader env (Or.inl rfl) h]
    exact .step rfl solo_info
  | addMtdPartition arg =>
    cases arg with
    | none => obtain rfl := Except.ok.inj h; exact .step rfl .refl
    | some partInfo =>
      obtain ⟨⟨ret, partInfo'⟩, hprep, h⟩ := bind_eq_ok h
      have hentry : soloStep driver ⟨.ioctl (.addMtdPartition (some partInfo)), underTable, env⟩
          (dev, .idle) = some (dev, if ret < 0 then .idle else .editLock (.add partInfo')) := by
        simp only [soloStep, driver, code, tryAct, callEntry, ioctlEntry, hprep]
        rfl
      simp only at h
      split_ifs at h hentry
      · obtain rfl := Except.ok.inj h
        exact .step hentry .refl
      · obtain rfl := Except.ok.inj h
        exact .step hentry (solo_edit _)
  | delMtdPartition arg =>
    cases arg with
    | none => obtain rfl := Except.ok.inj h; exact .step rfl .refl
    | some idx => obtain rfl := Except.ok.inj h; exact .step rfl (solo_edit _)
  | recipeAddPart arg =>
    cases arg with
    | none => obtain rfl := Except.ok.inj h; exact .step rfl .refl
    | some partition =>
      obtain ⟨⟨ret, dev'⟩, hadd, h⟩ := bind_eq_ok h
      obtain rfl := Except.ok.inj h
      obtain ⟨ret', hverify, hadd⟩ := bind_eq_ok hadd
      have hentry : soloStep driver ⟨.ioctl (.recipeAddPart (some partition)), underTable, env⟩
          (dev, .idle) = some (dev, if ret' < 0 then .idle else .recipeLock (.add partition)) := by
        simp only [soloStep, driver, code, tryAct, callEntry, ioctlEntry, hverify]
        rfl
      split_ifs at hadd hentry
      · obtain ⟨-, rfl⟩ := Prod.mk.inj (Except.ok.inj hadd)
        exact .step hentry .refl
      · obtain ⟨⟨ret'', recipe⟩, hlocked, hadd⟩ := bind_eq_ok hadd
        obtain ⟨-, rfl⟩ := Prod.mk.inj (Except.ok.inj hadd)
        refine .step hentry (solo_recipe ?_)
        simp only [recipeSection, hlocked]
        rfl
  | recipeDelPart arg =>
    cases arg with
    | none => obtain rfl := Except.ok.inj h; exact .step rfl .refl
    | some idx => obtain rfl := Except.ok.inj h; exact .step rfl (solo_recipe rfl)
  | recipeCreatePartitions =>
    obtain ⟨⟨ret, dev', calls⟩, hcreate, h⟩ := bind_eq_ok h
    obtain rfl := Except.ok.inj h
    have hcreate' := solo_create (e := ⟨.ioctl .recipeCreatePartitions, underTable, env⟩) hcreate
    exact .step rfl hcreate'
  | deleteMtdPartitions =>
    obtain ⟨⟨ret, dev', calls⟩, hdelete, h⟩ := bind_eq_ok h
    obtain rfl := Except.ok.inj h
    have hdelete' := solo_delete (e := ⟨.ioctl .deleteMtdPartitions, underTable, env⟩) hdelete
    exact .step rfl hdelete'
  | restartRecipe => obtain rfl := Except.ok.inj h; exact .step rfl (solo_recipe rfl)
  | listRecipeParts arg =>
    cases arg with
    | none => obtain rfl := Except.ok.inj h; exact .step rfl .refl
    | some readCount =>
      rw [ioctl_reader env (Or.inr (Or.inl ⟨readCount, rfl⟩)) h]
      exact .step rfl solo_list
  | getPartitionList arg =>
    cases arg with
    | none => obtain rfl := Except.ok.inj h; exact .step rfl .refl
    | some readCount =>
      rw [ioctl_reader env (Or.inr (Or.inr ⟨readCount, rfl⟩)) h]
      exact .step rfl solo_parts
  | unknown => obtain rfl := Except.ok.inj h; exact .step rfl .refl

/-- Opening: refused, or the recipe is restarted. -/
theorem solo_open : Solo driver ⟨.open, underTable, env⟩ (dev, .idle)
    ((mtdpartctlChrdevOpen dev).2, .idle) := by
  have hentry : soloStep driver ⟨.open, underTable, env⟩ (dev, .idle) =
      some (if dev.alreadyOpen then (dev, .idle)
        else ({ dev with alreadyOpen := true }, .recipeLock .restart)) := by
    simp only [soloStep, driver, code, tryAct, callEntry]
    split_ifs <;> rfl
  unfold mtdpartctlChrdevOpen
  split_ifs at hentry ⊢
  · exact .step hentry .refl
  · exact .step hentry (solo_recipe rfl)

theorem solo_release : Solo driver ⟨.release, underTable, env⟩ (dev, .idle)
    (mtdpartctlChrdevRelease dev, .idle) := .step rfl .refl

/-- The end of a hook. -/
theorem solo_hookUnlock (dev : MtdpartctlDevice) (underTable held : Bool) :
    Solo driver e (dev, .hookUnlock underTable held) (dev, if held then .holding else .idle) := by
  cases underTable with
  | false => exact .step rfl .refl
  | true => exact .step rfl <| .step rfl .refl

/-- Taking a reference, the hook called under `mtd_table_mutex` or without it. -/
theorem solo_get : Solo driver ⟨.getMtdDevice, underTable, env⟩ (dev, .idle)
    ({ dev with proxy := (proxyMtdGetDevice dev.proxy).2 },
      if (proxyMtdGetDevice dev.proxy).1 = 0 then .holding else .idle) := by
  have hbody : soloStep driver ⟨.getMtdDevice, underTable, env⟩
      (dev, .hookBody .get underTable) =
        some ({ dev with proxy := (proxyMtdGetDevice dev.proxy).2 },
          .hookUnlock underTable (decide ((proxyMtdGetDevice dev.proxy).1 = 0))) := rfl
  have hend := solo_hookUnlock (e := ⟨.getMtdDevice, underTable, env⟩)
    { dev with proxy := (proxyMtdGetDevice dev.proxy).2 } underTable
    (decide ((proxyMtdGetDevice dev.proxy).1 = 0))
  simp only [decide_eq_true_eq] at hend
  cases underTable with
  | false => exact .step rfl <| .step rfl <| .step hbody hend
  | true => exact .step rfl <| .step rfl <| .step rfl <| .step hbody hend

/-- Giving a reference back. -/
theorem solo_put {proxy : ProxyMtd} (h : proxyMtdPutDevice dev.proxy = .ok proxy) :
    Solo driver e (dev, .holding) ({ dev with proxy := proxy }, .idle) := by
  have hbody : ∀ underTable, soloStep driver e (dev, .hookBody .put underTable) =
      some ({ dev with proxy := proxy }, .hookUnlock underTable false) := by
    intro underTable
    simp only [soloStep, driver, code, tryAct, hookSection, h]
    rfl
  have hentry : soloStep driver e (dev, .holding) = some (dev, hookEntry .put e.underTable) := rfl
  have hend : ∀ underTable, Solo driver e
      ({ dev with proxy := proxy }, .hookUnlock underTable false)
      ({ dev with proxy := proxy }, .idle) := fun underTable => solo_hookUnlock _ underTable false
  cases hunder : e.underTable with
  | false =>
    rw [hunder] at hentry
    exact .step hentry <| .step rfl <| .step (hbody false) (hend false)
  | true =>
    rw [hunder] at hentry
    exact .step hentry <| .step rfl <| .step rfl <| .step (hbody true) (hend true)

end Solo

/-! ### Runs of calls -/

/-- No thread takes a mutex twice. -/
theorem driver_noRelock : NoRelock driver := by
  intro pc l pc' h
  cases pc with
  | hookLock hook underTable =>
    obtain ⟨rfl, -⟩ := Instr.lock.inj h
    cases underTable <;> rfl
  | hookTable _ | infoLock | partsLock | listLock | listLockRecipe | editLock _ | editTable _
  | recipeLock _ | createLock | deleteLock | setLock _ | unregTable _ | regTable _
  | clearLock _ =>
    obtain ⟨rfl, -⟩ := Instr.lock.inj h
    rfl
  | _ => cases h

section Simulation

variable {T : Type*} [DecidableEq T]

/-- The threads between two calls: those of `held` have a reference, the others nothing. -/
structure Rests (s : ThreadState T) (dev : MtdpartctlDevice) (held : Finset T) : Prop where
  shared : s.shared = dev
  pc : ∀ t, s.pc t = if t ∈ held then .holding else .idle
  refcnt : dev.proxy.useRefcnt = Int32.ofNat held.card

/-- A thread at rest has no mutex. -/
theorem Rests.holds_eq_false {s : ThreadState T} {dev : MtdpartctlDevice} {held : Finset T}
    (h : Rests s dev held) (t : T) (l : Lock) : driver.holds (s.pc t) l = false := by
  rw [h.pc t]
  split_ifs <;> rfl

/-- A call of one thread that ends at rest. -/
theorem Rests.call {s : ThreadState T} {dev dev' : MtdpartctlDevice} {held : Finset T}
    (h : Rests s dev held) (hs : (threadSystem T).Reach (fun _ _ => True) s) {t : T} {e : Event}
    {pc pc' : Pc} (hpc : s.pc t = pc) (hsolo : Solo driver e (dev, pc) (dev', pc'))
    (held' : Finset T) (hpc' : pc' = if t ∈ held' then .holding else .idle)
    (hothers : ∀ u, u ≠ t → (u ∈ held' ↔ u ∈ held))
    (hrefcnt : dev'.proxy.useRefcnt = Int32.ofNat held'.card) :
    ∃ s', (threadSystem T).Reach (fun _ _ => True) s' ∧ Rests s' dev' held' := by
  rw [← h.shared, ← hpc] at hsolo
  obtain ⟨s', hs', hshared, hupdate⟩ := Threads.reach_of_solo driver_wellLocked driver_noRelock
    (fun u _ => h.holds_eq_false u) hs hsolo
  refine ⟨s', hs', hshared, fun u => ?_, hrefcnt⟩
  rw [hupdate]
  by_cases hu : u = t
  · subst hu
    rw [Function.update_self, hpc']
  · rw [Function.update_of_ne hu, h.pc u]
    simp only [hothers u hu]

/-- A reference is given back by a thread that has one. -/
theorem Rests.putDevice {s : ThreadState T} {dev : MtdpartctlDevice} {held : Finset T}
    (h : Rests s dev held) (hs : (threadSystem T).Reach (fun _ _ => True) s) (env : Env)
    {proxy : ProxyMtd} (hput : proxyMtdPutDevice dev.proxy = .ok proxy) :
    ∃ s' held', (threadSystem T).Reach (fun _ _ => True) s' ∧
      Rests s' { dev with proxy := proxy } held' := by
  have hsolo : ∀ call, Solo driver ⟨call, true, env⟩ (dev, .holding)
      ({ dev with proxy := proxy }, .idle) := fun _ => solo_put hput
  unfold proxyMtdPutDevice at hput
  split_ifs at hput with hzero
  · cases hput
  obtain rfl := Except.ok.inj hput
  -- A count that is not zero is the number of some threads.
  have hne : held.Nonempty := by
    rw [Finset.nonempty_iff_ne_empty]
    rintro rfl
    exact hzero h.refcnt
  obtain ⟨t, ht⟩ := hne
  have hpc : s.pc t = .holding := by rw [h.pc t, if_pos ht]
  have hcard : Int32.ofNat held.card = Int32.ofNat (held.erase t).card + 1 := by
    rw [← Finset.card_erase_add_one ht, Int32.ofNat_add]
    rfl
  obtain ⟨s', h'⟩ := h.call hs hpc (hsolo .release) (held.erase t)
    (if_neg (Finset.notMem_erase t held)).symm (fun u hu => by simp [hu])
    (by
      show dev.proxy.useRefcnt - 1 = _
      rw [h.refcnt, hcard, Int32.add_sub_cancel])
  exact ⟨s', _, h'⟩

variable [Infinite T]

/-- A call that neither takes nor gives back a reference, made by a thread that has none. -/
theorem Rests.idleCall {s : ThreadState T} {dev dev' : MtdpartctlDevice} {held : Finset T}
    (h : Rests s dev held) (hs : (threadSystem T).Reach (fun _ _ => True) s) {e : Event}
    (hsolo : Solo driver e (dev, .idle) (dev', .idle))
    (hrefcnt : dev'.proxy.useRefcnt = dev.proxy.useRefcnt) :
    ∃ s', (threadSystem T).Reach (fun _ _ => True) s' ∧ Rests s' dev' held := by
  obtain ⟨t, ht⟩ := Infinite.exists_notMem_finset held
  have hidle : s.pc t = .idle := by rw [h.pc t, if_neg ht]
  exact h.call hs hidle hsolo held (if_neg ht).symm (fun _ _ => Iff.rfl)
    (hrefcnt.trans h.refcnt)

/-- A call of `get_mtd_device`: a thread without a reference gets one, or is refused. -/
theorem Rests.getDevice {s : ThreadState T} {dev : MtdpartctlDevice} {held : Finset T}
    (h : Rests s dev held) (hs : (threadSystem T).Reach (fun _ _ => True) s) (env : Env) :
    ∃ s' held', (threadSystem T).Reach (fun _ _ => True) s' ∧
      Rests s' { dev with proxy := (proxyMtdGetDevice dev.proxy).2 } held' := by
  obtain ⟨t, ht⟩ := Infinite.exists_notMem_finset held
  have hidle : s.pc t = .idle := by rw [h.pc t, if_neg ht]
  have hsolo : Solo driver ⟨.getMtdDevice, true, env⟩ (dev, .idle) _ := solo_get env true
  unfold proxyMtdGetDevice at hsolo ⊢
  split_ifs at hsolo ⊢ with hflag hret hret
  · exact absurd hret (neg_ne_zero _)
  · obtain ⟨s', hs', h'⟩ := h.idleCall hs hsolo rfl
    exact ⟨s', held, hs', h'⟩
  · obtain ⟨s', hs', h'⟩ := h.call hs hidle hsolo (insert t held)
      (if_pos (Finset.mem_insert_self t held)).symm (fun u hu => by simp [hu]) (by
        rw [Finset.card_insert_of_notMem ht, Int32.ofNat_add, ← h.refcnt]
        rfl)
    exact ⟨s', _, hs', h'⟩
  · exact absurd rfl hret

/-- **One call.** -/
theorem Rests.deviceCall {s : ThreadState T} {dev dev' : MtdpartctlDevice} {held : Finset T}
    (h : Rests s dev held) (hs : (threadSystem T).Reach (fun _ _ => True) s) {env : Env}
    {call : DevCall} {ret : Int} (hcall : deviceCall env dev call = .ok (ret, dev')) :
    ∃ s' held', (threadSystem T).Reach (fun _ _ => True) s' ∧ Rests s' dev' held' := by
  cases call with
  | «open» =>
    obtain ⟨-, rfl⟩ := Prod.mk.inj (Except.ok.inj hcall)
    have hrefcnt : (mtdpartctlChrdevOpen dev).2.proxy.useRefcnt = dev.proxy.useRefcnt := by
      unfold mtdpartctlChrdevOpen
      split_ifs <;> rfl
    obtain ⟨s', h'⟩ := h.idleCall hs (solo_open env true) hrefcnt
    exact ⟨s', held, h'⟩
  | release =>
    obtain ⟨-, rfl⟩ := Prod.mk.inj (Except.ok.inj hcall)
    obtain ⟨s', h'⟩ := h.idleCall hs (solo_release env true) rfl
    exact ⟨s', held, h'⟩
  | ioctl cmd =>
    obtain ⟨r, hioctl, hcall⟩ := bind_eq_ok hcall
    obtain ⟨-, rfl⟩ := Prod.mk.inj (Except.ok.inj hcall)
    obtain ⟨s', h'⟩ := h.idleCall hs (solo_ioctl env true hioctl)
      (ioctl_outcome hioctl).useRefcnt
    exact ⟨s', held, h'⟩
  | getDevice =>
    obtain ⟨-, rfl⟩ := Prod.mk.inj (Except.ok.inj hcall)
    exact h.getDevice hs env
  | putDevice =>
    obtain ⟨proxy, hput, hcall⟩ := bind_eq_ok hcall
    obtain ⟨-, rfl⟩ := Prod.mk.inj (Except.ok.inj hcall)
    exact h.putDevice hs env hput

/-- **Every sequential run is a run of the threads.** -/
theorem reachable_simulated {dev : MtdpartctlDevice} (h : Reachable dev) :
    ∃ (s : ThreadState T) (held : Finset T),
      (threadSystem T).Reach (fun _ _ => True) s ∧ Rests s dev held := by
  induction h with
  | @init dev hdev =>
    refine ⟨idleThreads T dev, ∅, .init (init_idleThreads hdev), rfl, fun t => ?_, ?_⟩
    · simp [idleThreads]
    · exact hdev.useRefcnt
  | step _ _ hstep ih =>
    obtain ⟨s, held, hs, hrests⟩ := ih
    obtain ⟨ret, hcall⟩ := deviceCall_of_step hstep
    exact hrests.deviceCall hs hcall

end Simulation

end Mtdpartikr
