import Mtdpartikr.Kernel.Equiv.Ioctl
import Mtdpartikr.Threads.Program

/-!
# What a step of a thread does

`Acts` lists the actions of `driver` with everything they test and change (`acts_of_code`), so
that an invariant is checked against it case by case.  `driver_wellLocked` checks the annotation
`locks`.

`FlagInv` is the first invariant (`flagInv_step`): `about_to_respawn` is set exactly while a
thread is inside the flagged part of a respawn, and clear while a thread that saw it clear under
`proxy.lock` still holds that mutex.
-/

namespace Mtdpartikr

open Threads (Instr Moves LockInv WellLocked)

/-! ### Actions -/

/-- The points an idle thread can go to. -/
def isEntry : Pc → Bool
  | .idle | .hookTable .get | .hookLock .get false | .infoLock | .partsLock | .listLock
  | .editLock _ | .recipeLock _ | .createLock | .deleteLock => true
  | _ => false

/-- The points of a thread that uses the proxy MTD. -/
def inHook : Pc → Bool
  | .holding | .hookTable _ | .hookLock _ _ | .hookBody _ _ | .hookUnlock _ _
  | .hookLeave _ => true
  | _ => false

/-- The device with another use count. -/
def withRefcnt (dev : MtdpartctlDevice) (n : Int32) : MtdpartctlDevice :=
  { dev with proxy := { dev.proxy with useRefcnt := n } }

/-- The actions of the program: the device and the point before, and those after. -/
inductive Acts (e : Event) (dev : MtdpartctlDevice) : Pc → MtdpartctlDevice → Pc → Prop
  | call {dev' : MtdpartctlDevice} {pc : Pc} : dev'.backingMtd = dev.backingMtd →
      dev'.proxy = dev.proxy → isEntry pc = true → Acts e dev .idle dev' pc
  | put : Acts e dev .holding dev (hookEntry .put e.underTable)
  | granted {underTable : Bool} : dev.proxy.aboutToRespawn = false →
      Acts e dev (.hookBody .get underTable) (withRefcnt dev (dev.proxy.useRefcnt + 1))
        (.hookUnlock underTable true)
  | refused {underTable : Bool} : dev.proxy.aboutToRespawn = true →
      Acts e dev (.hookBody .get underTable) dev (.hookUnlock underTable false)
  | dropped {underTable : Bool} : dev.proxy.useRefcnt ≠ 0 →
      Acts e dev (.hookBody .put underTable) (withRefcnt dev (dev.proxy.useRefcnt - 1))
        (.hookUnlock underTable false)
  | infoRead : Acts e dev .infoRead dev .infoUnlock
  | partsBusy : dev.proxy.aboutToRespawn = true → Acts e dev .partsCheck dev .partsUnlock
  | partsFree : dev.proxy.aboutToRespawn = false → Acts e dev .partsCheck dev .partsCopy
  | partsCopy : Acts e dev .partsCopy dev .partsUnlock
  | listBusy : dev.proxy.aboutToRespawn = true → Acts e dev .listCheck dev .listUnlock
  | listFree : dev.proxy.aboutToRespawn = false → Acts e dev .listCheck dev .listLockRecipe
  | listCopy : Acts e dev .listCopy dev .listUnlockRecipe
  | editRefused {edit : ImmediateEdit} : editTest edit dev = .editUnlock →
      Acts e dev (.editCheck edit) dev .editUnlock
  | editPassed {edit : ImmediateEdit} {call : CoreCall} : editTest edit dev = .editTable call →
      dev.proxy.aboutToRespawn = false → dev.proxy.useRefcnt = 0 →
      Acts e dev (.editCheck edit) dev (.editTable call)
  | editCore {call : CoreCall} :
      Acts e dev (.editCore call) (withMtd dev (e.env.core.answer dev.proxy.mtd call).2) .editLeave
  | recipe {edit : RecipeEdit} {dev' : MtdpartctlDevice} : dev'.backingMtd = dev.backingMtd →
      dev'.proxy = dev.proxy → Acts e dev (.recipeBody edit) dev' .recipeUnlock
  | convertFailed : convertSection e.env dev = .ok .respawnLeave →
      Acts e dev .createConvert dev .respawnLeave
  | converted {args : RespawnArgs} : convertSection e.env dev = .ok (.setLock args) →
      Acts e dev .createConvert dev (.setLock args)
  | setFlag {args : RespawnArgs} :
      Acts e dev (.setFlag args) (setProxyMtdAboutToRespawn dev true) (.setUnlock args)
  | bugRefcnt {args : RespawnArgs} : 0 ≤ dev.proxy.useRefcnt →
      Acts e dev (.bugRefcnt args) dev (.testRefcnt args)
  | testFailed {args : RespawnArgs} : dev.proxy.useRefcnt ≠ 0 →
      Acts e dev (.testRefcnt args) dev (.clearLock false)
  | testPassed {args : RespawnArgs} : dev.proxy.useRefcnt = 0 →
      Acts e dev (.testRefcnt args) dev (.unregTable args)
  | unregFailed {args : RespawnArgs} : (e.env.core.mtdDeviceUnregister dev.proxy.mtd).1 < 0 →
      Acts e dev (.unregCore args) dev (.unregLeave args false)
  | unregDone {args : RespawnArgs} : 0 ≤ (e.env.core.mtdDeviceUnregister dev.proxy.mtd).1 →
      Acts e dev (.unregCore args)
        (withMtd dev (e.env.core.mtdDeviceUnregister dev.proxy.mtd).2) (.unregLeave args true)
  | regCore {args : RespawnArgs} :
      Acts e dev (.regCore args) (withMtd dev (e.env.core.mtdDeviceParseRegister dev.proxy.mtd
        args.partitions args.partitionsCount).2) .regLeave
  | clearFlag {tested : Bool} :
      Acts e dev (.clearFlag tested) (setProxyMtdAboutToRespawn dev false) .clearUnlock

/-- An ioctl starts at one of the entries, and not in a hook. -/
theorem ioctlEntry_isEntry {dev : MtdpartctlDevice} {cmd : Ioctl} {pc : Pc}
    (h : ioctlEntry dev cmd = .ok pc) : isEntry pc = true ∧ inHook pc = false := by
  cases cmd with
  | addMtdPartition arg =>
    cases arg with
    | none => obtain rfl := Except.ok.inj h; exact ⟨rfl, rfl⟩
    | some partInfo =>
      obtain ⟨r, -, h⟩ := bind_eq_ok h
      obtain rfl := Except.ok.inj h
      split_ifs <;> exact ⟨rfl, rfl⟩
  | recipeAddPart arg =>
    cases arg with
    | none => obtain rfl := Except.ok.inj h; exact ⟨rfl, rfl⟩
    | some partition =>
      obtain ⟨r, -, h⟩ := bind_eq_ok h
      obtain rfl := Except.ok.inj h
      split_ifs <;> exact ⟨rfl, rfl⟩
  | delMtdPartition arg | recipeDelPart arg | listRecipeParts arg | getPartitionList arg =>
    cases arg <;> (obtain rfl := Except.ok.inj h; exact ⟨rfl, rfl⟩)
  | getInfo | recipeCreatePartitions | deleteMtdPartitions | restartRecipe | unknown =>
    obtain rfl := Except.ok.inj h
    exact ⟨rfl, rfl⟩

/-- Starting a call leaves the proxy alone. -/
theorem callEntry_acts {e : Event} {dev dev' : MtdpartctlDevice} {pc : Pc}
    (h : callEntry e dev = .ok (dev', pc)) : Acts e dev .idle dev' pc := by
  unfold callEntry at h
  cases hc : e.call with
  | «open» =>
    simp only [hc] at h
    split_ifs at h <;>
      (obtain ⟨rfl, rfl⟩ := Prod.mk.inj (Except.ok.inj h); exact .call rfl rfl rfl)
  | release =>
    simp only [hc] at h
    obtain ⟨rfl, rfl⟩ := Prod.mk.inj (Except.ok.inj h)
    exact .call rfl rfl rfl
  | getMtdDevice =>
    simp only [hc] at h
    obtain ⟨rfl, rfl⟩ := Prod.mk.inj (Except.ok.inj h)
    exact .call rfl rfl (by unfold hookEntry; split_ifs <;> rfl)
  | ioctl cmd =>
    simp only [hc] at h
    obtain ⟨pc', hentry, h⟩ := bind_eq_ok h
    obtain ⟨rfl, rfl⟩ := Prod.mk.inj (Except.ok.inj h)
    exact .call rfl rfl (ioctlEntry_isEntry hentry).1

theorem hookSection_acts {e : Event} {dev dev' : MtdpartctlDevice} {hook : Hook}
    {underTable : Bool} {pc : Pc} (h : hookSection hook underTable dev = .ok (dev', pc)) :
    Acts e dev (.hookBody hook underTable) dev' pc := by
  cases hook with
  | get =>
    unfold hookSection proxyMtdGetDevice at h
    cases hflag : dev.proxy.aboutToRespawn with
    | true =>
      simp only [hflag, if_true] at h
      obtain ⟨rfl, rfl⟩ := Prod.mk.inj (Except.ok.inj h)
      exact .refused hflag
    | false =>
      simp only [hflag, Bool.false_eq_true, if_false, decide_true] at h
      obtain ⟨rfl, rfl⟩ := Prod.mk.inj (Except.ok.inj h)
      rw [← hflag]
      exact .granted hflag
  | put =>
    obtain ⟨proxy, hput, h⟩ := bind_eq_ok h
    obtain ⟨rfl, rfl⟩ := Prod.mk.inj (Except.ok.inj h)
    unfold proxyMtdPutDevice at hput
    split_ifs at hput with hzero
    · cases hput
    · obtain rfl := Except.ok.inj hput
      exact .dropped hzero

theorem editTest_acts (e : Event) (dev : MtdpartctlDevice) (edit : ImmediateEdit) :
    Acts e dev (.editCheck edit) dev (editTest edit dev) := by
  by_cases hbusy : (dev.proxy.aboutToRespawn || decide (dev.proxy.useRefcnt ≠ 0)) = true
  · have htest : editTest edit dev = .editUnlock := if_pos hbusy
    rw [htest]
    exact .editRefused htest
  · have hidle : dev.proxy.aboutToRespawn = false ∧ dev.proxy.useRefcnt = 0 := by
      simpa using hbusy
    cases hcall : edit.coreCall dev.proxy.mtd with
    | none =>
      have htest : editTest edit dev = .editUnlock := by
        rw [editTest, if_neg hbusy, hcall]
      rw [htest]
      exact .editRefused htest
    | some call =>
      have htest : editTest edit dev = .editTable call := by
        rw [editTest, if_neg hbusy, hcall]
      rw [htest]
      exact .editPassed htest hidle.1 hidle.2

theorem recipeSection_acts {e : Event} {dev dev' : MtdpartctlDevice} {edit : RecipeEdit}
    (h : recipeSection edit e.env dev = .ok dev') :
    Acts e dev (.recipeBody edit) dev' .recipeUnlock := by
  cases edit with
  | add partition =>
    obtain ⟨r, -, h⟩ := bind_eq_ok h
    obtain rfl := Except.ok.inj h
    exact .recipe rfl rfl
  | del idx | restart =>
    obtain rfl := Except.ok.inj h
    exact .recipe rfl rfl

theorem convertSection_acts {e : Event} {dev : MtdpartctlDevice} {pc : Pc}
    (h : convertSection e.env dev = .ok pc) : Acts e dev .createConvert dev pc := by
  have hpc : pc = .respawnLeave ∨ ∃ args, pc = .setLock args := by
    obtain ⟨r, -, h⟩ := bind_eq_ok h
    simp only at h
    split_ifs at h
    · obtain rfl := Except.ok.inj h
      exact Or.inl rfl
    · cases h
    · obtain rfl := Except.ok.inj h
      exact Or.inr ⟨_, rfl⟩
  rcases hpc with rfl | ⟨args, rfl⟩
  · exact .convertFailed h
  · exact .converted h

/-- The result of an action that always returns. -/
theorem runAct_eq_some {f : Event → MtdpartctlDevice → Option (MtdpartctlDevice × Pc)}
    {g : Event → MtdpartctlDevice → MtdpartctlDevice × Pc} {e : Event}
    {dev dev' : MtdpartctlDevice} {pc' : Pc} (hcode : runAct g = .act f)
    (hf : f e dev = some (dev', pc')) : g e dev = (dev', pc') := by
  obtain rfl := Instr.act.inj hcode
  exact Option.some.inj hf

/-- The result of an action that may hit a `BUG_ON`. -/
theorem tryAct_eq_some {f : Event → MtdpartctlDevice → Option (MtdpartctlDevice × Pc)}
    {g : Event → MtdpartctlDevice → Except Oops (MtdpartctlDevice × Pc)} {e : Event}
    {dev dev' : MtdpartctlDevice} {pc' : Pc} (hcode : tryAct g = .act f)
    (hf : f e dev = some (dev', pc')) : g e dev = .ok (dev', pc') := by
  obtain rfl := Instr.act.inj hcode
  cases hg : g e dev with
  | error o => simp only [hg] at hf; cases hf
  | ok r => simp only [hg] at hf; exact congrArg Except.ok (Option.some.inj hf)

/-- **Every action of the program is on the list.** -/
theorem acts_of_code {e : Event} {dev dev' : MtdpartctlDevice} {pc pc' : Pc}
    {f : Event → MtdpartctlDevice → Option (MtdpartctlDevice × Pc)}
    (hcode : driver.code pc = .act f) (hf : f e dev = some (dev', pc')) :
    Acts e dev pc dev' pc' := by
  cases pc with
  -- The points whose action has cases of its own are covered by the lemmas above.
  | idle => exact callEntry_acts (tryAct_eq_some hcode hf)
  | holding =>
    obtain ⟨rfl, rfl⟩ := Prod.mk.inj (runAct_eq_some hcode hf)
    exact .put
  | hookBody hook underTable => exact hookSection_acts (tryAct_eq_some hcode hf)
  | infoRead =>
    obtain ⟨rfl, rfl⟩ := Prod.mk.inj (runAct_eq_some hcode hf)
    exact .infoRead
  | partsCheck =>
    obtain ⟨rfl, rfl⟩ := Prod.mk.inj (runAct_eq_some hcode hf)
    split_ifs with hflag
    · exact .partsBusy hflag
    · exact .partsFree (Bool.not_eq_true _ ▸ hflag)
  | partsCopy =>
    obtain ⟨rfl, rfl⟩ := Prod.mk.inj (runAct_eq_some hcode hf)
    exact .partsCopy
  | listCheck =>
    obtain ⟨rfl, rfl⟩ := Prod.mk.inj (runAct_eq_some hcode hf)
    split_ifs with hflag
    · exact .listBusy hflag
    · exact .listFree (Bool.not_eq_true _ ▸ hflag)
  | listCopy =>
    obtain ⟨rfl, rfl⟩ := Prod.mk.inj (runAct_eq_some hcode hf)
    exact .listCopy
  | editCheck edit =>
    obtain ⟨rfl, rfl⟩ := Prod.mk.inj (runAct_eq_some hcode hf)
    exact editTest_acts e dev edit
  | editCore call =>
    obtain ⟨rfl, rfl⟩ := Prod.mk.inj (runAct_eq_some hcode hf)
    exact .editCore
  | recipeBody edit =>
    obtain ⟨dev₁, hbody, h⟩ := bind_eq_ok (tryAct_eq_some hcode hf)
    obtain ⟨rfl, rfl⟩ := Prod.mk.inj (Except.ok.inj h)
    exact recipeSection_acts hbody
  | createConvert =>
    obtain ⟨pc₁, hconv, h⟩ := bind_eq_ok (tryAct_eq_some hcode hf)
    obtain ⟨rfl, rfl⟩ := Prod.mk.inj (Except.ok.inj h)
    exact convertSection_acts hconv
  | setFlag args =>
    obtain ⟨rfl, rfl⟩ := Prod.mk.inj (runAct_eq_some hcode hf)
    exact .setFlag
  | bugRefcnt args =>
    have h := tryAct_eq_some hcode hf
    simp only at h
    split_ifs at h with hneg
    · cases h
    · obtain ⟨rfl, rfl⟩ := Prod.mk.inj (Except.ok.inj h)
      exact .bugRefcnt (Int32.not_lt.mp hneg)
  | testRefcnt args =>
    obtain ⟨rfl, rfl⟩ := Prod.mk.inj (runAct_eq_some hcode hf)
    by_cases hzero : dev.proxy.useRefcnt = 0
    · rw [if_neg (not_not_intro hzero)]
      exact .testPassed hzero
    · rw [if_pos hzero]
      exact .testFailed hzero
  | unregCore args =>
    obtain ⟨rfl, rfl⟩ := Prod.mk.inj (runAct_eq_some hcode hf)
    by_cases hret : 0 ≤ (e.env.core.mtdDeviceUnregister dev.proxy.mtd).1
    · rw [decide_eq_true hret]
      exact .unregDone hret
    · -- A failed call leaves the proxy MTD as it was.
      rw [decide_eq_false hret, e.env.core.unregister_failed _ (Int.not_le.mp hret)]
      exact .unregFailed (Int.not_le.mp hret)
  | regCore args =>
    obtain ⟨rfl, rfl⟩ := Prod.mk.inj (runAct_eq_some hcode hf)
    exact .regCore
  | clearFlag tested =>
    obtain ⟨rfl, rfl⟩ := Prod.mk.inj (runAct_eq_some hcode hf)
    exact .clearFlag
  | _ => cases hcode

/-- Where a step can take a thread: by an action, or over a mutex operation. -/
inductive Goes (e : Event) (dev : MtdpartctlDevice) (pc c : Pc) : Prop
  | act {dev' : MtdpartctlDevice} : Acts e dev pc dev' c → Goes e dev pc c
  | lock {l : Lock} : driver.code pc = .lock l c → Goes e dev pc c
  | unlock {l : Lock} : driver.code pc = .unlock l c → Goes e dev pc c

/-- A step moves one thread. -/
theorem goes_of_moves {T : Type*} [DecidableEq T] {s s' : ThreadState T} {t : T} {e : Event}
    (h : Moves driver s t e s') :
    ∃ c, s'.pc = Function.update s.pc t c ∧ Goes e s.shared (s.pc t) c := by
  cases h with
  | act hcode hf => exact ⟨_, rfl, .act (acts_of_code hcode hf)⟩
  | lock hcode _ => exact ⟨_, rfl, .lock hcode⟩
  | unlock hcode => exact ⟨_, rfl, .unlock hcode⟩

/-! ### The mutexes -/

/-- An entry holds no mutex. -/
theorem locks_of_isEntry {pc : Pc} (h : isEntry pc = true) : locks pc = [] := by
  unfold isEntry at h
  split at h
  all_goals first | rfl | cases h

/-- An action takes and releases nothing. -/
theorem Acts.locks_eq {e : Event} {dev dev' : MtdpartctlDevice} {pc pc' : Pc}
    (h : Acts e dev pc dev' pc') : locks pc' = locks pc := by
  cases h with
  | call _ _ hentry => exact locks_of_isEntry hentry
  | put => unfold hookEntry; split_ifs <;> rfl
  | _ => rfl

/-- Taking a mutex adds it to those held. -/
theorem holds_of_lock {pc pc' : Pc} {l : Lock} (h : driver.code pc = .lock l pc') :
    driver.holds pc' = Function.update (driver.holds pc) l true := by
  cases pc with
  | hookLock hook underTable =>
    obtain ⟨rfl, rfl⟩ := Instr.lock.inj h
    funext l
    cases underTable <;> cases l <;> rfl
  | hookTable _ | infoLock | partsLock | listLock | listLockRecipe | editLock _ | editTable _
  | recipeLock _ | createLock | deleteLock | setLock _ | unregTable _ | regTable _
  | clearLock _ =>
    obtain ⟨rfl, rfl⟩ := Instr.lock.inj h
    funext l
    cases l <;> rfl
  | _ => cases h

/-- Releasing a mutex removes it from those held. -/
theorem holds_of_unlock {pc pc' : Pc} {l : Lock} (h : driver.code pc = .unlock l pc') :
    driver.holds pc l = true ∧ driver.holds pc' = Function.update (driver.holds pc) l false := by
  cases pc with
  | hookUnlock underTable held =>
    obtain ⟨rfl, rfl⟩ := Instr.unlock.inj h
    refine ⟨by cases underTable <;> rfl, ?_⟩
    funext l
    cases underTable <;> cases held <;> cases l <;> rfl
  | hookLeave held =>
    obtain ⟨rfl, rfl⟩ := Instr.unlock.inj h
    refine ⟨rfl, ?_⟩
    funext l
    cases held <;> cases l <;> rfl
  | unregLeave args done =>
    obtain ⟨rfl, rfl⟩ := Instr.unlock.inj h
    refine ⟨rfl, ?_⟩
    funext l
    cases done <;> cases l <;> rfl
  | infoUnlock | partsUnlock | listUnlockRecipe | listUnlock | editLeave | editUnlock
  | recipeUnlock | setUnlock _ | regLeave | clearUnlock | respawnLeave =>
    obtain ⟨rfl, rfl⟩ := Instr.unlock.inj h
    refine ⟨rfl, ?_⟩
    funext l
    cases l <;> rfl
  | _ => cases h

/-- **The annotation `locks` follows the program.** -/
theorem driver_wellLocked : WellLocked driver where
  idle := by intro l; rfl
  act := by
    intro pc e f dev dev' pc' hcode hf
    funext l
    show decide (l ∈ locks pc') = decide (l ∈ locks pc)
    rw [(acts_of_code hcode hf).locks_eq]
  lock := holds_of_lock
  unlock := holds_of_unlock

/-! ### The respawn flag -/

/-- Between the two `set_proxy_mtd_about_to_respawn` of a respawn. -/
def flagged : Pc → Bool
  | .setUnlock _ | .bugRefcnt _ | .testRefcnt _ | .unregTable _ | .unregCore _ | .unregLeave _ _
  | .regTable _ | .regCore _ | .regLeave | .clearLock _ | .clearFlag _ => true
  | _ => false

/-- Past a check that found the flag clear, and before `proxy.lock` is released. -/
def sawClear : Pc → Bool
  | .partsCopy | .listLockRecipe | .listCopy | .listUnlockRecipe | .editTable _ | .editCore _
  | .editLeave => true
  | _ => false

theorem recipe_mem_locks {pc : Pc} (h : flagged pc = true) : Lock.recipe ∈ locks pc := by
  unfold flagged at h
  split at h
  all_goals first | (cases h; done) | simp [locks]

theorem proxy_mem_locks {pc : Pc} (h : sawClear pc = true) : Lock.proxy ∈ locks pc := by
  unfold sawClear at h
  split at h
  all_goals first | (cases h; done) | simp [locks]

theorem flagged_of_lock {pc pc' : Pc} {l : Lock} (h : driver.code pc = .lock l pc') :
    flagged pc' = flagged pc := by
  cases pc <;> cases h <;> rfl

theorem flagged_of_unlock {pc pc' : Pc} {l : Lock} (h : driver.code pc = .unlock l pc') :
    flagged pc' = flagged pc := by
  cases pc <;> cases h <;> first | rfl | (split_ifs <;> rfl)

theorem sawClear_of_lock {pc pc' : Pc} {l : Lock} (h : driver.code pc = .lock l pc') :
    sawClear pc' = sawClear pc := by
  cases pc <;> cases h <;> rfl

/-- An entry is outside of every critical section. -/
theorem flagged_of_isEntry {pc : Pc} (h : isEntry pc = true) :
    flagged pc = false ∧ sawClear pc = false := by
  unfold isEntry at h
  split at h
  all_goals first | exact ⟨rfl, rfl⟩ | cases h

theorem sawClear_of_unlock {pc pc' : Pc} {l : Lock} (h : driver.code pc = .unlock l pc')
    (hsaw : sawClear pc' = true) : sawClear pc = true := by
  cases pc <;> cases h <;> first | rfl | exact hsaw | (split_ifs at hsaw <;> cases hsaw)

/-- What an action does to the flag: nothing, or it sets or clears it. -/
theorem Acts.flag_cases {e : Event} {dev dev' : MtdpartctlDevice} {pc pc' : Pc}
    (h : Acts e dev pc dev' pc') :
    (dev'.proxy.aboutToRespawn = dev.proxy.aboutToRespawn ∧ flagged pc' = flagged pc ∧
      (sawClear pc' = true → dev.proxy.aboutToRespawn = false ∨ sawClear pc = true)) ∨
    (Lock.proxy ∈ locks pc ∧ dev'.proxy.aboutToRespawn = true ∧ flagged pc' = true ∧
      sawClear pc' = false) ∨
    (flagged pc = true ∧ dev'.proxy.aboutToRespawn = false ∧ flagged pc' = false) := by
  cases h with
  | call _ hproxy hentry =>
    have hpc := flagged_of_isEntry hentry
    exact Or.inl ⟨by rw [hproxy], hpc.1, fun hsaw => by rw [hpc.2] at hsaw; cases hsaw⟩
  | put =>
    refine Or.inl ⟨rfl, ?_, fun hsaw => ?_⟩
    · unfold hookEntry; split_ifs <;> rfl
    · unfold hookEntry at hsaw; split_ifs at hsaw <;> cases hsaw
  | recipe _ hproxy => exact Or.inl ⟨by rw [hproxy], rfl, fun hsaw => nomatch hsaw⟩
  | setFlag => exact Or.inr (Or.inl ⟨by simp [locks], rfl, rfl, rfl⟩)
  | clearFlag => exact Or.inr (Or.inr ⟨rfl, rfl, rfl⟩)
  -- The three tests that see the flag clear.
  | partsFree hflag | listFree hflag | editPassed _ hflag =>
    exact Or.inl ⟨rfl, rfl, fun _ => Or.inl hflag⟩
  | editCore => exact Or.inl ⟨rfl, rfl, fun _ => Or.inr rfl⟩
  | listCopy => exact Or.inl ⟨rfl, rfl, fun _ => Or.inr rfl⟩
  | _ => exact Or.inl ⟨rfl, rfl, fun hsaw => nomatch hsaw⟩

section

variable {T : Type*}

/-- The flag is set exactly while a thread is in the flagged part of a respawn, and clear while a
thread relies on having seen it clear. -/
structure FlagInv (s : ThreadState T) : Prop where
  locks : LockInv driver s
  flag : s.shared.proxy.aboutToRespawn = true ↔ ∃ t, flagged (s.pc t) = true
  sawClear : ∀ t, sawClear (s.pc t) = true → s.shared.proxy.aboutToRespawn = false

theorem FlagInv.unique {s : ThreadState T} (h : FlagInv s) {l : Lock} {t u : T}
    (ht : l ∈ Mtdpartikr.locks (s.pc t)) (hu : l ∈ Mtdpartikr.locks (s.pc u)) : t = u :=
  h.locks.unique (l := l) (decide_eq_true ht) (decide_eq_true hu)

variable [DecidableEq T]

theorem flagInv_init {s : ThreadState T} (h : (threadSystem T).init s) : FlagInv s where
  locks := Threads.lockInv_init driver_wellLocked h
  flag := by
    have hflag : s.shared.proxy.aboutToRespawn = false := h.1.aboutToRespawn
    rw [hflag]
    refine iff_of_false (by simp) ?_
    rintro ⟨t, ht⟩
    rw [h.2.2 t] at ht
    cases ht
  sawClear t ht := by
    rw [h.2.2 t] at ht
    cases ht

/-- **Every step keeps the flag right.** -/
theorem flagInv_step {s s' : ThreadState T} {t : T} {e : Event} (hinv : FlagInv s)
    (h : Moves driver s t e s') : FlagInv s' := by
  have hlocks := Threads.lockInv_step driver_wellLocked hinv.locks h
  cases h with
  | @act f dev' pc' hcode hf =>
    have hacts := acts_of_code hcode hf
    rcases hacts.flag_cases with ⟨hflag, hfl, hsaw⟩ | ⟨hproxy, hflag, hfl, hsaw⟩ |
      ⟨hfl, hflag, hfl'⟩
    · refine ⟨hlocks, ?_, fun u hu => ?_⟩
      · simp only [hflag, hinv.flag, Threads.obs_update hfl]
      · simp only [hflag]
        rcases Threads.of_update (p := Mtdpartikr.sawClear) hu with ⟨rfl, hu'⟩ | ⟨_, hu⟩
        · exact (hsaw hu').elim id (hinv.sawClear u)
        · exact hinv.sawClear u hu
    · -- The thread that sets the flag holds `proxy.lock`, so no other relies on it.
      refine ⟨hlocks, iff_of_true hflag ⟨t, by simpa using hfl⟩, fun u hu => ?_⟩
      rcases Threads.of_update (p := Mtdpartikr.sawClear) hu with ⟨rfl, hu'⟩ | ⟨hne, hu⟩
      · rw [hsaw] at hu'
        cases hu'
      · exact absurd (hinv.unique (proxy_mem_locks hu) hproxy) hne
    · -- The thread that clears it holds `recipe.lock`, so no other respawn is on.
      refine ⟨hlocks, iff_of_false (by simp [hflag]) ?_, fun _ _ => hflag⟩
      rintro ⟨u, hu⟩
      rcases Threads.of_update (p := flagged) hu with ⟨rfl, hu'⟩ | ⟨hne, hu⟩
      · rw [hfl'] at hu'
        cases hu'
      · exact hne (hinv.unique (recipe_mem_locks hu) (recipe_mem_locks hfl))
  | lock hcode _ =>
    refine ⟨hlocks, ?_, fun u hu => hinv.sawClear u ?_⟩
    · simp only [hinv.flag, Threads.obs_update (flagged_of_lock hcode)]
    · rwa [Threads.obs_update (sawClear_of_lock hcode)] at hu
  | unlock hcode =>
    refine ⟨hlocks, ?_, fun u hu => ?_⟩
    · simp only [hinv.flag, Threads.obs_update (flagged_of_unlock hcode)]
    · -- Releasing a mutex can end a thread's reliance on the flag but not start it.
      rcases Threads.of_update (p := Mtdpartikr.sawClear) hu with ⟨rfl, hu'⟩ | ⟨_, hu⟩
      · exact hinv.sawClear u (sawClear_of_unlock hcode hu')
      · exact hinv.sawClear u hu

end

/-! ### Short runs -/

/-- A freshly created device of one erase block, idle. -/
def createdDevice : MtdpartctlDevice := MtdpartctlDevice.create ⟨0, 0x1000, 0x1000⟩ 1

/-- An event of the environment in which everything succeeds and hooks run under
`mtd_table_mutex`. -/
def event (call : ThreadCall) : Event := ⟨call, true, .succeeding⟩

/-- A thread that starts a call and takes `n` steps more. -/
def callSteps {T : Type*} (t : T) (call : ThreadCall) (n : ℕ) : List (T × Event) :=
  List.replicate (n + 1) (t, event call)

end Mtdpartikr
