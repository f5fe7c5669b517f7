import Mtdpartikr.Kernel.Equiv.Recipe
import Mtdpartikr.Kernel.Equiv.Respawn
import Mtdpartikr.Kernel.Ioctl

/-!
# What an ioctl does

`IoctlOutcome` says once what an ioctl that returns has done (`ioctl_outcome`); results on the
device follow by cases on it.

* `Reachable.aboutToRespawn`: between two calls the respawn flag is clear.
* `ioctl_failed`: an ioctl that returns an error has left the device as it was, unless it is a
  respawn whose `mtd_device_unregister` succeeded and whose `mtd_device_parse_register` failed.
  Nothing leads back from that point: the recipe and the flag are as before, the proxy MTD is
  unregistered and its partitions are gone.
-/

namespace Mtdpartikr

/-! ### Outcomes -/

/-- The results an ioctl can return: it only looked at the device, or it ran one of the
functions below. -/
inductive IoctlOutcome (env : Env) (dev : MtdpartctlDevice) : Ioctl → IoctlResult → Prop
  | read {cmd : Ioctl} {ret : Int} {reply : Reply} :
      (∀ idx, cmd ≠ .recipeDelPart (some idx)) → IoctlOutcome env dev cmd ⟨ret, dev, [], reply⟩
  | recipeAdd {partition : ExtMtdPartitionInfo} {r : Int × MtdpartctlDevice} :
      addRecipePart dev partition env.kvzalloc = .ok r →
      IoctlOutcome env dev (.recipeAddPart (some partition)) ⟨r.1, r.2, [], .none⟩
  | recipeDel (idx : UInt32) :
      IoctlOutcome env dev (.recipeDelPart (some idx))
        ⟨(delRecipePart dev idx).1, (delRecipePart dev idx).2, [], .none⟩
  | restart :
      IoctlOutcome env dev .restartRecipe
        ⟨0, { dev with recipe := restartRecipe dev.recipe }, [], .none⟩
  | create {r : Int × MtdpartctlDevice × List CoreCall} :
      createRecipePartitions env.core dev env.kvzalloc = .ok r →
      IoctlOutcome env dev .recipeCreatePartitions ⟨r.1, r.2.1, r.2.2, .none⟩
  | delete {r : Int × MtdpartctlDevice × List CoreCall} :
      deletePartitions env.core dev = .ok r →
      IoctlOutcome env dev .deleteMtdPartitions ⟨r.1, r.2.1, r.2.2, .none⟩
  | edit {cmd : Ioctl} (e : ImmediateEdit) :
      (∀ idx, cmd ≠ .recipeDelPart (some idx)) →
      IoctlOutcome env dev cmd ⟨(immediateEditLocked env.core dev.proxy e).1,
        { dev with proxy := (immediateEditLocked env.core dev.proxy e).2.1 },
        (immediateEditLocked env.core dev.proxy e).2.2, .none⟩

/-- **Every ioctl that returns has one of the outcomes.** -/
theorem ioctl_outcome {env : Env} {dev : MtdpartctlDevice} {cmd : Ioctl} {r : IoctlResult}
    (h : mtdpartctlChrdevIoctl env dev cmd = .ok r) : IoctlOutcome env dev cmd r := by
  cases cmd with
  | getInfo =>
    unfold mtdpartctlChrdevIoctl at h
    split_ifs at h <;> (obtain rfl := Except.ok.inj h; exact .read (by simp))
  | addMtdPartition arg =>
    cases arg with
    | none =>
      obtain rfl := Except.ok.inj h
      exact .read (by simp)
    | some partInfo =>
      obtain ⟨r', -, h⟩ := bind_eq_ok h
      simp only at h
      split_ifs at h
      · obtain rfl := Except.ok.inj h
        exact .read (by simp)
      · obtain rfl := Except.ok.inj h
        exact .edit (.add r'.2) (by simp)
  | delMtdPartition arg =>
    cases arg with
    | none =>
      obtain rfl := Except.ok.inj h
      exact .read (by simp)
    | some idx =>
      obtain rfl := Except.ok.inj h
      exact .edit (.del idx) (by simp)
  | recipeAddPart arg =>
    cases arg with
    | none =>
      obtain rfl := Except.ok.inj h
      exact .read (by simp)
    | some partition =>
      obtain ⟨r', hadd, h⟩ := bind_eq_ok h
      obtain rfl := Except.ok.inj h
      exact .recipeAdd hadd
  | recipeDelPart arg =>
    cases arg with
    | none =>
      obtain rfl := Except.ok.inj h
      exact .read (by simp)
    | some idx =>
      obtain rfl := Except.ok.inj h
      exact .recipeDel idx
  | recipeCreatePartitions =>
    obtain ⟨r', hcreate, h⟩ := bind_eq_ok h
    obtain rfl := Except.ok.inj h
    exact .create hcreate
  | deleteMtdPartitions =>
    obtain ⟨r', hdelete, h⟩ := bind_eq_ok h
    obtain rfl := Except.ok.inj h
    exact .delete hdelete
  | restartRecipe =>
    obtain rfl := Except.ok.inj h
    exact .restart
  | listRecipeParts arg | getPartitionList arg =>
    cases arg with
    | none =>
      obtain rfl := Except.ok.inj h
      exact .read (by simp)
    | some readCount =>
      unfold mtdpartctlChrdevIoctl at h
      split_ifs at h <;> (obtain rfl := Except.ok.inj h; exact .read (by simp))
  | unknown =>
    obtain rfl := Except.ok.inj h
    exact .read (by simp)

/-! ### The respawn flag between calls -/

/-- A dispatch respawns the proxy or leaves the device alone. -/
theorem createRecipePartitions_frame {core : MtdCore} {dev : MtdpartctlDevice}
    {kvzalloc : Bool} {r : Int × MtdpartctlDevice × List CoreCall}
    (h : createRecipePartitions core dev kvzalloc = .ok r) :
    r.2.1 = dev ∨ ∃ mtd, r.2.1 = dev.respawned mtd := by
  rcases createRecipePartitions_cases core dev kvzalloc h with
    ⟨_, _, _, _, rfl⟩ | ⟨_, _, _, _, hresp⟩
  · exact Or.inl rfl
  · exact Or.inr (respawnProxyMtdLocked_frame core dev hresp)

/-- An add to the recipe touches nothing else. -/
theorem addRecipePart_frame {dev : MtdpartctlDevice} {partition : ExtMtdPartitionInfo}
    {kvzalloc : Bool} {r : Int × MtdpartctlDevice}
    (h : addRecipePart dev partition kvzalloc = .ok r) :
    ∃ recipe, r.2 = { dev with recipe := recipe } := by
  obtain ⟨ret, -, h⟩ := bind_eq_ok h
  split_ifs at h
  · obtain rfl := Except.ok.inj h
    exact ⟨dev.recipe, rfl⟩
  · obtain ⟨r', -, h⟩ := bind_eq_ok h
    obtain rfl := Except.ok.inj h
    exact ⟨r'.2, rfl⟩

/-- Every ioctl ends with the flag clear. -/
theorem IoctlOutcome.aboutToRespawn {env : Env} {dev : MtdpartctlDevice} {cmd : Ioctl}
    {r : IoctlResult} (h : IoctlOutcome env dev cmd r)
    (hflag : dev.proxy.aboutToRespawn = false) : r.dev.proxy.aboutToRespawn = false := by
  cases h with
  | read _ | recipeDel idx | restart => exact hflag
  | recipeAdd hadd =>
    obtain ⟨recipe, hdev⟩ := addRecipePart_frame hadd
    simp only [hdev]
    exact hflag
  | create hcreate =>
    rcases createRecipePartitions_frame hcreate with hdev | ⟨mtd, hdev⟩
    · simp only [hdev]
      exact hflag
    · simp only [hdev]
      rfl
  | delete hdelete =>
    obtain ⟨mtd, hmtd⟩ := respawnProxyMtdLocked_frame env.core dev hdelete
    simp only [hmtd]
    rfl
  | edit e _ =>
    obtain ⟨mtd, hmtd⟩ := immediateEditLocked_frame env.core dev.proxy e
    simp only [hmtd]
    exact hflag

/-- No ioctl touches the use count. -/
theorem IoctlOutcome.useRefcnt {env : Env} {dev : MtdpartctlDevice} {cmd : Ioctl}
    {r : IoctlResult} (h : IoctlOutcome env dev cmd r) :
    r.dev.proxy.useRefcnt = dev.proxy.useRefcnt := by
  cases h with
  | read _ | recipeDel idx | restart => rfl
  | recipeAdd hadd =>
    obtain ⟨recipe, hdev⟩ := addRecipePart_frame hadd
    simp only [hdev]
  | create hcreate =>
    rcases createRecipePartitions_frame hcreate with hdev | ⟨mtd, hdev⟩
    · simp only [hdev]
    · simp only [hdev]
      rfl
  | delete hdelete =>
    obtain ⟨mtd, hdev⟩ := respawnProxyMtdLocked_frame env.core dev hdelete
    simp only [hdev]
    rfl
  | edit e _ =>
    obtain ⟨mtd, hdev⟩ := immediateEditLocked_frame env.core dev.proxy e
    simp only [hdev]

/-- The get hook leaves the flag alone. -/
theorem proxyMtdGetDevice_aboutToRespawn (proxy : ProxyMtd) :
    (proxyMtdGetDevice proxy).2.aboutToRespawn = proxy.aboutToRespawn := by
  unfold proxyMtdGetDevice
  split_ifs <;> rfl

/-- Every call ends with the flag clear. -/
theorem deviceCall_aboutToRespawn {env : Env} {dev dev' : MtdpartctlDevice} {call : DevCall}
    {ret : Int} (hflag : dev.proxy.aboutToRespawn = false)
    (h : deviceCall env dev call = .ok (ret, dev')) : dev'.proxy.aboutToRespawn = false := by
  cases call with
  | ioctl cmd =>
    obtain ⟨r, hioctl, h⟩ := bind_eq_ok h
    obtain ⟨-, rfl⟩ := Prod.mk.inj (Except.ok.inj h)
    exact (ioctl_outcome hioctl).aboutToRespawn hflag
  | «open» =>
    unfold deviceCall mtdpartctlChrdevOpen at h
    split_ifs at h <;> (obtain ⟨-, rfl⟩ := Prod.mk.inj (Except.ok.inj h); exact hflag)
  | release =>
    obtain ⟨-, rfl⟩ := Prod.mk.inj (Except.ok.inj h)
    exact hflag
  | getDevice =>
    obtain ⟨-, rfl⟩ := Prod.mk.inj (Except.ok.inj h)
    exact (proxyMtdGetDevice_aboutToRespawn dev.proxy).trans hflag
  | putDevice =>
    obtain ⟨proxy, hput, h⟩ := bind_eq_ok h
    obtain ⟨-, rfl⟩ := Prod.mk.inj (Except.ok.inj h)
    unfold proxyMtdPutDevice at hput
    split_ifs at hput
    · cases hput
    · obtain rfl := Except.ok.inj hput
      exact hflag

/-- A step of the device is a call that returned. -/
theorem deviceCall_of_step {dev dev' : MtdpartctlDevice} {e : Env × DevCall}
    (h : deviceSystem.step dev e = some dev') :
    ∃ ret, deviceCall e.1 dev e.2 = .ok (ret, dev') := by
  unfold deviceSystem at h
  simp only at h
  cases hcall : deviceCall e.1 dev e.2 with
  | error o => rw [hcall] at h; cases h
  | ok r =>
    rw [hcall] at h
    obtain rfl := Option.some.inj h
    exact ⟨r.1, rfl⟩

/-- Between two calls the respawn flag is clear. -/
theorem Reachable.aboutToRespawn {dev : MtdpartctlDevice} (h : Reachable dev) :
    dev.proxy.aboutToRespawn = false := by
  refine TransitionSystem.Reach.invariant (P := fun dev => dev.proxy.aboutToRespawn = false)
    (fun _ hc => MtdpartctlDevice.Created.aboutToRespawn hc) ?_ h
  intro dev e dev' hflag _ hstep
  obtain ⟨ret, hcall⟩ := deviceCall_of_step hstep
  exact deviceCall_aboutToRespawn hflag hcall

/-! ### Failed calls -/

/-- A failed add to the recipe leaves the device alone. -/
theorem addRecipePart_failed {dev : MtdpartctlDevice} {partition : ExtMtdPartitionInfo}
    {kvzalloc : Bool} {r : Int × MtdpartctlDevice}
    (h : addRecipePart dev partition kvzalloc = .ok r) (hret : r.1 < 0) : r.2 = dev := by
  obtain ⟨ret, -, h⟩ := bind_eq_ok h
  split_ifs at h
  · obtain rfl := Except.ok.inj h
    rfl
  · obtain ⟨r', hlocked, h⟩ := bind_eq_ok h
    obtain rfl := Except.ok.inj h
    -- Both failures under the lock return before the list is touched.
    have hrecipe : r'.2 = dev.recipe := by
      obtain ⟨ret', -, hlocked⟩ := bind_eq_ok hlocked
      split_ifs at hlocked
      · obtain rfl := Except.ok.inj hlocked
        rfl
      · obtain rfl := Except.ok.inj hlocked
        rfl
      · obtain rfl := Except.ok.inj hlocked
        exact absurd hret (lt_irrefl (0 : Int))
    simp only [hrecipe]

/-- A failed deletion from the recipe leaves the device alone. -/
theorem delRecipePart_failed {dev : MtdpartctlDevice} {idx : UInt32}
    (hret : (delRecipePart dev idx).1 < 0) : (delRecipePart dev idx).2 = dev := by
  unfold delRecipePart at hret ⊢
  rw [delRecipePartLocked_eq] at hret ⊢
  by_cases hidx : idx.toNat < dev.recipe.partitions.length
  · rw [if_pos hidx] at hret
    exact absurd hret (lt_irrefl (0 : Int))
  · rw [if_neg hidx]

/-- A failed respawn has left the device alone, or has torn the partitions down and failed to
register the new ones. -/
theorem respawnProxyMtdLocked_failed {core : MtdCore} {dev : MtdpartctlDevice}
    (hflag : dev.proxy.aboutToRespawn = false) {partitions : Option (List MtdPartition)}
    {n : UInt64} {r : Int × MtdpartctlDevice × List CoreCall}
    (h : respawnProxyMtdLocked core dev partitions n = .ok r) (hret : r.1 < 0) :
    (r.2.1 = dev ∧ ∀ ps m, .mtdDeviceParseRegister ps m ∉ r.2.2) ∨
    ∃ mtd, r.2.1 = { dev with proxy := { dev.proxy with mtd := mtd } } ∧
      mtd.registered = false ∧ mtd.partitions = [] ∧
      r.2.2 = [.mtdDeviceUnregister, .mtdDeviceParseRegister partitions n] := by
  have hsame : ∀ mtd, dev.respawned mtd = { dev with proxy := { dev.proxy with mtd := mtd } } := by
    intro mtd
    unfold MtdpartctlDevice.respawned
    rw [← hflag]
  rcases respawnProxyMtdLocked_cases core dev partitions n h with
    ⟨_, rfl⟩ | ⟨_, _, rfl⟩ | ⟨_, _, reg, rfl, rfl⟩
  · exact Or.inl ⟨hsame _, by simp⟩
  · exact Or.inl ⟨hsame _, by simp⟩
  · have hreg := core.parseRegister_failed _ partitions n hret
    exact Or.inr ⟨_, hsame _, hreg.1, hreg.2, rfl⟩

/-- **What an ioctl that failed has done.**  Only a respawn that got past
`mtd_device_unregister` changes anything before it fails, and it changes only the proxy MTD. -/
theorem ioctl_failed {dev : MtdpartctlDevice} (h : Reachable dev) (env : Env) (cmd : Ioctl)
    {r : IoctlResult} (hr : mtdpartctlChrdevIoctl env dev cmd = .ok r) (hret : r.ret < 0) :
    (r.dev = dev ∧ ∀ partitions n, .mtdDeviceParseRegister partitions n ∉ r.calls) ∨
    ((cmd = .recipeCreatePartitions ∨ cmd = .deleteMtdPartitions) ∧
      (∃ partitions n,
        r.calls = [.mtdDeviceUnregister, .mtdDeviceParseRegister partitions n]) ∧
      ∃ mtd, r.dev = { dev with proxy := { dev.proxy with mtd := mtd } } ∧
        mtd.registered = false ∧ mtd.partitions = []) := by
  have hflag := h.aboutToRespawn
  cases ioctl_outcome hr with
  | read _ => exact Or.inl ⟨rfl, by simp⟩
  | recipeAdd hadd => exact Or.inl ⟨addRecipePart_failed hadd hret, by simp⟩
  | recipeDel idx => exact Or.inl ⟨delRecipePart_failed hret, by simp⟩
  | restart => exact absurd hret (lt_irrefl (0 : Int))
  | create hcreate =>
    rcases createRecipePartitions_cases env.core dev env.kvzalloc hcreate with
      ⟨_, _, _, _, rfl⟩ | ⟨_, partitions, _, _, hresp⟩
    · exact Or.inl ⟨rfl, by simp⟩
    · rcases respawnProxyMtdLocked_failed hflag hresp hret with
        hsame | ⟨mtd, hdev, hreg, hparts, hcalls⟩
      · exact Or.inl hsame
      · exact Or.inr ⟨Or.inl rfl, ⟨_, _, hcalls⟩, mtd, hdev, hreg, hparts⟩
  | delete hdelete =>
    rcases respawnProxyMtdLocked_failed hflag hdelete hret with
      hsame | ⟨mtd, hdev, hreg, hparts, hcalls⟩
    · exact Or.inl hsame
    · exact Or.inr ⟨Or.inr rfl, ⟨_, _, hcalls⟩, mtd, hdev, hreg, hparts⟩
  | edit e _ =>
    refine Or.inl ⟨?_, fun partitions n => parseRegister_notMem_immediateEdit _ _ _ _ _⟩
    have hproxy := immediateEditLocked_failed env.core dev.proxy e hret
    simp only [hproxy]

/-- An environment in which everything succeeds. -/
def Env.succeeding : Env := ⟨true, fun _ => true, MtdCore.answering 0 0 0 0⟩

/-- An opened device of one erase block, its recipe empty. -/
def openDevice : MtdpartctlDevice :=
  { MtdpartctlDevice.create ⟨0, 0x1000, 0x1000⟩ 1 with alreadyOpen := true }

theorem reachable_openDevice : Reachable openDevice :=
  .step (e := (.succeeding, .open)) (.init (MtdpartctlDevice.created_create _ _)) trivial rfl

/-- A core that unregisters the proxy MTD and then has no memory to register it again. -/
def Env.registerFails : Env :=
  ⟨true, fun _ => true, MtdCore.answering 0 (neg .ENOMEM) 0 0⟩

theorem ioctl_failed_delete :
    ∃ r, mtdpartctlChrdevIoctl .registerFails openDevice .deleteMtdPartitions = .ok r ∧
      r.ret = neg .ENOMEM ∧
      ∃ mtd, r.dev = { openDevice with proxy := { openDevice.proxy with mtd := mtd } } ∧
        mtd.registered = false ∧ mtd.partitions = [] := by
  refine ⟨_, rfl, rfl, ?_⟩
  rcases ioctl_failed reachable_openDevice .registerFails .deleteMtdPartitions rfl
    (neg_lt_zero .ENOMEM) with ⟨_, hcalls⟩ | ⟨_, _, hmtd⟩
  · exact absurd (by decide) (hcalls none 0)
  · exact hmtd

/-- The failed respawn leaves a registered proxy MTD unregistered. -/
theorem ioctl_failed_unregisters :
    ¬ ∀ dev, Reachable dev → ∀ env cmd r, mtdpartctlChrdevIoctl env dev cmd = .ok r →
      r.ret < 0 → r.dev.proxy.mtd.registered = dev.proxy.mtd.registered := by
  intro h
  have hreg := h openDevice reachable_openDevice .registerFails .deleteMtdPartitions _ rfl
    (neg_lt_zero .ENOMEM)
  exact absurd hreg (by decide)

end Mtdpartikr
