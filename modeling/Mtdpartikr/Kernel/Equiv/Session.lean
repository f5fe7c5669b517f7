import Mtdpartikr.Kernel.Equiv.DeviceRun
import Mtdpartikr.Lib.Machine

/-!
# What a session sees of the sessions before it

`session` is the device as a machine that answers calls: with the return code and the reply, and
for `RECIPE_CREATE_PARTITIONS` with what the conversion of the recipe returned.

`SameSession` relates two devices that differ in nothing a recipe session can see.  The open that
starts a session brings it about (`sameSession_open`), every call of a recipe session keeps it
(`sameSession_step`), and so two sessions after two pasts get the same answers
(`session_outputs_eq`).
-/

namespace Mtdpartikr

/-! ### Sessions as runs of a machine -/

/-- What is compared of a call: the outcome of a dispatch depends on the proxy and its users, so
there it is the conversion of the recipe. -/
inductive Answer where
  | returned (outcome : Except Oops (Int × Reply))
  | converted (outcome : Except Oops (Int × Option (List MtdPartition)))

def answer (env : Env) (dev : MtdpartctlDevice) : DevCall → Answer
  | .ioctl .recipeCreatePartitions =>
    .converted (convertRecipeToMtdPartitionsLocked dev.recipe env.kvzalloc)
  | .ioctl cmd =>
    .returned ((mtdpartctlChrdevIoctl env dev cmd).map fun result => (result.ret, result.reply))
  | call => .returned ((deviceCall env dev call).map fun result => (result.1, .none))

/-- The device as a client sees it. -/
def session : Machine MtdpartctlDevice (Env × DevCall) Answer where
  step dev e := (answer e.1 dev e.2, deviceSystem.step dev e)

/-- The calls of a recipe session. -/
def RecipeCall : DevCall → Prop
  | .open | .ioctl (.recipeAddPart _) | .ioctl (.recipeDelPart _) | .ioctl .restartRecipe
  | .ioctl (.listRecipeParts _) | .ioctl .recipeCreatePartitions => True
  | _ => False

/-- One call of a recipe session made in two runs: the client passes the same arguments and
allocations succeed, the MTD core may answer in its own way. -/
structure SameCall (e₁ e₂ : Env × DevCall) : Prop where
  call : e₁.2 = e₂.2
  recipeCall : RecipeCall e₁.2
  copyToUser : e₁.1.copyToUser = e₂.1.copyToUser
  kvzalloc₁ : e₁.1.kvzalloc = true
  kvzalloc₂ : e₂.1.kvzalloc = true

/-! ### The device during a session -/

/-- A device between two sessions: closed, with nobody using the proxy and no respawn under
way.  Its recipe is whatever the last session left. -/
structure Rested (mtd : MtdInfo) (dev : MtdpartctlDevice) : Prop where
  backingMtd : dev.backingMtd = mtd
  alreadyOpen : dev.alreadyOpen = false
  useRefcnt : dev.proxy.useRefcnt = 0
  aboutToRespawn : dev.proxy.aboutToRespawn = false

/-- What the calls of a session keep of a device. -/
structure OnlyClients (mtd : MtdInfo) (dev : MtdpartctlDevice) : Prop where
  backingMtd : dev.backingMtd = mtd
  recipeInv : RecipeInv dev.backingMtd dev.recipe.partitions
  useRefcnt : dev.proxy.useRefcnt = 0
  aboutToRespawn : dev.proxy.aboutToRespawn = false

/-- A call of a recipe session leaves the use count alone. -/
theorem deviceCall_useRefcnt {env : Env} {dev dev' : MtdpartctlDevice} {call : DevCall} {ret : Int}
    (hcall : RecipeCall call) (h : deviceCall env dev call = .ok (ret, dev')) :
    dev'.proxy.useRefcnt = dev.proxy.useRefcnt := by
  cases call with
  | ioctl cmd =>
    obtain ⟨r, hioctl, h⟩ := bind_eq_ok h
    obtain ⟨-, rfl⟩ := Prod.mk.inj (Except.ok.inj h)
    exact (ioctl_outcome hioctl).useRefcnt
  | «open» =>
    unfold deviceCall mtdpartctlChrdevOpen at h
    split_ifs at h <;> (obtain ⟨-, rfl⟩ := Prod.mk.inj (Except.ok.inj h); rfl)
  | release | getDevice | putDevice => exact hcall.elim

theorem OnlyClients.step {mtd : MtdInfo} {dev dev' : MtdpartctlDevice} {e : Env × DevCall}
    (h : OnlyClients mtd dev) (hcall : RecipeCall e.2)
    (hstep : deviceSystem.step dev e = some dev') : OnlyClients mtd dev' := by
  obtain ⟨hinv, hmtd, -⟩ := step_recipeInv h.recipeInv hstep
  obtain ⟨ret, hret⟩ := deviceCall_of_step hstep
  exact ⟨hmtd.trans h.backingMtd, hinv, (deviceCall_useRefcnt hcall hret).trans h.useRefcnt,
    deviceCall_aboutToRespawn h.aboutToRespawn hret⟩

/-! ### Calls do not look at the proxy -/

/-- The outcome of an add does not depend on the proxy. -/
theorem addRecipePart_withProxy (dev : MtdpartctlDevice) (proxy : ProxyMtd)
    (partition : ExtMtdPartitionInfo) (kvzalloc : Bool) :
    addRecipePart { dev with proxy := proxy } partition kvzalloc =
      (addRecipePart dev partition kvzalloc).map fun r => (r.1, { r.2 with proxy := proxy }) := by
  have hverify : verifyPartitionBasicConditions { dev with proxy := proxy } partition.base =
      verifyPartitionBasicConditions dev partition.base := rfl
  unfold addRecipePart
  rw [hverify]
  cases verifyPartitionBasicConditions dev partition.base with
  | error o => rfl
  | ok ret =>
    simp only [bind, Except.bind]
    by_cases hret : ret < 0
    · rw [if_pos hret, if_pos hret]
      rfl
    · rw [if_neg hret, if_neg hret]
      cases addRecipePartLocked dev.recipe partition kvzalloc <;> rfl

/-- The same for every other ioctl of a recipe session, the dispatch apart. -/
theorem ioctl_withProxy {env₁ env₂ : Env} (hcopy : env₁.copyToUser = env₂.copyToUser)
    (hk : env₁.kvzalloc = env₂.kvzalloc) {dev : MtdpartctlDevice} {proxy : ProxyMtd}
    (hflag : dev.proxy.aboutToRespawn = false) (hflag' : proxy.aboutToRespawn = false)
    {cmd : Ioctl} (hcall : RecipeCall (.ioctl cmd)) (hcmd : cmd ≠ .recipeCreatePartitions) :
    mtdpartctlChrdevIoctl env₂ { dev with proxy := proxy } cmd =
      (mtdpartctlChrdevIoctl env₁ dev cmd).map fun r =>
        { r with dev := { r.dev with proxy := proxy } } := by
  cases cmd with
  | recipeAddPart arg =>
    cases arg with
    | none => rfl
    | some partition =>
      simp only [mtdpartctlChrdevIoctl, addRecipePart_withProxy, hk]
      cases addRecipePart dev partition env₂.kvzalloc <;> rfl
  | recipeDelPart arg => cases arg <;> rfl
  | restartRecipe => rfl
  | listRecipeParts arg =>
    cases arg with
    | none => rfl
    | some readCount => simp [mtdpartctlChrdevIoctl, hflag, hflag', hcopy, pure, Except.pure,
        Except.map]
  | recipeCreatePartitions => exact absurd rfl hcmd
  | getInfo | addMtdPartition | delMtdPartition | deleteMtdPartitions | getPartitionList
  | unknown => exact hcall.elim

/-- A dispatch without users of the proxy returns exactly when the conversion does. -/
theorem createRecipePartitions_of_unused (core : MtdCore) {dev : MtdpartctlDevice}
    (h : dev.proxy.useRefcnt = 0) (kvzalloc : Bool) :
    (∃ o, convertRecipeToMtdPartitionsLocked dev.recipe kvzalloc = .error o ∧
      createRecipePartitions core dev kvzalloc = .error o) ∨
    (∃ c r, convertRecipeToMtdPartitionsLocked dev.recipe kvzalloc = .ok c ∧
      createRecipePartitions core dev kvzalloc = .ok r) := by
  unfold createRecipePartitions
  cases hconv : convertRecipeToMtdPartitionsLocked dev.recipe kvzalloc with
  | error o => exact Or.inl ⟨o, rfl, rfl⟩
  | ok c =>
    obtain ⟨ret, partitions⟩ := c
    refine Or.inr ⟨(ret, partitions), ?_⟩
    simp only [bind, Except.bind]
    by_cases hret : ret < 0
    · rw [if_pos hret]
      exact ⟨_, trivial, rfl⟩
    · rw [if_neg hret]
      by_cases hzero : dev.recipe.partsCount = 0
      · -- With a counter of zero the conversion has refused.
        unfold convertRecipeToMtdPartitionsLocked at hconv
        rw [if_pos hzero] at hconv
        obtain ⟨rfl, -⟩ := Prod.mk.inj (Except.ok.inj hconv)
        exact absurd (neg_lt_zero _) hret
      · rw [if_neg hzero]
        cases hresp : respawnProxyMtdLocked core dev partitions dev.recipe.partsCount with
        | ok r => exact ⟨r, trivial, rfl⟩
        | error o =>
          -- Its only `BUG_ON` is on a negative count.
          unfold respawnProxyMtdLocked respawnFlagged setProxyMtdAboutToRespawn at hresp
          simp only [h, if_false, ne_eq, not_true_eq_false] at hresp
          by_cases hunreg : (core.mtdDeviceUnregister dev.proxy.mtd).1 < 0
          · rw [if_pos hunreg] at hresp
            cases hresp
          · rw [if_neg hunreg] at hresp
            cases hresp

/-! ### Two sessions -/

/-- Two devices that a recipe session cannot tell apart. -/
structure SameSession (mtd : MtdInfo) (dev₁ dev₂ : MtdpartctlDevice) : Prop where
  only₁ : OnlyClients mtd dev₁
  only₂ : OnlyClients mtd dev₂
  alreadyOpen : dev₁.alreadyOpen = dev₂.alreadyOpen
  recipe : dev₁.recipe = dev₂.recipe

theorem SameSession.exists_proxy {mtd : MtdInfo} {dev₁ dev₂ : MtdpartctlDevice}
    (h : SameSession mtd dev₁ dev₂) : ∃ proxy, dev₂ = { dev₁ with proxy := proxy } := by
  obtain ⟨mtd₁, open₁, recipe₁, proxy₁⟩ := dev₁
  obtain ⟨mtd₂, open₂, recipe₂, proxy₂⟩ := dev₂
  have hmtd : mtd₁ = mtd₂ := h.only₁.backingMtd.trans h.only₂.backingMtd.symm
  have hopen : open₁ = open₂ := h.alreadyOpen
  have hrecipe : recipe₁ = recipe₂ := h.recipe
  subst hmtd hopen hrecipe
  exact ⟨proxy₂, rfl⟩

/-- A step is a call that returned. -/
theorem deviceSystem_step (dev : MtdpartctlDevice) (e : Env × DevCall) :
    deviceSystem.step dev e = (deviceCall e.1 dev e.2).toOption.map Prod.snd := by
  simp only [deviceSystem]
  cases deviceCall e.1 dev e.2 <;> rfl

/-- Calls that end both or neither, with the same recipe and the same `already_open`, keep two
devices alike. -/
theorem SameSession.rel_step {mtd : MtdInfo} {dev₁ dev₂ : MtdpartctlDevice}
    (h : SameSession mtd dev₁ dev₂) {e₁ e₂ : Env × DevCall} (he : SameCall e₁ e₂)
    (hview : Option.Rel (fun dev₁' dev₂' => dev₁'.alreadyOpen = dev₂'.alreadyOpen ∧
      dev₁'.recipe = dev₂'.recipe) (deviceSystem.step dev₁ e₁) (deviceSystem.step dev₂ e₂)) :
    Option.Rel (SameSession mtd) (deviceSystem.step dev₁ e₁) (deviceSystem.step dev₂ e₂) := by
  have hcall₂ : RecipeCall e₂.2 := he.call ▸ he.recipeCall
  cases h₁ : deviceSystem.step dev₁ e₁ <;> cases h₂ : deviceSystem.step dev₂ e₂ <;>
    rw [h₁, h₂] at hview <;> cases hview
  · exact .none
  · rename_i hview
    exact .some ⟨h.only₁.step he.recipeCall h₁, h.only₂.step hcall₂ h₂, hview.1, hview.2⟩

/-- What a dispatch without users leaves of the recipe. -/
theorem createRecipePartitions_view {env : Env} {dev dev' : MtdpartctlDevice}
    (h : deviceSystem.step dev (env, .ioctl .recipeCreatePartitions) = some dev') :
    dev'.alreadyOpen = dev.alreadyOpen ∧ dev'.recipe = dev.recipe := by
  obtain ⟨ret, hcall⟩ := deviceCall_of_step h
  obtain ⟨r, hioctl, hcall⟩ := bind_eq_ok hcall
  obtain ⟨-, rfl⟩ := Prod.mk.inj (Except.ok.inj hcall)
  obtain ⟨r', hcreate, hioctl⟩ := bind_eq_ok hioctl
  obtain rfl := Except.ok.inj hioctl
  rcases createRecipePartitions_frame hcreate with hdev | ⟨mtd, hdev⟩
  · simp only [hdev, and_self]
  · simp only [hdev]
    exact ⟨rfl, rfl⟩

/-- The dispatch of two sessions: both conversions are the same, and both calls return or
neither does. -/
theorem sameSession_create {mtd : MtdInfo} {dev₁ dev₂ : MtdpartctlDevice}
    (h : SameSession mtd dev₁ dev₂) {env₁ env₂ : Env} (hk : env₁.kvzalloc = env₂.kvzalloc) :
    answer env₁ dev₁ (.ioctl .recipeCreatePartitions) =
        answer env₂ dev₂ (.ioctl .recipeCreatePartitions) ∧
      Option.Rel (fun dev₁' dev₂' => dev₁'.alreadyOpen = dev₂'.alreadyOpen ∧
          dev₁'.recipe = dev₂'.recipe)
        (deviceSystem.step dev₁ (env₁, .ioctl .recipeCreatePartitions))
        (deviceSystem.step dev₂ (env₂, .ioctl .recipeCreatePartitions)) := by
  have hstep : ∀ {env : Env} {dev : MtdpartctlDevice},
      deviceSystem.step dev (env, .ioctl .recipeCreatePartitions) =
        (createRecipePartitions env.core dev env.kvzalloc).toOption.map fun r => r.2.1 := by
    intro env dev
    rw [deviceSystem_step]
    simp only [deviceCall, mtdpartctlChrdevIoctl]
    cases createRecipePartitions env.core dev env.kvzalloc <;> rfl
  refine ⟨by simp only [answer, h.recipe, hk], ?_⟩
  have h₁ := createRecipePartitions_of_unused env₁.core h.only₁.useRefcnt env₁.kvzalloc
  have h₂ := createRecipePartitions_of_unused env₂.core h.only₂.useRefcnt env₁.kvzalloc
  rw [h.recipe] at h₁
  rcases h₁ with ⟨o, hconv, h₁⟩ | ⟨c, r₁, hconv, h₁⟩
  · rcases h₂ with ⟨o', _, h₂⟩ | ⟨c, r₂, hconv', _⟩
    · rw [hstep, hstep, h₁, ← hk, h₂]
      exact .none
    · rw [hconv] at hconv'
      cases hconv'
  · rcases h₂ with ⟨o', hconv', _⟩ | ⟨c', r₂, _, h₂⟩
    · rw [hconv] at hconv'
      cases hconv'
    · have hsome₁ : deviceSystem.step dev₁ (env₁, .ioctl .recipeCreatePartitions) =
          some r₁.2.1 := by rw [hstep, h₁]; rfl
      have hsome₂ : deviceSystem.step dev₂ (env₂, .ioctl .recipeCreatePartitions) =
          some r₂.2.1 := by rw [hstep, ← hk, h₂]; rfl
      obtain ⟨hopen₁, hrecipe₁⟩ := createRecipePartitions_view hsome₁
      obtain ⟨hopen₂, hrecipe₂⟩ := createRecipePartitions_view hsome₂
      rw [hsome₁, hsome₂]
      refine .some ⟨?_, ?_⟩
      · rw [hopen₁, hopen₂, h.alreadyOpen]
      · rw [hrecipe₁, hrecipe₂, h.recipe]

/-- **A call of a recipe session answers two such devices alike and keeps them so.** -/
theorem sameSession_step {mtd : MtdInfo} {dev₁ dev₂ : MtdpartctlDevice}
    (h : SameSession mtd dev₁ dev₂) {e₁ e₂ : Env × DevCall} (he : SameCall e₁ e₂) :
    (session.step dev₁ e₁).1 = (session.step dev₂ e₂).1 ∧
      Option.Rel (SameSession mtd) (session.step dev₁ e₁).2 (session.step dev₂ e₂).2 := by
  have hk : e₁.1.kvzalloc = e₂.1.kvzalloc := he.kvzalloc₁.trans he.kvzalloc₂.symm
  suffices hboth : answer e₁.1 dev₁ e₁.2 = answer e₂.1 dev₂ e₂.2 ∧
      Option.Rel (fun dev₁' dev₂' => dev₁'.alreadyOpen = dev₂'.alreadyOpen ∧
        dev₁'.recipe = dev₂'.recipe) (deviceSystem.step dev₁ e₁) (deviceSystem.step dev₂ e₂) from
    ⟨hboth.1, h.rel_step he hboth.2⟩
  obtain ⟨env₁, call⟩ := e₁
  obtain ⟨env₂, call₂⟩ := e₂
  obtain rfl : call = call₂ := he.call
  cases call with
  | «open» =>
    have hopen := h.alreadyOpen
    simp only [answer, deviceSystem, deviceCall, mtdpartctlChrdevOpen, hopen]
    cases dev₂.alreadyOpen with
    | true => exact ⟨rfl, .some ⟨hopen, h.recipe⟩⟩
    | false => exact ⟨rfl, .some ⟨rfl, rfl⟩⟩
  | ioctl cmd =>
    by_cases hcmd : cmd = .recipeCreatePartitions
    · subst hcmd
      exact sameSession_create h hk
    · obtain ⟨proxy, rfl⟩ := h.exists_proxy
      have heq := ioctl_withProxy he.copyToUser hk h.only₁.aboutToRespawn h.only₂.aboutToRespawn
        he.recipeCall hcmd
      have hanswer : ∀ env dev, answer env dev (.ioctl cmd) = .returned
          ((mtdpartctlChrdevIoctl env dev cmd).map fun r => (r.ret, r.reply)) := by
        intro env dev
        cases cmd <;> first | rfl | exact absurd rfl hcmd
      rw [hanswer, hanswer, deviceSystem_step, deviceSystem_step]
      simp only [deviceCall]
      rw [heq]
      cases mtdpartctlChrdevIoctl env₁ dev₁ cmd with
      | error o => exact ⟨rfl, .none⟩
      | ok r => exact ⟨rfl, .some ⟨rfl, rfl⟩⟩
  | release | getDevice | putDevice => exact he.recipeCall.elim

/-- The open that starts a session makes two devices alike whatever their recipes were. -/
theorem sameSession_open {mtd : MtdInfo} {dev₁ dev₂ : MtdpartctlDevice}
    (h₁ : Rested mtd dev₁) (h₂ : Rested mtd dev₂) (env₁ env₂ : Env) :
    (session.step dev₁ (env₁, .open)).1 = (session.step dev₂ (env₂, .open)).1 ∧
      Option.Rel (SameSession mtd) (session.step dev₁ (env₁, .open)).2
        (session.step dev₂ (env₂, .open)).2 := by
  have hstep : ∀ {dev : MtdpartctlDevice} {env : Env}, dev.alreadyOpen = false →
      session.step dev (env, .open) = (.returned (.ok (0, .none)),
        some { dev with alreadyOpen := true, recipe := ⟨[], 0⟩ }) := by
    intro dev env hclosed
    simp only [session, answer, deviceSystem, deviceCall, mtdpartctlChrdevOpen, hclosed]
    rfl
  rw [hstep h₁.alreadyOpen, hstep h₂.alreadyOpen]
  refine ⟨rfl, .some ⟨?_, ?_, rfl, rfl⟩⟩
  · exact ⟨h₁.backingMtd, RecipeInv.nil _, h₁.useRefcnt, h₁.aboutToRespawn⟩
  · exact ⟨h₂.backingMtd, RecipeInv.nil _, h₂.useRefcnt, h₂.aboutToRespawn⟩

/-- **A session sees nothing of the sessions before it.** -/
theorem session_outputs_eq {mtd : MtdInfo} {dev₁ dev₂ : MtdpartctlDevice}
    (h₁ : Rested mtd dev₁) (h₂ : Rested mtd dev₂) {env₁ env₂ : Env}
    {script₁ script₂ : List (Env × DevCall)} (hscript : List.Forall₂ SameCall script₁ script₂) :
    session.outputs dev₁ ((env₁, .open) :: script₁) =
      session.outputs dev₂ ((env₂, .open) :: script₂) := by
  obtain ⟨hout, hnext⟩ := sameSession_open h₁ h₂ env₁ env₂
  rw [Machine.outputs, Machine.outputs, hout]
  congr 1
  generalize (session.step dev₁ (env₁, .open)).2 = n₁ at hnext ⊢
  generalize (session.step dev₂ (env₂, .open)).2 = n₂ at hnext ⊢
  cases hnext with
  | none => rfl
  | some hsame =>
    exact Machine.outputs_eq_of_related (fun _ _ _ _ hs he => sameSession_step hs he) hscript hsame

end Mtdpartikr
