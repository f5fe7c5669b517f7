import Mtdpartikr.Kernel.Equiv.Session
import Mtdpartikr.Threads.Equiv.Refcnt

/-!
# One client at a time, and each with a recipe of its own

Over any interleaving of threads an open succeeds only while the device is closed and only a
release closes it again (`alreadyOpen_step`), so two opens that succeed have a release between
them.  Together with `session_outputs_eq` this isolates the sessions of a device from each other
(`sessions_isolated`).
-/

namespace Mtdpartikr

section

variable {T : Type*}

/-- The step is an open that ends with the given code. -/
def OpenStep (ret : Int) (s : ThreadState T) (e : T × Event) : Prop :=
  s.pc e.1 = .idle ∧ e.2.call = .open ∧ (mtdpartctlChrdevOpen s.shared).1 = ret

/-- The step is a release. -/
def ReleaseStep (s : ThreadState T) (e : T × Event) : Prop :=
  s.pc e.1 = .idle ∧ e.2.call = .release

/-! ### What an open decides on -/

theorem open_succeeds_iff (dev : MtdpartctlDevice) :
    (mtdpartctlChrdevOpen dev).1 = 0 ↔ dev.alreadyOpen = false := by
  unfold mtdpartctlChrdevOpen
  cases dev.alreadyOpen with
  | true => exact iff_of_false (neg_ne_zero .EBUSY) (by decide)
  | false => exact iff_of_true rfl rfl

theorem open_busy_iff (dev : MtdpartctlDevice) :
    (mtdpartctlChrdevOpen dev).1 = neg .EBUSY ↔ dev.alreadyOpen = true := by
  unfold mtdpartctlChrdevOpen
  cases dev.alreadyOpen with
  | true => exact iff_of_true rfl rfl
  | false => exact iff_of_false (neg_ne_zero .EBUSY).symm (by decide)

/-! ### The steps of the threads and `already_open` -/

/-- Editing the recipe leaves `already_open` alone. -/
theorem recipeSection_alreadyOpen {edit : RecipeEdit} {env : Env} {dev dev' : MtdpartctlDevice}
    (h : recipeSection edit env dev = .ok dev') : dev'.alreadyOpen = dev.alreadyOpen := by
  cases edit with
  | add partition =>
    obtain ⟨r, -, h⟩ := bind_eq_ok h
    obtain rfl := Except.ok.inj h
    rfl
  | del idx | restart =>
    obtain rfl := Except.ok.inj h
    rfl

/-- Only a call that starts touches `already_open`. -/
theorem act_alreadyOpen {e : Event} {dev dev' : MtdpartctlDevice} {pc pc' : Pc}
    {f : Event → MtdpartctlDevice → Option (MtdpartctlDevice × Pc)}
    (hcode : driver.code pc = .act f) (hf : f e dev = some (dev', pc')) (hpc : pc ≠ .idle) :
    dev'.alreadyOpen = dev.alreadyOpen := by
  have hacts := acts_of_code hcode hf
  cases hacts with
  | call _ _ _ => exact absurd rfl hpc
  | recipe _ _ =>
    obtain ⟨dev₁, hbody, h⟩ := bind_eq_ok (tryAct_eq_some hcode hf)
    obtain ⟨rfl, -⟩ := Prod.mk.inj (Except.ok.inj h)
    exact recipeSection_alreadyOpen hbody
  | _ => rfl

/-- What a starting call does to the device. -/
theorem callEntry_alreadyOpen {e : Event} {dev dev' : MtdpartctlDevice} {pc : Pc}
    (h : callEntry e dev = .ok (dev', pc)) :
    (e.call = .open ∧ dev.alreadyOpen = true ∧ dev' = dev) ∨
    (e.call = .open ∧ dev.alreadyOpen = false ∧ dev' = { dev with alreadyOpen := true }) ∨
    (e.call = .release) ∨ (e.call ≠ .open ∧ dev' = dev) := by
  unfold callEntry at h
  cases hc : e.call with
  | «open» =>
    simp only [hc] at h
    split_ifs at h with hopen
    · obtain ⟨rfl, -⟩ := Prod.mk.inj (Except.ok.inj h)
      exact Or.inl ⟨rfl, hopen, rfl⟩
    · obtain ⟨rfl, -⟩ := Prod.mk.inj (Except.ok.inj h)
      exact Or.inr (Or.inl ⟨rfl, Bool.not_eq_true _ ▸ hopen, rfl⟩)
  | release => exact Or.inr (Or.inr (Or.inl rfl))
  | getMtdDevice =>
    simp only [hc] at h
    obtain ⟨rfl, -⟩ := Prod.mk.inj (Except.ok.inj h)
    exact Or.inr (Or.inr (Or.inr ⟨by simp, rfl⟩))
  | ioctl cmd =>
    simp only [hc] at h
    obtain ⟨pc', -, h⟩ := bind_eq_ok h
    obtain ⟨rfl, -⟩ := Prod.mk.inj (Except.ok.inj h)
    exact Or.inr (Or.inr (Or.inr ⟨by simp, rfl⟩))

variable [DecidableEq T]

/-- A step of an idle thread starts its call. -/
theorem callEntry_of_step {s s' : ThreadState T} {e : T × Event}
    (hstep : (threadSystem T).step s e = some s') (hpc : s.pc e.1 = .idle) :
    ∃ pc, callEntry e.2 s.shared = .ok (s'.shared, pc) := by
  have hcode : driver.code (s.pc e.1) = tryAct callEntry := by rw [hpc]; rfl
  cases Threads.moves_of_step hstep with
  | act hact hf => exact ⟨_, tryAct_eq_some (hcode.symm.trans hact) hf⟩
  | lock hlock _ => rw [hcode] at hlock; cases hlock
  | unlock hunlock => rw [hcode] at hunlock; cases hunlock

/-- **While a client has the device open, only a release closes it.** -/
theorem alreadyOpen_step {s s' : ThreadState T} {e : T × Event}
    (hopen : s.shared.alreadyOpen = true) (hrel : ¬ ReleaseStep s e)
    (hstep : (threadSystem T).step s e = some s') : s'.shared.alreadyOpen = true := by
  by_cases hpc : s.pc e.1 = .idle
  · obtain ⟨pc, hentry⟩ := callEntry_of_step hstep hpc
    rcases callEntry_alreadyOpen hentry with
      ⟨_, _, hdev⟩ | ⟨_, hclosed, _⟩ | hcall | ⟨_, hdev⟩
    · rw [hdev, hopen]
    · rw [hopen] at hclosed
      cases hclosed
    · exact absurd ⟨hpc, hcall⟩ hrel
    · rw [hdev, hopen]
  · cases Threads.moves_of_step hstep with
    | act hcode hf => exact (act_alreadyOpen hcode hf hpc).trans hopen
    | lock _ _ | unlock _ => exact hopen

/-- An open that succeeds leaves the device open. -/
theorem alreadyOpen_of_open {s s' : ThreadState T} {e : T × Event} (h : OpenStep 0 s e)
    (hstep : (threadSystem T).step s e = some s') : s'.shared.alreadyOpen = true := by
  obtain ⟨hpc, hcall, hret⟩ := h
  obtain ⟨pc, hentry⟩ := callEntry_of_step hstep hpc
  rcases callEntry_alreadyOpen hentry with
    ⟨_, hopen, hdev⟩ | ⟨_, _, hdev⟩ | hrel | ⟨hne, _⟩
  · rw [hdev, hopen]
  · rw [hdev]
  · rw [hcall] at hrel
    cases hrel
  · exact absurd hcall hne

/-- A refused open changes nothing. -/
theorem shared_of_busy {s s' : ThreadState T} {e : T × Event} (h : OpenStep (neg .EBUSY) s e)
    (hstep : (threadSystem T).step s e = some s') : s'.shared = s.shared := by
  obtain ⟨hpc, hcall, hret⟩ := h
  obtain ⟨pc, hentry⟩ := callEntry_of_step hstep hpc
  rw [open_busy_iff] at hret
  rcases callEntry_alreadyOpen hentry with
    ⟨_, _, hdev⟩ | ⟨_, hclosed, _⟩ | hrel | ⟨hne, _⟩
  · exact hdev
  · rw [hret] at hclosed
    cases hclosed
  · rw [hcall] at hrel
    cases hrel
  · exact absurd hcall hne

/-! ### The past of a session -/

/-- The point an action leads to when nobody calls for a reference. -/
theorem inHook_of_act {e : Event} {dev dev' : MtdpartctlDevice} {pc pc' : Pc}
    {f : Event → MtdpartctlDevice → Option (MtdpartctlDevice × Pc)}
    (hcode : driver.code pc = .act f) (hf : f e dev = some (dev', pc'))
    (hcall : e.call ≠ .getMtdDevice) (hpc : inHook pc = false) : inHook pc' = false := by
  have hacts := acts_of_code hcode hf
  cases hacts with
  | call _ _ _ =>
    have hentry : callEntry e dev = .ok (dev', pc') := tryAct_eq_some hcode hf
    unfold callEntry at hentry
    cases hc : e.call with
    | «open» =>
      simp only [hc] at hentry
      split_ifs at hentry <;> (obtain ⟨-, rfl⟩ := Prod.mk.inj (Except.ok.inj hentry); rfl)
    | release =>
      simp only [hc] at hentry
      obtain ⟨-, rfl⟩ := Prod.mk.inj (Except.ok.inj hentry)
      rfl
    | getMtdDevice => exact absurd hc hcall
    | ioctl cmd =>
      simp only [hc] at hentry
      obtain ⟨pc₁, hioctl, hentry⟩ := bind_eq_ok hentry
      obtain ⟨-, rfl⟩ := Prod.mk.inj (Except.ok.inj hentry)
      exact (ioctlEntry_isEntry hioctl).2
  | put | granted _ | refused _ | dropped _ => cases hpc
  | _ => rfl

theorem inHook_of_lock {pc c : Pc} {l : Lock} (h : driver.code pc = .lock l c)
    (hpc : inHook pc = false) : inHook c = false := by
  cases pc <;> cases h <;> first | rfl | cases hpc

theorem inHook_of_unlock {pc c : Pc} {l : Lock} (h : driver.code pc = .unlock l c)
    (hpc : inHook pc = false) : inHook c = false := by
  cases pc with
  | hookUnlock _ _ | hookLeave _ => cases hpc
  | unregLeave args done => cases h; cases done <;> rfl
  | _ => cases h <;> rfl

theorem Acts.backingMtd {e : Event} {dev dev' : MtdpartctlDevice} {pc pc' : Pc}
    (h : Acts e dev pc dev' pc') : dev'.backingMtd = dev.backingMtd := by
  cases h with
  | call hmtd _ _ | recipe hmtd _ => exact hmtd
  | _ => rfl

/-- What holds over any interleaving of opens, ioctls and releases. -/
structure PastInv (mtd : MtdInfo) (s : ThreadState T) : Prop where
  flag : FlagInv s
  backingMtd : s.shared.backingMtd = mtd
  outside : ∀ t, inHook (s.pc t) = false
  useRefcnt : s.shared.proxy.useRefcnt = 0

theorem pastInv_step {mtd : MtdInfo} {s s' : ThreadState T} {e : T × Event}
    (h : PastInv mtd s) (hcall : e.2.call ≠ .getMtdDevice)
    (hstep : (threadSystem T).step s e = some s') : PastInv mtd s' := by
  have hmoves := Threads.moves_of_step hstep
  have hflag := flagInv_step h.flag hmoves
  have houtside : ∀ {pc : Pc}, inHook pc = false →
      ∀ t, inHook (Function.update s.pc e.1 pc t) = false := by
    intro pc hpc t
    by_cases ht : t = e.1
    · rw [ht, Function.update_self, hpc]
    · rw [Function.update_of_ne ht, h.outside t]
  cases hmoves with
  | act hcode hf =>
    have hacts := acts_of_code hcode hf
    refine ⟨hflag, hacts.backingMtd.trans h.backingMtd,
      houtside (inHook_of_act hcode hf hcall (h.outside e.1)), ?_⟩
    -- The count changes in the hooks only.
    rcases hacts.refcnt_cases with ⟨hsame, _⟩ | ⟨_, _, ⟨⟨u, hpc⟩, _⟩ | ⟨⟨u, hpc⟩, _⟩⟩
    · exact hsame.trans h.useRefcnt
    all_goals
      have hout := h.outside e.1
      rw [hpc] at hout
      cases hout
  | lock hcode _ =>
    exact ⟨hflag, h.backingMtd, houtside (inHook_of_lock hcode (h.outside e.1)), h.useRefcnt⟩
  | unlock hcode =>
    exact ⟨hflag, h.backingMtd, houtside (inHook_of_unlock hcode (h.outside e.1)), h.useRefcnt⟩

/-- The device at the end of a past: no call is under way, and nobody has it open. -/
structure EndsClosed (s : ThreadState T) : Prop where
  idle : ∀ t, s.pc t = .idle
  alreadyOpen : s.shared.alreadyOpen = false

/-- **A past of opens, ioctls and releases leaves nothing behind but the recipe.** -/
theorem rested_of_past {dev : MtdpartctlDevice} (h : dev.Created) {es : List (T × Event)}
    (hes : ∀ e ∈ es, e.2.call ≠ .getMtdDevice) {s : ThreadState T}
    (hrun : (threadSystem T).run (idleThreads T dev) es = some s) (hend : EndsClosed s) :
    Rested dev.backingMtd s.shared := by
  have hinit : PastInv dev.backingMtd (idleThreads T dev) :=
    ⟨flagInv_init (init_idleThreads h), rfl, fun _ => rfl, h.useRefcnt⟩
  have hpast : PastInv dev.backingMtd s :=
    TransitionSystem.run_invariant (A := fun e : T × Event => e.2.call ≠ .getMtdDevice)
      (fun _ _ _ hs hcall hstep => pastInv_step hs hcall hstep) es hinit hes hrun
  refine ⟨hpast.backingMtd, hend.alreadyOpen, hpast.useRefcnt, ?_⟩
  -- A set flag would belong to a respawn under way.
  rw [Bool.eq_false_iff]
  intro hset
  obtain ⟨t, ht⟩ := hpast.flag.flag.mp hset
  rw [hend.idle t] at ht
  cases ht

end

/-! ### Isolation -/

/-- **Sessions are isolated from each other.**  After any two pasts that end with the device
closed, a session gets the same answers; over any interleaving two opens that succeed have a
release between them; and an open that fails with `-EBUSY` leaves the recipe alone. -/
theorem sessions_isolated {dev : MtdpartctlDevice} (h : dev.Created) (T : Type) [DecidableEq T] :
    (∀ (past₁ past₂ : List (T × Event)) (s₁ s₂ : ThreadState T),
      (∀ e ∈ past₁ ++ past₂, e.2.call ≠ .getMtdDevice) →
      (threadSystem T).run (idleThreads T dev) past₁ = some s₁ → EndsClosed s₁ →
      (threadSystem T).run (idleThreads T dev) past₂ = some s₂ → EndsClosed s₂ →
      ∀ env₁ env₂ script₁ script₂, List.Forall₂ SameCall script₁ script₂ →
        session.outputs s₁.shared ((env₁, .open) :: script₁) =
          session.outputs s₂.shared ((env₂, .open) :: script₂)) ∧
    (∀ (s : ThreadState T) (es : List (T × Event)) xs o ys o' zs,
      (threadSystem T).taken s es = xs ++ o :: (ys ++ o' :: zs) →
      OpenStep 0 o.1 o.2 → OpenStep 0 o'.1 o'.2 → ∃ r ∈ ys, ReleaseStep r.1 r.2) ∧
    (∀ (s s' : ThreadState T) (e : T × Event), (threadSystem T).step s e = some s' →
      OpenStep (neg .EBUSY) s e → s'.shared.recipe = s.shared.recipe) := by
  refine ⟨?_, ?_, ?_⟩
  · intro past₁ past₂ s₁ s₂ hpast hrun₁ hend₁ hrun₂ hend₂ env₁ env₂ script₁ script₂ hscript
    rw [List.forall_mem_append] at hpast
    exact session_outputs_eq (rested_of_past h hpast.1 hrun₁ hend₁)
      (rested_of_past h hpast.2 hrun₂ hend₂) hscript
  · intro s es xs o ys o' zs htaken ho ho'
    refine TransitionSystem.exists_between
      (P := fun s : ThreadState T => s.shared.alreadyOpen = true)
      (A := OpenStep 0) (B := ReleaseStep) (C := OpenStep 0)
      (fun _ _ _ hopen hstep => alreadyOpen_of_open hopen hstep)
      (fun _ _ _ hs hrel hstep => alreadyOpen_step hs hrel hstep) ?_ xs htaken ho ho'
    intro s e hopen hs
    rw [OpenStep, open_succeeds_iff, hs] at hopen
    exact absurd hopen.2.2 (by decide)
  · intro s s' e hstep hbusy
    rw [shared_of_busy hbusy hstep]

/-- A client that opens the device, adds a part and releases it. -/
def addingPast : List (Unit × Event) :=
  callSteps () .open 3 ++ callSteps () (.ioctl (.recipeAddPart (some oneBlockPart))) 3 ++
    callSteps () .release 0

/-- The part of the first client is not listed to the second one; its release lies between the
two opens; and a third open is refused. -/
theorem sessions_isolated_addingPast :
    (∃ s, (threadSystem Unit).run (idleThreads Unit createdDevice) addingPast = some s ∧
      s.shared.recipe.partsCount = 1 ∧
      session.outputs s.shared
          [(.succeeding, .open), (.succeeding, .ioctl (.listRecipeParts (some 1)))] =
        session.outputs createdDevice
          [(.succeeding, .open), (.succeeding, .ioctl (.listRecipeParts (some 1)))]) ∧
    (∃ o ys o', (threadSystem Unit).taken (idleThreads Unit createdDevice)
        (addingPast ++ callSteps () .open 0) = [] ++ o :: (ys ++ o' :: []) ∧
      ∃ r ∈ ys, ReleaseStep r.1 r.2) ∧
    (∃ s s', (threadSystem Unit).run (idleThreads Unit createdDevice)
        (callSteps () .open 3 ++ callSteps () (.ioctl (.recipeAddPart (some oneBlockPart))) 3) =
          some s ∧
      (threadSystem Unit).step s ((), event .open) = some s' ∧
      s'.shared.recipe = s.shared.recipe) := by
  have hcreated : createdDevice.Created := MtdpartctlDevice.created_create _ _
  have hpast : ∀ e ∈ addingPast ++ ([] : List (Unit × Event)), e.2.call ≠ .getMtdDevice := by
    simp [addingPast, callSteps, event]
  have hscript : List.Forall₂ SameCall
      [(Env.succeeding, DevCall.ioctl (.listRecipeParts (some 1)))]
      [(Env.succeeding, DevCall.ioctl (.listRecipeParts (some 1)))] :=
    .cons ⟨rfl, trivial, rfl, rfl, rfl⟩ .nil
  refine ⟨⟨_, rfl, rfl, ?_⟩, ⟨_, [_, _, _, _, _, _, _, _], _, rfl, ?_⟩, ⟨_, _, rfl, rfl, ?_⟩⟩
  · exact (sessions_isolated hcreated Unit).1 addingPast [] _ _ hpast rfl
      ⟨fun _ => rfl, rfl⟩ rfl ⟨fun _ => rfl, rfl⟩ _ _ _ _ hscript
  · refine (sessions_isolated hcreated Unit).2.1 (idleThreads Unit createdDevice)
      (addingPast ++ callSteps () .open 0) [] _ _ _ [] rfl ?_ ?_
    · exact ⟨rfl, rfl, rfl⟩
    · exact ⟨rfl, rfl, rfl⟩
  · refine (sessions_isolated hcreated Unit).2.2 _ _ ((), event .open) rfl ?_
    exact ⟨rfl, rfl, rfl⟩

end Mtdpartikr
