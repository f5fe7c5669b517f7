import Mtdpartikr.Threads.Equiv.Step

/-!
# Reading the proxy MTD during a respawn

`GET_INFO` and `GET_PARTITION_LIST` read the proxy MTD under `proxy.lock`, which a respawn does
not hold while it unregisters and registers.  `GET_PARTITION_LIST` also checks the respawn flag.

`readers_run_iff`: in a run no thread reads between the `mtd_device_unregister` and the
`mtd_device_parse_register` of a respawn exactly when none of its steps brings a `GET_INFO`
together with that span; and when no registration fails either, the proxy is registered at
every read.
-/

namespace Mtdpartikr

open Threads (Instr Moves LockInv Coexist)

/-! ### The span of a respawn without a proxy MTD -/

/-- `GET_INFO` at its reads. -/
def infoReads : Pc → Bool
  | .infoRead => true
  | _ => false

/-- `GET_PARTITION_LIST` at its reads. -/
def partsReads : Pc → Bool
  | .partsCopy => true
  | _ => false

/-- Between a successful `mtd_device_unregister` and the end of `mtd_device_parse_register`. -/
def between : Pc → Bool
  | .unregLeave _ done => done
  | .regTable _ | .regCore _ => true
  | _ => false

/-- A respawn about to call `mtd_device_unregister`. -/
def unregisters : Pc → Bool
  | .unregCore _ => true
  | _ => false

theorem infoReads_iff {pc : Pc} : infoReads pc = true ↔ pc = .infoRead := by
  cases pc <;> simp [infoReads]

theorem partsReads_iff {pc : Pc} : partsReads pc = true ↔ pc = .partsCopy := by
  cases pc <;> simp [partsReads]

theorem flagged_of_between {pc : Pc} (h : between pc = true) : flagged pc = true := by
  cases pc <;> first | rfl | cases h

theorem reads_of_isEntry {c : Pc} (h : isEntry c = true) :
    infoReads c = false ∧ between c = false := by
  unfold isEntry at h
  split at h
  all_goals first | (cases h; done) | exact ⟨rfl, rfl⟩

theorem between_of_lock {pc c : Pc} {l : Lock} (h : driver.code pc = .lock l c) :
    between c = between pc := by
  cases pc <;> cases h <;> rfl

theorem between_of_unlock {pc c : Pc} {l : Lock} (h : driver.code pc = .unlock l c) :
    between c = between pc := by
  cases pc with
  | unregLeave args done => cases h; cases done <;> rfl
  | _ => cases h <;> first | rfl | (split_ifs <;> rfl)

section

variable {e : Event} {dev : MtdpartctlDevice} {pc c : Pc}

/-- `GET_INFO` comes to its reads by taking `proxy.lock`. -/
theorem goes_infoReads (h : Goes e dev pc c) : infoReads c = true ↔ pc = .infoLock := by
  constructor
  · intro hc
    cases h with
    | act hacts =>
      cases hacts with
      | call _ _ hentry => rw [(reads_of_isEntry hentry).1] at hc; cases hc
      | put => unfold hookEntry at hc; split_ifs at hc <;> cases hc
      | _ => cases hc
    | lock hcode => cases pc <;> cases hcode <;> first | rfl | cases hc
    | unlock hcode =>
      cases pc <;> cases hcode <;> first | cases hc | (split_ifs at hc <;> cases hc)
  · rintro rfl
    cases h with
    | act hacts => cases hacts
    | lock hcode => cases hcode; rfl
    | unlock hcode => cases hcode

/-- A respawn comes into the span by a successful `mtd_device_unregister`. -/
theorem goes_between (h : Goes e dev pc c) (hc : between c = true) :
    between pc = true ∨ (∃ args, pc = .unregCore args) ∧
      0 ≤ (e.env.core.mtdDeviceUnregister dev.proxy.mtd).1 := by
  cases h with
  | act hacts =>
    cases hacts with
    | call _ _ hentry => rw [(reads_of_isEntry hentry).2] at hc; cases hc
    | put => unfold hookEntry at hc; split_ifs at hc <;> cases hc
    | unregDone hret => exact Or.inr ⟨⟨_, rfl⟩, hret⟩
    | _ => cases hc
  | lock hcode => rw [between_of_lock hcode] at hc; exact Or.inl hc
  | unlock hcode => rw [between_of_unlock hcode] at hc; exact Or.inl hc

theorem between_of_goes {args : RespawnArgs} (h : Goes e dev (.unregCore args) c)
    (hret : 0 ≤ (e.env.core.mtdDeviceUnregister dev.proxy.mtd).1) : between c = true := by
  cases h with
  | act hacts =>
    cases hacts with
    | unregFailed hneg => exact absurd hneg (Int.not_lt.mpr hret)
    | unregDone _ => rfl
  | lock hcode => cases hcode
  | unlock hcode => cases hcode

end

section

variable {T : Type*}

/-- No thread is at a read of the proxy MTD while a respawn is in the span. -/
def ReadsApart (s : ThreadState T) : Prop :=
  ∀ t, infoReads (s.pc t) = true ∨ partsReads (s.pc t) = true →
    ¬ ∃ u, between (s.pc u) = true

/-- `GET_PARTITION_LIST` is never at its reads in the span. -/
theorem FlagInv.partsReads {s : ThreadState T} (h : FlagInv s) {t : T}
    (ht : partsReads (s.pc t) = true) : ¬ ∃ u, between (s.pc u) = true := by
  rintro ⟨u, hu⟩
  have hclear := h.sawClear t (by rw [partsReads_iff.mp ht]; rfl)
  rw [h.flag.mpr ⟨u, flagged_of_between hu⟩] at hclear
  cases hclear

theorem readsApart_iff {s : ThreadState T} (h : FlagInv s) :
    ReadsApart s ↔ ¬ Coexist infoReads between s.pc := by
  constructor
  · rintro hapart ⟨⟨t, ht⟩, hbetween⟩
    exact hapart t (Or.inl ht) hbetween
  · intro hno t ht hbetween
    rcases ht with ht | ht
    · exact hno ⟨⟨t, ht⟩, hbetween⟩
    · exact h.partsReads ht hbetween

variable [DecidableEq T]

/-- The step brings a `GET_INFO` together with the span of a respawn. -/
def InfoMeetsRespawn (s : ThreadState T) (e : T × Event) : Prop :=
  (s.pc e.1 = .infoLock ∧ ∃ u, between (s.pc u) = true) ∨
  ((∃ args, s.pc e.1 = .unregCore args) ∧
    0 ≤ (e.2.env.core.mtdDeviceUnregister s.shared.proxy.mtd).1 ∧ ∃ u, s.pc u = .infoRead)

/-- The step is a `mtd_device_parse_register` that fails. -/
def RegisterFails (s : ThreadState T) (e : T × Event) : Prop :=
  ∃ args, s.pc e.1 = .regCore args ∧
    (e.2.env.core.mtdDeviceParseRegister s.shared.proxy.mtd args.partitions
      args.partitionsCount).1 < 0

/-- One step keeps the reads apart exactly when it does not bring the two together. -/
theorem readsApart_step {s s' : ThreadState T} {t : T} {e : Event} (hinv : FlagInv s)
    (hapart : ReadsApart s) (h : Moves driver s t e s') :
    ReadsApart s' ↔ ¬ InfoMeetsRespawn s (t, e) := by
  obtain ⟨c, hpc, hgoes⟩ := goes_of_moves h
  rw [readsApart_iff hinv] at hapart
  rw [readsApart_iff (flagInv_step hinv h), hpc, Threads.coexist_update ?_ hapart,
    goes_infoReads hgoes, not_iff_not]
  · constructor
    · rintro (⟨hlock, u, _, hu⟩ | ⟨hc, u, hne, hu⟩)
      · exact Or.inl ⟨hlock, u, hu⟩
      · rcases goes_between hgoes hc with hbetween | ⟨hunreg, hret⟩
        · exact absurd ⟨⟨u, hu⟩, t, hbetween⟩ hapart
        · exact Or.inr ⟨hunreg, hret, u, infoReads_iff.mp hu⟩
    · rintro (⟨hlock, u, hu⟩ | ⟨⟨args, hunreg⟩, hret, u, hu⟩)
      · refine Or.inl ⟨hlock, u, ?_, hu⟩
        rintro rfl
        simp only at hlock
        rw [hlock] at hu
        cases hu
      · simp only at hunreg hret
        rw [hunreg] at hgoes
        refine Or.inr ⟨between_of_goes hgoes hret, u, ?_, infoReads_iff.mpr hu⟩
        rintro rfl
        rw [hunreg] at hu
        cases hu
  · intro pc hread
    rw [infoReads_iff.mp hread]
    rfl

end

/-! ### Registration -/

/-- The call an immediate edit has decided on is one of its own two. -/
def editCallOk : Pc → Bool
  | .editTable call | .editCore call => match call with
    | .mtdAddPartition _ _ _ | .mtdDelPartition _ => true
    | .mtdDeviceUnregister | .mtdDeviceParseRegister _ _ => false
  | _ => true

theorem editCallOk_of_isEntry {c : Pc} (h : isEntry c = true) : editCallOk c = true := by
  unfold isEntry at h
  split at h
  all_goals first | (cases h; done) | rfl

theorem editCallOk_editTest (edit : ImmediateEdit) (dev : MtdpartctlDevice) :
    editCallOk (editTest edit dev) = true := by
  unfold editTest
  split_ifs
  · rfl
  · cases edit with
    | add partInfo => rfl
    | del idx =>
      unfold ImmediateEdit.coreCall
      simp only
      split_ifs <;> rfl

theorem goes_editCallOk {e : Event} {dev : MtdpartctlDevice} {pc c : Pc} (h : Goes e dev pc c)
    (hpc : editCallOk pc = true) : editCallOk c = true := by
  cases h with
  | act hacts =>
    cases hacts with
    | call _ _ hentry => exact editCallOk_of_isEntry hentry
    | put => unfold hookEntry; split_ifs <;> rfl
    | editPassed htest _ _ => rw [← htest]; exact editCallOk_editTest _ _
    | _ => rfl
  | lock hcode => cases pc <;> cases hcode <;> first | rfl | exact hpc
  | unlock hcode => cases pc <;> cases hcode <;> first | rfl | (split_ifs <;> rfl)

/-- What an action does to the registration of the proxy, if no registration fails. -/
theorem Acts.registered_cases {e : Event} {dev dev' : MtdpartctlDevice} {pc c : Pc}
    (h : Acts e dev pc dev' c) (hpc : editCallOk pc = true)
    (hreg : ∀ args, pc = .regCore args → 0 ≤ (e.env.core.mtdDeviceParseRegister dev.proxy.mtd
      args.partitions args.partitionsCount).1) :
    (dev'.proxy.mtd.registered = dev.proxy.mtd.registered ∧ between c = between pc) ∨
      dev'.proxy.mtd.registered = true ∨ between c = true := by
  cases h with
  | call _ hproxy hentry => exact Or.inl ⟨by rw [hproxy], (reads_of_isEntry hentry).2⟩
  | put => exact Or.inl ⟨rfl, by unfold hookEntry; split_ifs <;> rfl⟩
  | recipe _ hproxy => exact Or.inl ⟨by rw [hproxy], rfl⟩
  | @editCore call =>
    refine Or.inl ⟨?_, rfl⟩
    cases call with
    | mtdAddPartition nm offset length => exact e.env.core.addPartition_registered _ _ _ _
    | mtdDelPartition partno => exact e.env.core.delPartition_registered _ _
    | mtdDeviceUnregister | mtdDeviceParseRegister _ _ => cases hpc
  | unregDone _ => exact Or.inr (Or.inr rfl)
  | regCore =>
    exact Or.inr (Or.inl (e.env.core.parseRegister_done _ _ _ (hreg _ rfl)))
  | _ => exact Or.inl ⟨rfl, rfl⟩

section

variable {T : Type*}

/-- The proxy is registered, or a respawn is in the span. -/
structure RegisteredInv (s : ThreadState T) : Prop where
  edits : ∀ t, editCallOk (s.pc t) = true
  registered : s.shared.proxy.mtd.registered = true ∨ ∃ u, between (s.pc u) = true

variable [DecidableEq T]

theorem registeredInv_init {s : ThreadState T} (h : (threadSystem T).init s) :
    RegisteredInv s where
  edits t := by rw [h.2.2 t]; rfl
  registered := Or.inl h.1.registered

/-- A step that is no failed registration keeps the proxy registered outside of the span. -/
theorem registeredInv_step {s s' : ThreadState T} {t : T} {e : Event} (hinv : RegisteredInv s)
    (hok : ¬ RegisterFails s (t, e)) (h : Moves driver s t e s') : RegisteredInv s' := by
  obtain ⟨c, hpc, hgoes⟩ := goes_of_moves h
  have hedits : ∀ u, editCallOk (s'.pc u) = true := by
    intro u
    rw [hpc]
    by_cases hu : u = t
    · subst hu
      rw [Function.update_self]
      exact goes_editCallOk hgoes (hinv.edits u)
    · rw [Function.update_of_ne hu]
      exact hinv.edits u
  refine ⟨hedits, ?_⟩
  cases h with
  | act hcode hf =>
    rcases (acts_of_code hcode hf).registered_cases (hinv.edits t) (fun args hargs => by
      by_contra hneg
      exact hok ⟨args, hargs, Int.not_le.mp hneg⟩) with ⟨hreg, hbetween⟩ | hreg | hbetween
    · simp only [hreg, Threads.obs_update hbetween]
      exact hinv.registered
    · exact Or.inl hreg
    · exact Or.inr ⟨t, by simpa using hbetween⟩
  | lock hcode _ =>
    simp only [Threads.obs_update (between_of_lock hcode)]
    exact hinv.registered
  | unlock hcode =>
    simp only [Threads.obs_update (between_of_unlock hcode)]
    exact hinv.registered

/-! ### Runs -/

/-- **Reads and respawns.**  In a run no thread reads the proxy MTD between the two core calls of
a respawn exactly when no step brings a `GET_INFO` together with that span;
`GET_PARTITION_LIST` never reads there.  In such a run in which no registration fails the proxy
is registered whenever it is read. -/
theorem readers_run_iff {s : ThreadState T} (h : (threadSystem T).init s)
    (es : List (T × Event)) :
    ((∀ s' ∈ (threadSystem T).visited s es, ReadsApart s') ↔
      ∀ x ∈ (threadSystem T).taken s es, ¬ InfoMeetsRespawn x.1 x.2) ∧
    (∀ s' ∈ (threadSystem T).visited s es, ∀ t, partsReads (s'.pc t) = true →
      ¬ ∃ u, between (s'.pc u) = true) ∧
    ((∀ x ∈ (threadSystem T).taken s es, ¬ InfoMeetsRespawn x.1 x.2) →
      (∀ x ∈ (threadSystem T).taken s es, ¬ RegisterFails x.1 x.2) →
      ∀ s' ∈ (threadSystem T).visited s es, ∀ t,
        infoReads (s'.pc t) = true ∨ partsReads (s'.pc t) = true →
          s'.shared.proxy.mtd.registered = true) := by
  have hflag : ∀ s' ∈ (threadSystem T).visited s es, FlagInv s' :=
    TransitionSystem.forall_visited (A := fun _ _ => True)
      (fun s e s' hinv _ hstep => flagInv_step hinv (Threads.moves_of_step hstep)) es s
      (flagInv_init h) (fun _ _ => trivial)
  have hapart : ReadsApart s := by
    rintro t - ⟨u, hu⟩
    rw [h.2.2 u] at hu
    cases hu
  have hiff : (∀ s' ∈ (threadSystem T).visited s es, ReadsApart s') ↔
      ∀ x ∈ (threadSystem T).taken s es, ¬ InfoMeetsRespawn x.1 x.2 :=
    TransitionSystem.forall_visited_iff (I := FlagInv) (A := fun s e => ¬ InfoMeetsRespawn s e)
      (fun s e s' hinv hstep => flagInv_step hinv (Threads.moves_of_step hstep))
      (fun s e s' hinv ha hstep => readsApart_step hinv ha (Threads.moves_of_step hstep)) es s
      (flagInv_init h) hapart
  refine ⟨hiff, fun s' hs' t ht => (hflag s' hs').partsReads ht, ?_⟩
  intro hmeets hfails s' hs' t ht
  have hreg : RegisteredInv s' :=
    TransitionSystem.forall_visited (A := fun s e => ¬ RegisterFails s e)
      (fun s e s' hinv hok hstep => registeredInv_step hinv hok (Threads.moves_of_step hstep)) es s
      (registeredInv_init h) hfails s' hs'
  exact hreg.registered.resolve_right (hiff.mpr hmeets s' hs' t ht)

end

section

variable {T : Type*}

/-- What keeps a `GET_INFO` and the span of a respawn apart in one step. -/
theorem not_infoMeetsRespawn {s : ThreadState T} {e : T × Event}
    (hinfo : s.pc e.1 = .infoLock → ∀ u, between (s.pc u) = false)
    (hunreg : unregisters (s.pc e.1) = true → ∀ u, infoReads (s.pc u) = false) :
    ¬ InfoMeetsRespawn s e := by
  rintro (⟨hpc, u, hu⟩ | ⟨⟨args, hpc⟩, -, u, hu⟩)
  · have hbetween := hinfo hpc u
    rw [hu] at hbetween
    cases hbetween
  · have hreads := hunreg (by rw [hpc]; rfl) u
    rw [infoReads_iff.mpr hu] at hreads
    cases hreads

/-- The environment in which everything succeeds registers the proxy. -/
theorem not_registerFails {s : ThreadState T} {e : T × Event} (h : e.2.env = .succeeding) :
    ¬ RegisterFails s e := by
  rintro ⟨args, -, hfail⟩
  rw [h] at hfail
  cases hfail

end

/-- A `GET_INFO` in a `DELETE` that has not unregistered the proxy yet, and a
`GET_PARTITION_LIST` after it. -/
def readsAroundDelete : List (Bool × Event) :=
  callSteps false .open 3 ++ callSteps false (.ioctl .deleteMtdPartitions) 5 ++
    callSteps true (.ioctl .getInfo) 3 ++ callSteps false (.ioctl .deleteMtdPartitions) 10 ++
    callSteps true (.ioctl (.getPartitionList (some 1))) 4

/-- All of them return, and both read a registered proxy. -/
theorem readers_run_iff_delete :
    (((threadSystem Bool).run (idleThreads Bool createdDevice) readsAroundDelete).map
      fun s => (s.pc false, s.pc true)) = some (.idle, .idle) ∧
    ∀ s ∈ (threadSystem Bool).visited (idleThreads Bool createdDevice) readsAroundDelete,
      ReadsApart s ∧ ∀ t, infoReads (s.pc t) = true ∨ partsReads (s.pc t) = true →
        s.shared.proxy.mtd.registered = true := by
  have hinfo : ∀ x ∈ (threadSystem Bool).taken (idleThreads Bool createdDevice) readsAroundDelete,
      x.1.pc x.2.1 = .infoLock → ∀ u, between (x.1.pc u) = false := by
    decide
  have hunreg : ∀ x ∈ (threadSystem Bool).taken (idleThreads Bool createdDevice)
      readsAroundDelete, unregisters (x.1.pc x.2.1) = true →
        ∀ u, infoReads (x.1.pc u) = false := by
    decide
  have henv : ∀ e ∈ readsAroundDelete, e.2.env = .succeeding := by
    simp [readsAroundDelete, callSteps, event]
  have hmeets : ∀ x ∈ (threadSystem Bool).taken (idleThreads Bool createdDevice)
      readsAroundDelete, ¬ InfoMeetsRespawn x.1 x.2 := by
    intro x hx
    exact not_infoMeetsRespawn (hinfo x hx) (hunreg x hx)
  obtain ⟨hapart, -, hregistered⟩ := readers_run_iff
    (init_idleThreads (MtdpartctlDevice.created_create ⟨0, 0x1000, 0x1000⟩ 1)) readsAroundDelete
  refine ⟨rfl, fun s hs => ⟨hapart.mpr hmeets s hs, hregistered hmeets ?_ s hs⟩⟩
  intro x hx
  exact not_registerFails (henv x.2 (TransitionSystem.mem_of_mem_taken _ hx))

/-- A `GET_INFO` is at its reads after a `DELETE` has unregistered the proxy. -/
theorem readers_getInfo_delete :
    ∃ s, (threadSystem Bool).Reach (fun _ _ => True) s ∧ infoReads (s.pc true) = true ∧
      between (s.pc false) = true ∧ s.shared.proxy.mtd.registered = false ∧ ¬ ReadsApart s := by
  have hrun : (threadSystem Bool).Reach (fun _ _ => True) _ := TransitionSystem.Reach.of_run
    (callSteps false .open 3 ++ callSteps false (.ioctl .deleteMtdPartitions) 8 ++
      callSteps true (.ioctl .getInfo) 1) (fun _ _ => trivial)
    (.init (init_idleThreads (MtdpartctlDevice.created_create ⟨0, 0x1000, 0x1000⟩ 1))) rfl
  exact ⟨_, hrun, rfl, rfl, rfl, fun h => h true (Or.inl rfl) ⟨false, rfl⟩⟩

end Mtdpartikr
