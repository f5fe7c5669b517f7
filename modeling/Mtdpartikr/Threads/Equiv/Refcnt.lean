import Mtdpartikr.Threads.Equiv.Step

/-!
# The use count of the proxy MTD

`use_refcnt` is an `int`, so it counts the outstanding references as long as there are at most
`INT_MAX` of them.  In such runs (`refcnt_reach`) the count is exact, the `BUG_ON`s on it do not
fire, and a respawn that passed its test keeps the proxy to itself until it clears the flag:
nobody holds a reference, no other respawn is on, and no immediate edit is in the MTD core.
`refcnt_wraps`: with one reference more the count is negative.
-/

namespace Mtdpartikr

open Threads (Instr Moves LockInv count)

/-! ### Points of interest -/

/-- A reference is outstanding: granted by `_get_device` and not yet given back. -/
def holdsRef : Pc → Bool
  | .holding | .hookTable .put | .hookLock .put _ | .hookBody .put _ => true
  | .hookUnlock _ held | .hookLeave held => held
  | _ => false

/-- In a respawn that passed its test on `use_refcnt`, up to clearing the flag. -/
def tested : Pc → Bool
  | .unregTable _ | .unregCore _ | .unregLeave _ _ | .regTable _ | .regCore _ | .regLeave => true
  | .clearLock tested | .clearFlag tested => tested
  | _ => false

/-- Inside `mtd_add_partition` or `mtd_del_partition`. -/
def editing : Pc → Bool
  | .editTable _ | .editCore _ | .editLeave => true
  | _ => false

theorem flagged_of_tested {pc : Pc} (h : tested pc = true) : flagged pc = true := by
  cases pc <;> first | rfl | cases h

theorem sawClear_of_editing {pc : Pc} (h : editing pc = true) : sawClear pc = true := by
  cases pc <;> first | rfl | cases h

theorem refs_of_isEntry {c : Pc} (h : isEntry c = true) :
    holdsRef c = false ∧ tested c = false ∧ editing c = false := by
  unfold isEntry at h
  split at h
  all_goals first | (cases h; done) | exact ⟨rfl, rfl, rfl⟩

theorem refs_of_lock {pc c : Pc} {l : Lock} (h : driver.code pc = .lock l c) :
    holdsRef c = holdsRef pc ∧ tested c = tested pc ∧ editing c = editing pc := by
  cases pc with
  | hookTable hook | hookLock hook _ => cases hook <;> cases h <;> exact ⟨rfl, rfl, rfl⟩
  | _ => cases h <;> exact ⟨rfl, rfl, rfl⟩

theorem refs_of_unlock {pc c : Pc} {l : Lock} (h : driver.code pc = .unlock l c) :
    holdsRef c = holdsRef pc ∧ tested c = tested pc ∧ (editing c = true → editing pc = true) := by
  cases pc with
  | hookUnlock underTable held =>
    cases h
    cases underTable <;> cases held <;> exact ⟨rfl, rfl, fun he => (nomatch he)⟩
  | hookLeave held => cases h; cases held <;> exact ⟨rfl, rfl, fun he => (nomatch he)⟩
  | unregLeave args done => cases h; cases done <;> exact ⟨rfl, rfl, fun he => (nomatch he)⟩
  | _ => cases h <;> exact ⟨rfl, rfl, fun he => (nomatch he)⟩

/-- What an action does to the count: nothing, or it grants or takes back a reference. -/
theorem Acts.refcnt_cases {e : Event} {dev dev' : MtdpartctlDevice} {pc c : Pc}
    (h : Acts e dev pc dev' c) :
    (dev'.proxy.useRefcnt = dev.proxy.useRefcnt ∧ holdsRef c = holdsRef pc ∧
      (tested c = true → tested pc = true ∨ dev.proxy.useRefcnt = 0) ∧
      (editing c = true → editing pc = true ∨ dev.proxy.useRefcnt = 0)) ∨
    (tested c = false ∧ editing c = false ∧
      ((∃ underTable, pc = .hookBody .get underTable) ∧ dev.proxy.aboutToRespawn = false ∧
        dev'.proxy.useRefcnt = dev.proxy.useRefcnt + 1 ∧ holdsRef c = true ∨
      (∃ underTable, pc = .hookBody .put underTable) ∧ dev.proxy.useRefcnt ≠ 0 ∧
        dev'.proxy.useRefcnt = dev.proxy.useRefcnt - 1 ∧ holdsRef c = false)) := by
  cases h with
  | call _ hproxy hentry =>
    obtain ⟨href, htested, hedit⟩ := refs_of_isEntry hentry
    refine Or.inl ⟨by rw [hproxy], href, fun ht => ?_, fun he => ?_⟩
    · rw [htested] at ht; cases ht
    · rw [hedit] at he; cases he
  | put =>
    unfold hookEntry
    split_ifs <;> exact Or.inl ⟨rfl, rfl, fun ht => (nomatch ht), fun he => (nomatch he)⟩
  | granted hflag => exact Or.inr ⟨rfl, rfl, Or.inl ⟨⟨_, rfl⟩, hflag, rfl, rfl⟩⟩
  | dropped hne => exact Or.inr ⟨rfl, rfl, Or.inr ⟨⟨_, rfl⟩, hne, rfl, rfl⟩⟩
  | recipe _ hproxy =>
    exact Or.inl ⟨by rw [hproxy], rfl, fun ht => (nomatch ht), fun he => (nomatch he)⟩
  | editPassed _ _ hzero => exact Or.inl ⟨rfl, rfl, fun ht => (nomatch ht), fun _ => Or.inr hzero⟩
  | testPassed hzero => exact Or.inl ⟨rfl, rfl, fun _ => Or.inr hzero, fun he => (nomatch he)⟩
  | editCore => exact Or.inl ⟨rfl, rfl, fun ht => (nomatch ht), fun _ => Or.inl rfl⟩
  | unregFailed _ | unregDone _ | regCore =>
    exact Or.inl ⟨rfl, rfl, fun _ => Or.inl rfl, fun he => (nomatch he)⟩
  | _ => exact Or.inl ⟨rfl, rfl, fun ht => (nomatch ht), fun he => (nomatch he)⟩

/-! ### The count as an integer -/

theorem toInt_add_one {n : Int32} (h : n.toInt < 2 ^ 31 - 1) : (n + 1).toInt = n.toInt + 1 := by
  have hle := n.le_toInt
  rw [Int32.toInt_add, Int32.toInt_one, Int.bmod_eq_of_le] <;> omega

theorem toInt_sub_one {n : Int32} (h : 0 < n.toInt) : (n - 1).toInt = n.toInt - 1 := by
  have hlt := n.toInt_lt
  rw [Int32.toInt_sub, Int32.toInt_one, Int.bmod_eq_of_le] <;> omega

theorem eq_zero_iff_toInt {n : Int32} : n = 0 ↔ n.toInt = 0 := by
  rw [← Int32.toInt_inj, Int32.toInt_zero]

/-! ### The invariant -/

section

variable {T : Type*} [Fintype T]

/-- The count is exact, and zero while a respawn or an immediate edit relies on it. -/
structure RefcntInv (s : ThreadState T) : Prop where
  flag : FlagInv s
  count : s.shared.proxy.useRefcnt.toInt = count holdsRef s.pc
  tested : ∀ t, tested (s.pc t) = true → s.shared.proxy.useRefcnt = 0
  editing : ∀ t, editing (s.pc t) = true → s.shared.proxy.useRefcnt = 0

/-- While the count is not zero nobody relies on it. -/
theorem RefcntInv.not_tested {s : ThreadState T} (h : RefcntInv s)
    (hne : s.shared.proxy.useRefcnt ≠ 0) (t : T) :
    Mtdpartikr.tested (s.pc t) = false ∧ Mtdpartikr.editing (s.pc t) = false :=
  ⟨Bool.eq_false_iff.mpr fun ht => hne (h.tested t ht),
    Bool.eq_false_iff.mpr fun he => hne (h.editing t he)⟩

/-- A reference is granted only while fewer than `INT_MAX` are outstanding: a `_get_device` that
does not find the flag set. -/
def RefsBelowMax (s : ThreadState T) (e : T × Event) : Prop :=
  (∃ underTable, s.pc e.1 = .hookBody .get underTable) →
    s.shared.proxy.aboutToRespawn = false → count holdsRef s.pc < 2 ^ 31 - 1

/-- Fewer threads than that cannot hold too many references. -/
theorem refsBelowMax_of_card (h : Fintype.card T < 2 ^ 31 - 1) (s : ThreadState T)
    (e : T × Event) : RefsBelowMax s e := by
  intro _ _
  exact (Threads.count_le_card holdsRef s.pc).trans_lt h

variable [DecidableEq T]

theorem refcntInv_init {s : ThreadState T} (h : (threadSystem T).init s) : RefcntInv s where
  flag := flagInv_init h
  count := by
    have hnone : ∀ t, holdsRef (s.pc t) = false := fun t => by rw [h.2.2 t]; rfl
    rw [Threads.count_eq_zero hnone, h.1.useRefcnt]
    rfl
  tested t ht := by rw [h.2.2 t] at ht; cases ht
  editing t ht := by rw [h.2.2 t] at ht; cases ht

/-- **Every step keeps the count exact.** -/
theorem refcntInv_step {s s' : ThreadState T} {t : T} {e : Event} (hinv : RefcntInv s)
    (hok : RefsBelowMax s (t, e)) (h : Moves driver s t e s') : RefcntInv s' := by
  have hflag := flagInv_step hinv.flag h
  cases h with
  | @act f dev' c hcode hf =>
    have hcount := Threads.count_update holdsRef s.pc t c
    rcases (acts_of_code hcode hf).refcnt_cases with ⟨hn, href, htested, hedit⟩ |
      ⟨htested, hedit, ⟨⟨underTable, hpc⟩, hclear, hn, href⟩ | ⟨⟨underTable, hpc⟩, hne, hn, href⟩⟩
    · refine ⟨hflag, ?_, fun u hu => ?_, fun u hu => ?_⟩
      · simp only [hn, hinv.count, Threads.count_update_of_eq href]
      · simp only [hn]
        rcases Threads.of_update (p := Mtdpartikr.tested) hu with ⟨rfl, hu'⟩ | ⟨_, hu⟩
        · exact (htested hu').elim (hinv.tested u) id
        · exact hinv.tested u hu
      · simp only [hn]
        rcases Threads.of_update (p := Mtdpartikr.editing) hu with ⟨rfl, hu'⟩ | ⟨_, hu⟩
        · exact (hedit hu').elim (hinv.editing u) id
        · exact hinv.editing u hu
    · -- Granting: the flag is clear, and `proxy.lock` is taken.
      have hmax := hok ⟨underTable, hpc⟩ hclear
      have hold : holdsRef (s.pc t) = false := by rw [hpc]; rfl
      rw [href, hold] at hcount
      refine ⟨hflag, ?_, fun u hu => ?_, fun u hu => ?_⟩
      · simp only [hn]
        rw [toInt_add_one (by rw [hinv.count]; omega), hinv.count]
        simp only [Bool.toNat_false, Bool.toNat_true] at hcount
        omega
      · rcases Threads.of_update (p := Mtdpartikr.tested) hu with ⟨rfl, hu'⟩ | ⟨_, hu⟩
        · rw [htested] at hu'; cases hu'
        · have hset := hinv.flag.flag.mpr ⟨u, flagged_of_tested hu⟩
          rw [hclear] at hset
          cases hset
      · rcases Threads.of_update (p := Mtdpartikr.editing) hu with ⟨rfl, hu'⟩ | ⟨hut, hu⟩
        · rw [hedit] at hu'; cases hu'
        · have hproxy : Lock.proxy ∈ locks (s.pc t) := by
            rw [hpc]
            cases underTable <;> decide
          exact absurd (hinv.flag.unique (proxy_mem_locks (sawClear_of_editing hu)) hproxy) hut
    · -- Giving back: the count was not zero, so nobody relied on it.
      have hold : holdsRef (s.pc t) = true := by rw [hpc]; rfl
      rw [href, hold] at hcount
      simp only [Bool.toNat_false, Bool.toNat_true] at hcount
      refine ⟨hflag, ?_, fun u hu => ?_, fun u hu => ?_⟩
      · simp only [hn]
        rw [toInt_sub_one (by rw [hinv.count]; omega), hinv.count]
        omega
      · rcases Threads.of_update (p := Mtdpartikr.tested) hu with ⟨rfl, hu'⟩ | ⟨_, hu⟩
        · rw [htested] at hu'; cases hu'
        · rw [(hinv.not_tested hne u).1] at hu; cases hu
      · rcases Threads.of_update (p := Mtdpartikr.editing) hu with ⟨rfl, hu'⟩ | ⟨_, hu⟩
        · rw [hedit] at hu'; cases hu'
        · rw [(hinv.not_tested hne u).2] at hu; cases hu
  | lock hcode _ =>
    obtain ⟨href, htested, hedit⟩ := refs_of_lock hcode
    refine ⟨hflag, ?_, fun u hu => hinv.tested u ?_, fun u hu => hinv.editing u ?_⟩
    · simp only [hinv.count, Threads.count_update_of_eq href]
    · rwa [Threads.obs_update htested] at hu
    · rwa [Threads.obs_update hedit] at hu
  | unlock hcode =>
    obtain ⟨href, htested, hedit⟩ := refs_of_unlock hcode
    refine ⟨hflag, ?_, fun u hu => hinv.tested u ?_, fun u hu => ?_⟩
    · simp only [hinv.count, Threads.count_update_of_eq href]
    · rwa [Threads.obs_update htested] at hu
    · rcases Threads.of_update (p := Mtdpartikr.editing) hu with ⟨rfl, hu'⟩ | ⟨_, hu⟩
      · exact hinv.editing u (hedit hu')
      · exact hinv.editing u hu

theorem Reach.refcntInv {s : ThreadState T} (h : (threadSystem T).Reach RefsBelowMax s) :
    RefcntInv s := by
  refine TransitionSystem.Reach.invariant (P := RefcntInv) (fun _ hs => refcntInv_init hs) ?_ h
  intro s e s' hinv hok hstep
  exact refcntInv_step (t := e.1) (e := e.2) hinv hok (Threads.moves_of_step hstep)

/-- **The use count under any interleaving.**  As long as at most `INT_MAX` references are
outstanding: `use_refcnt` is their number, and the `BUG_ON`s on it do not fire; the flag is set
only inside a respawn; from its test to the clearing of the flag a respawn has a count of zero, no
other thread has `recipe.lock`, and none is in `mtd_add_partition` or `mtd_del_partition`; and
these are only called with a count of zero. -/
theorem refcnt_reach {s : ThreadState T} (h : (threadSystem T).Reach RefsBelowMax s) :
    s.shared.proxy.useRefcnt.toInt = count holdsRef s.pc ∧
    0 ≤ s.shared.proxy.useRefcnt ∧
    (∀ t underTable, s.pc t = .hookBody .put underTable →
      proxyMtdPutDevice s.shared.proxy ≠ .error .zeroRefcnt) ∧
    (s.shared.proxy.aboutToRespawn = true → ∃ t, flagged (s.pc t) = true) ∧
    (∀ t, tested (s.pc t) = true →
      s.shared.proxy.useRefcnt = 0 ∧ s.shared.proxy.aboutToRespawn = true ∧
      (∀ u, Lock.recipe ∈ locks (s.pc u) → u = t) ∧ ∀ u, editing (s.pc u) = false) ∧
    (∀ t, editing (s.pc t) = true → s.shared.proxy.useRefcnt = 0) := by
  have hinv := Reach.refcntInv h
  refine ⟨hinv.count, ?_, ?_, hinv.flag.flag.mp, fun t ht => ?_, hinv.editing⟩
  · rw [Int32.le_iff_toInt_le, hinv.count, Int32.toInt_zero]
    exact Int.natCast_nonneg _
  · -- The thread that gives a reference back is itself counted.
    intro t underTable hpc hbug
    have hpos : 0 < count holdsRef s.pc := Threads.count_pos (t := t) (by rw [hpc]; rfl)
    have hne : s.shared.proxy.useRefcnt ≠ 0 := by
      rw [Ne, eq_zero_iff_toInt, hinv.count]
      omega
    unfold proxyMtdPutDevice at hbug
    rw [if_neg hne] at hbug
    cases hbug
  · have hset := hinv.flag.flag.mpr ⟨t, flagged_of_tested ht⟩
    refine ⟨hinv.tested t ht, hset, fun u hu => ?_, fun u => ?_⟩
    · exact hinv.flag.unique hu (recipe_mem_locks (flagged_of_tested ht))
    · rw [Bool.eq_false_iff]
      intro hu
      have hclear := hinv.flag.sawClear u (sawClear_of_editing hu)
      rw [hset] at hclear
      cases hclear

end

/-! ### One reference too many -/

section

variable {T : Type*} [DecidableEq T]

/-- An event in which an idle thread gets a reference without `mtd_table_mutex`. -/
def getEvent : Event := ⟨.getMtdDevice, false, .succeeding⟩

/-- An idle thread gets a reference in four steps when nothing is in its way. -/
theorem run_get {s : ThreadState T} {t : T} (hidle : s.pc t = .idle)
    (hfree : s.owner .proxy = none) (hclear : s.shared.proxy.aboutToRespawn = false) :
    (threadSystem T).run s (List.replicate 4 (t, getEvent)) =
      some ⟨withRefcnt s.shared (s.shared.proxy.useRefcnt + 1), s.owner,
        Function.update s.pc t .holding⟩ := by
  have hstart : Threads.step driver s (t, getEvent) =
      some ⟨s.shared, s.owner, Function.update s.pc t (.hookLock .get false)⟩ := by
    simp only [Threads.step, hidle]
    rfl
  have hlock : Threads.step driver
      ⟨s.shared, s.owner, Function.update s.pc t (.hookLock .get false)⟩ (t, getEvent) =
        some ⟨s.shared, Function.update s.owner .proxy (some t),
          Function.update s.pc t (.hookBody .get false)⟩ := by
    simp [Threads.step, driver, code, hfree]
  have hbody : Threads.step driver ⟨s.shared, Function.update s.owner .proxy (some t),
      Function.update s.pc t (.hookBody .get false)⟩ (t, getEvent) =
        some ⟨withRefcnt s.shared (s.shared.proxy.useRefcnt + 1),
          Function.update s.owner .proxy (some t),
          Function.update s.pc t (.hookUnlock false true)⟩ := by
    simp [Threads.step, driver, code, tryAct, hookSection, proxyMtdGetDevice, hclear,
      withRefcnt, Except.toOption, pure, Except.pure]
  have hunlock : Threads.step driver ⟨withRefcnt s.shared (s.shared.proxy.useRefcnt + 1),
      Function.update s.owner .proxy (some t),
      Function.update s.pc t (.hookUnlock false true)⟩ (t, getEvent) =
        some ⟨withRefcnt s.shared (s.shared.proxy.useRefcnt + 1), s.owner,
          Function.update s.pc t .holding⟩ := by
    simp [Threads.step, driver, code, ← hfree]
  show (threadSystem T).run s [_, _, _, _] = _
  simp only [TransitionSystem.run, threadSystem, Threads.system, hstart, hlock, hbody, hunlock,
    Option.bind_some]

/-- The first `n` threads have got a reference. -/
def holders (N n : ℕ) : ThreadState (Fin N) where
  shared := withRefcnt createdDevice (Int32.ofNat n)
  owner := fun _ => none
  pc := fun t => if t.val < n then .holding else .idle

/-- Any number of threads can hold references at once. -/
theorem reach_holders (N : ℕ) : ∀ n, n ≤ N →
    (threadSystem (Fin N)).Reach (fun _ _ => True) (holders N n) := by
  intro n
  induction n with
  | zero =>
    intro _
    exact .init (init_idleThreads (MtdpartctlDevice.created_create _ _))
  | succ n ih =>
    intro hn
    have hrun := run_get (s := holders N n) (t := ⟨n, hn⟩) (by simp [holders]) rfl rfl
    have hnext : (⟨withRefcnt (holders N n).shared ((holders N n).shared.proxy.useRefcnt + 1),
        (holders N n).owner, Function.update (holders N n).pc ⟨n, hn⟩ .holding⟩ :
          ThreadState (Fin N)) = holders N (n + 1) := by
      have hpc : Function.update (holders N n).pc ⟨n, hn⟩ .holding = (holders N (n + 1)).pc := by
        funext t
        by_cases ht : t = ⟨n, hn⟩
        · subst ht
          simp [holders]
        · have hne : t.val ≠ n := fun h => ht (Fin.ext h)
          rw [Function.update_of_ne ht]
          simp only [holders]
          by_cases hlt : t.val < n
          · rw [if_pos hlt, if_pos (by omega)]
          · rw [if_neg hlt, if_neg (by omega)]
      rw [hpc]
      simp [holders, withRefcnt]
    rw [hnext] at hrun
    exact TransitionSystem.Reach.of_run _ (fun _ _ => trivial) (ih (by omega)) hrun

/-- One of two users has a reference; and a `DELETE` that passed its test turns the other thread's
`_get_device` away and keeps `recipe.lock` to itself. -/
theorem refcnt_reach_tested :
    (holders 2 1).shared.proxy.useRefcnt.toInt = count holdsRef (holders 2 1).pc ∧
    ∃ s, (threadSystem (Fin 2)).run (idleThreads (Fin 2) createdDevice)
        (callSteps 0 .open 3 ++ callSteps 0 (.ioctl .deleteMtdPartitions) 6 ++
          callSteps 1 .getMtdDevice 5) = some s ∧
      tested (s.pc 0) = true ∧ s.pc 1 = .idle ∧
      s.shared.proxy.useRefcnt = 0 ∧ s.shared.proxy.aboutToRespawn = true ∧
      (∀ u, Lock.recipe ∈ locks (s.pc u) → u = 0) ∧ ∀ u, editing (s.pc u) = false := by
  have hbelow := refsBelowMax_of_card (T := Fin 2) (by decide)
  have hheld : (threadSystem (Fin 2)).Reach RefsBelowMax (holders 2 1) :=
    (reach_holders 2 1 (by omega)).mono fun s e _ => hbelow s e
  refine ⟨(refcnt_reach hheld).1, _, rfl, rfl, rfl, ?_⟩
  have hreach : (threadSystem (Fin 2)).Reach RefsBelowMax _ := TransitionSystem.Reach.of_run
    (callSteps 0 .open 3 ++ callSteps 0 (.ioctl .deleteMtdPartitions) 6 ++
      callSteps 1 .getMtdDevice 5) (fun x _ => hbelow x.1 x.2)
    (.init (init_idleThreads (MtdpartctlDevice.created_create ⟨0, 0x1000, 0x1000⟩ 1))) rfl
  exact (refcnt_reach hreach).2.2.2.2.1 0 rfl

/-- With `2 ^ 31` references outstanding the count has wrapped to a negative number. -/
theorem refcnt_wraps :
    ∃ s : ThreadState (Fin (2 ^ 31)), (threadSystem (Fin (2 ^ 31))).Reach (fun _ _ => True) s ∧
      count holdsRef s.pc = 2 ^ 31 ∧ s.shared.proxy.useRefcnt < 0 := by
  refine ⟨holders (2 ^ 31) (2 ^ 31), reach_holders _ _ le_rfl, ?_, by decide⟩
  have hall : ∀ t, holdsRef ((holders (2 ^ 31) (2 ^ 31)).pc t) = true := by
    intro t
    simp only [holders, t.isLt, if_true]
    rfl
  rw [count, Finset.filter_true_of_mem fun t _ => hall t, Finset.card_univ, Fintype.card_fin]

end

end Mtdpartikr
