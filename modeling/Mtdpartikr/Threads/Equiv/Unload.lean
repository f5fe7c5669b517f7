import Mtdpartikr.Kernel.Equiv.ProxyIo
import Mtdpartikr.Threads.Unload

/-!
# Unloading the module under references

`use_refcnt` is the number of outstanding references, up to wrapping (`useRefcnt_reach`).  They pin
the module only if it is the owner of the proxy MTD, and that it is for a NAND chip alone
(`filledProxyMtd_owner`).  So the proxies of other chips can be freed in use
(`proxy_freed_unused_iff`).
-/

namespace Mtdpartikr

open Threads (Moves count)

section

variable {T : Type} [Fintype T] [DecidableEq T]

/-! ### The count without a bound -/

/-- `use_refcnt` counts the outstanding references modulo `2 ^ 32`. -/
def CountsRefs (s : ThreadState T) : Prop :=
  s.shared.proxy.useRefcnt = Int32.ofNat (count holdsRef s.pc)

theorem countsRefs_step {s s' : ThreadState T} {t : T} {e : Event} (hinv : CountsRefs s)
    (h : Moves driver s t e s') : CountsRefs s' := by
  unfold CountsRefs at hinv ⊢
  cases h with
  | @act f dev' c hcode hf =>
    have hcount := Threads.count_update holdsRef s.pc t c
    rcases (acts_of_code hcode hf).refcnt_cases with ⟨hn, href, -⟩ |
      ⟨-, -, ⟨⟨underTable, hpc⟩, -, hn, href⟩ | ⟨⟨underTable, hpc⟩, -, hn, href⟩⟩
    · simp only [hn, hinv, Threads.count_update_of_eq href]
    · have hold : holdsRef (s.pc t) = false := by rw [hpc]; rfl
      rw [href, hold] at hcount
      have hcount' : count holdsRef (Function.update s.pc t c) = count holdsRef s.pc + 1 := hcount
      simp only [hn, hinv, hcount', Int32.ofNat_add]
      rfl
    · have hold : holdsRef (s.pc t) = true := by rw [hpc]; rfl
      rw [href, hold] at hcount
      have hcount' : count holdsRef s.pc = count holdsRef (Function.update s.pc t c) + 1 :=
        hcount.symm
      have hone : Int32.ofNat 1 = 1 := rfl
      simp only [hn, hinv, hcount', Int32.ofNat_add, hone, Int32.add_sub_cancel]
  | lock hcode _ =>
    obtain ⟨href, -⟩ := refs_of_lock hcode
    simp only [hinv, Threads.count_update_of_eq href]
  | unlock hcode =>
    obtain ⟨href, -⟩ := refs_of_unlock hcode
    simp only [hinv, Threads.count_update_of_eq href]

theorem countsRefs_init {s : ThreadState T} (h : (threadSystem T).init s) : CountsRefs s := by
  have hnone : ∀ t, holdsRef (s.pc t) = false := fun t => by rw [h.2.2 t]; rfl
  rw [CountsRefs, Threads.count_eq_zero hnone, h.1.useRefcnt]
  rfl

/-! ### The module -/

variable {σ : Type} {k : ℕ} {devno : DevT} {backing proxy : MtdDev σ}

/-- A module that is not pinned can be unloaded, and frees the proxy whatever `use_refcnt` is. -/
theorem step_unload {s : ThreadState T} (hfree : ¬ Pinned proxy.owner s) :
    (moduleSystem T k devno backing proxy).step (.loaded s) .unload =
      some (.unloaded s.shared.proxy.useRefcnt true) := by
  simp only [moduleSystem]
  rw [if_neg hfree, mtdpartctlDeviceDestroy_eq k backing _ [] [] rfl rfl]
  simp

theorem step_unload_pinned {s : ThreadState T} (hpinned : Pinned proxy.owner s) :
    (moduleSystem T k devno backing proxy).step (.loaded s) .unload = none := by
  simp only [moduleSystem]
  rw [if_pos hpinned]

/-- While the module is loaded the count is right; when it is unloaded it was not pinned. -/
def UnloadInv (owner : Option Module) : ModuleState T → Prop
  | .loaded s => CountsRefs s
  | .unloaded useRefcnt _ => ∃ s : ThreadState T, CountsRefs s ∧ ¬ Pinned owner s ∧
    useRefcnt = s.shared.proxy.useRefcnt

theorem unloadInv_step {m m' : ModuleState T} {e : ModuleEvent T}
    (hinv : UnloadInv proxy.owner m)
    (h : (moduleSystem T k devno backing proxy).step m e = some m') :
    UnloadInv proxy.owner m' := by
  cases m with
  | unloaded useRefcnt freed => cases h
  | loaded s =>
    cases e with
    | thread t e =>
      obtain ⟨s', hstep, rfl⟩ := Option.map_eq_some_iff.mp h
      exact countsRefs_step (t := t) (e := e) hinv (Threads.moves_of_step hstep)
    | unload =>
      by_cases hpinned : Pinned proxy.owner s
      · rw [step_unload_pinned hpinned] at h
        cases h
      · rw [step_unload hpinned] at h
        obtain rfl := Option.some.inj h
        exact ⟨s, hinv, hpinned, rfl⟩

theorem unloadInv_reach {m : ModuleState T}
    (h : (moduleSystem T k devno backing proxy).Reach (fun _ _ => True) m) :
    UnloadInv proxy.owner m := by
  refine h.invariant (fun m hm => ?_) fun m e m' hinv _ hstep => unloadInv_step hinv hstep
  obtain ⟨s, rfl, hs, -⟩ := hm
  exact countsRefs_init hs

/-- An MTD that the module owns is not freed in use. -/
theorem freedUnused_of_owner (howner : proxy.owner = some .thisModule) {m : ModuleState T}
    (h : (moduleSystem T k devno backing proxy).Reach (fun _ _ => True) m) :
    FreedUnused m := by
  have hinv := unloadInv_reach h
  cases m with
  | loaded s => trivial
  | unloaded useRefcnt freed =>
    intro _
    obtain ⟨s, hcounts, hpinned, rfl⟩ := hinv
    have hnone : ∀ t, holdsRef (s.pc t) = false := fun t =>
      Bool.eq_false_iff.mpr fun ht => hpinned (.inr ⟨howner, t, ht⟩)
    rw [hcounts, Threads.count_eq_zero hnone]
    rfl

/-- The threads run in the loaded module as they do on their own. -/
theorem run_loaded (es : List (T × Event)) :
    ∀ {s s' : ThreadState T}, (threadSystem T).run s es = some s' →
      (moduleSystem T k devno backing proxy).run (.loaded s)
        (es.map fun x => .thread x.1 x.2) = some (.loaded s') := by
  induction es with
  | nil =>
    intro s s' hrun
    obtain rfl := Option.some.inj hrun
    rfl
  | cons e es ih =>
    intro s s' hrun
    rw [TransitionSystem.run, Option.bind_eq_some_iff] at hrun
    obtain ⟨s₁, hstep, hrun⟩ := hrun
    have hmodule : (moduleSystem T k devno backing proxy).step (.loaded s) (.thread e.1 e.2) =
        some (.loaded s₁) := by
      show ((threadSystem T).step s e).map ModuleState.loaded = _
      rw [hstep]
      rfl
    rw [List.map_cons, TransitionSystem.run, hmodule]
    exact ih hrun

/-- **Without an owner it can be.**  A thread gets a reference, and the module is unloaded. -/
theorem run_unload_referenced (howner : proxy.owner = none) (t : T) :
    (moduleSystem T k devno backing proxy).run
        (.loaded (idleThreads T (.create backing.info (Int32.ofNat proxy.index))))
        (List.replicate 4 (.thread t getEvent) ++ [.unload]) =
      some (.unloaded 1 true) := by
  have hget : (threadSystem T).run
      (idleThreads T (.create backing.info (Int32.ofNat proxy.index)))
      (List.replicate 4 (t, getEvent)) = _ := run_get rfl rfl rfl
  have hloaded : (moduleSystem T k devno backing proxy).run _ _ = _ := run_loaded _ hget
  rw [List.map_replicate] at hloaded
  rw [TransitionSystem.run_append, hloaded, Option.bind_some, TransitionSystem.run, step_unload]
  · rfl
  · -- Nobody has the control device open, and the reference pins nothing.
    rintro (hopen | ⟨hthis, -⟩)
    · cases hopen
    · rw [howner] at hthis
      cases hthis

theorem reach_unload_referenced (howner : proxy.owner = none) (t : T) :
    (moduleSystem T k devno backing proxy).Reach (fun _ _ => True)
      (.unloaded 1 true) := by
  have hinit : (moduleSystem T k devno backing proxy).init
      (.loaded (idleThreads T (.create backing.info (Int32.ofNat proxy.index)))) :=
    ⟨_, rfl, init_idleThreads (MtdpartctlDevice.created_create _ _), rfl⟩
  exact .of_run _ (fun _ _ => trivial) (.init hinit) (run_unload_referenced howner t)

/-- **The memory of a proxy MTD is never freed in use** if and only if its backing MTD is a NAND
chip. -/
theorem proxy_freed_unused_iff [Nonempty T] (choice : IndexChoice) (env : ProxyEnv) (k : ℕ)
    (devno : DevT) (backing : MtdDev σ) (indices : List ℕ)
    (trace : List (Ledger.Event Resource)) {proxy : MtdDev σ} {kernel : KernelState}
    (h : proxyMtdCreateDevice choice env k backing ⟨false, indices, trace⟩ =
      .ok (0, some proxy, kernel)) :
    (∀ m, (moduleSystem T k devno backing proxy).Reach (fun _ _ => True) m → FreedUnused m) ↔
      backing.IsNand := by
  obtain ⟨mtd, hfilled, hproxy⟩ := filledProxyMtd_of_create choice env k backing indices trace h
  have hmtd : mtd.owner = if backing.IsNand then some .thisModule else none :=
    filledProxyMtd_owner hfilled
  have howner : proxy.owner = if backing.IsNand then some .thisModule else none := by
    rw [hproxy]
    exact hmtd
  constructor
  · intro hall
    by_contra hnand
    rw [if_neg hnand] at howner
    obtain ⟨t⟩ := ‹Nonempty T›
    have hzero : (1 : Int32) = 0 :=
      hall _ (reach_unload_referenced howner t) rfl
    cases hzero
  · intro hnand m hm
    rw [if_pos hnand] at howner
    exact freedUnused_of_owner howner hm

end

/-- The proxy of a NAND chip is never freed in use. -/
theorem proxy_freed_unused_nand :
    ∃ proxy kernel, proxyMtdCreateDevice nextIndex ⟨true, none, none⟩ 0 nandChip
        ⟨false, [0], []⟩ = .ok (0, some proxy, kernel) ∧
      ∀ m, (moduleSystem (Fin 2) 0 0 nandChip proxy).Reach (fun _ _ => True) m →
        FreedUnused m := by
  obtain ⟨proxy, kernel, hcreate⟩ : ∃ proxy kernel, proxyMtdCreateDevice nextIndex
      ⟨true, none, none⟩ 0 nandChip ⟨false, [0], []⟩ = .ok (0, some proxy, kernel) := ⟨_, _, rfl⟩
  refine ⟨proxy, kernel, hcreate, ?_⟩
  exact (proxy_freed_unused_iff (T := Fin 2) nextIndex ⟨true, none, none⟩ 0 0 nandChip [0] []
    hcreate).mpr (by decide)

/-- A user of the proxy of a NOR chip is left with freed memory. -/
theorem proxy_freed_used_nor :
    ∃ proxy kernel, proxyMtdCreateDevice nextIndex ⟨true, none, none⟩ 0 (norChip 0)
        ⟨false, [0], []⟩ = .ok (0, some proxy, kernel) ∧
      (moduleSystem (Fin 1) 0 0 (norChip 0) proxy).run
          (.loaded (idleThreads (Fin 1) (.create (norChip 0).info (Int32.ofNat proxy.index))))
          (List.replicate 4 (.thread 0 getEvent) ++ [.unload]) =
        some (.unloaded 1 true) ∧
      ¬ ∀ m, (moduleSystem (Fin 1) 0 0 (norChip 0) proxy).Reach (fun _ _ => True) m →
        FreedUnused m := by
  obtain ⟨proxy, kernel, hcreate, howner⟩ : ∃ proxy kernel, proxyMtdCreateDevice nextIndex
      ⟨true, none, none⟩ 0 (norChip 0) ⟨false, [0], []⟩ = .ok (0, some proxy, kernel) ∧
        proxy.owner = none := ⟨_, _, rfl, rfl⟩
  refine ⟨proxy, kernel, hcreate, run_unload_referenced howner 0, fun hall => ?_⟩
  have hzero : (1 : Int32) = 0 :=
    hall _ (reach_unload_referenced howner 0) rfl
  cases hzero

end Mtdpartikr
