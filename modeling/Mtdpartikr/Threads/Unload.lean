import Mtdpartikr.Kernel.Equiv.DevClass
import Mtdpartikr.Threads.Equiv.Refcnt

/-!
# The module until it is unloaded

The threads of `Threads/Program.lean` on a device of the class, and one more event: the module is
unloaded, which ends in `mtdpartctl_device_destroy`.  The kernel refuses to unload a module that is
pinned.  Open control devices pin it, and so do granted references on an MTD whose `owner` it is.
-/

namespace Mtdpartikr

variable {σ T : Type}

/-- The module with one of its devices. -/
inductive ModuleState (T : Type) where
  | loaded (s : ThreadState T)
  /-- The use count of the proxy MTD when its device was destroyed, and whether its memory was
  freed then. -/
  | unloaded (useRefcnt : Int32) (freed : Bool)

inductive ModuleEvent (T : Type) where
  | thread (t : T) (e : Event)
  | unload

/-- The module is pinned, by an open control device or by a reference on an MTD with the owner. -/
def Pinned (owner : Option Module) (s : ThreadState T) : Prop :=
  s.shared.alreadyOpen = true ∨ (owner = some .thisModule ∧ ∃ t, holdsRef (s.pc t) = true)

instance [Fintype T] (owner : Option Module) (s : ThreadState T) : Decidable (Pinned owner s) :=
  inferInstanceAs (Decidable (_ = true ∨ (_ = some _ ∧ ∃ _, _ = true)))

variable [Fintype T] [DecidableEq T]

/-- The module with the `k`-th device of the class, from the creation of the device on. -/
def moduleSystem (T : Type) [Fintype T] [DecidableEq T] (k : ℕ) (devno : DevT)
    (backing proxy : MtdDev σ) : TransitionSystem (ModuleState T) (ModuleEvent T) where
  init m := ∃ s, m = .loaded s ∧ (threadSystem T).init s ∧
    s.shared = .create backing.info (Int32.ofNat proxy.index)
  step
    | .loaded s, .thread t e => ((threadSystem T).step s (t, e)).map .loaded
    | .loaded s, .unload =>
      if Pinned proxy.owner s then none
      else
        -- `mtdpartctl_device_destroy` does not look at the count.  An MTD in use may stay
        -- registered, but what `mtd_device_unregister` returns is not looked at either.
        match mtdpartctlDeviceDestroy k
            { madeDevice devno k backing proxy with useRefcnt := s.shared.proxy.useRefcnt }
            ⟨false, [], []⟩ with
        | .ok kernel =>
          some (.unloaded s.shared.proxy.useRefcnt (decide (.release (.proxyMem k) ∈ kernel.trace)))
        | .error _ => none
    | .unloaded _ _, _ => none

/-- The memory of the proxy MTD is not freed while it is in use. -/
def FreedUnused : ModuleState T → Prop
  | .loaded _ => True
  | .unloaded useRefcnt freed => freed = true → useRefcnt = 0

end Mtdpartikr
