import Mtdpartikr.Threads.Equiv.Refcnt

/-!
# A proxy MTD in use is left alone

What the use count is for: while somebody has a reference on the proxy MTD, its partition table
stays as it is, whatever the other threads try (`threads_kept`).  The two places that replace the
table, a respawn that passed its test and an immediate edit, run with a count of zero only
(`Acts.mtd_cases`), and the count includes every reference that is out.
-/

namespace Mtdpartikr

open Threads (Moves)

/-- The table is replaced past the test of a respawn or inside an immediate edit. -/
theorem Acts.mtd_cases {e : Event} {dev dev' : MtdpartctlDevice} {pc c : Pc}
    (h : Acts e dev pc dev' c) :
    dev'.proxy.mtd = dev.proxy.mtd ∨ tested pc = true ∨ editing pc = true := by
  cases h with
  | call _ hproxy _ | recipe _ hproxy =>
    left
    rw [hproxy]
  | editCore => exact Or.inr (Or.inr rfl)
  | unregDone _ | regCore => exact Or.inr (Or.inl rfl)
  | _ => exact Or.inl rfl

section

variable {T : Type*} [Fintype T]

/-- A reference that is out shows in the count. -/
theorem RefcntInv.useRefcnt_ne_zero {s : ThreadState T} (h : RefcntInv s) {t : T}
    (ht : holdsRef (s.pc t) = true) : s.shared.proxy.useRefcnt ≠ 0 := by
  have hpos : 0 < Threads.count holdsRef s.pc := Threads.count_pos ht
  rw [Ne, eq_zero_iff_toInt, h.count]
  omega

variable [DecidableEq T]

/-- **No step replaces the table while somebody has a reference.** -/
theorem mtd_step {s s' : ThreadState T} {t : T} {e : Event} (hinv : RefcntInv s)
    (hheld : ∃ u, holdsRef (s.pc u) = true) (h : Moves driver s t e s') :
    s'.shared.proxy.mtd = s.shared.proxy.mtd := by
  obtain ⟨u, hu⟩ := hheld
  have hne := hinv.useRefcnt_ne_zero hu
  cases h with
  | act hcode hf =>
    -- Only a respawn and an edit write the table, and each has seen the count at zero.
    rcases (acts_of_code hcode hf).mtd_cases with hmtd | htested | hedit
    · exact hmtd
    · exact absurd (hinv.tested t htested) hne
    · exact absurd (hinv.editing t hedit) hne
  | lock _ _ => rfl
  | unlock _ => rfl

/-- **A proxy MTD in use is left alone.**  As long as at most `INT_MAX` references are out, and
from a moment on there is always one, the table of the proxy MTD stays the one of that moment:
no dispatch, no delete and no immediate edit of any other thread gets through to it. -/
theorem threads_kept {s : ThreadState T} {es : List (T × Event)}
    (hs : (threadSystem T).Reach RefsBelowMax s)
    (hmax : ∀ x ∈ (threadSystem T).taken s es, RefsBelowMax x.1 x.2)
    (hheld : ∀ x ∈ (threadSystem T).taken s es, ∃ t, holdsRef (x.1.pc t) = true) :
    ∀ s' ∈ (threadSystem T).visited s es, s'.shared.proxy.mtd = s.shared.proxy.mtd := by
  have hkeep : ∀ s' ∈ (threadSystem T).visited s es,
      RefcntInv s' ∧ s'.shared.proxy.mtd = s.shared.proxy.mtd := by
    refine TransitionSystem.forall_visited
      (A := fun s e => RefsBelowMax s e ∧ ∃ t, holdsRef (s.pc t) = true) ?_ es s
      ⟨Reach.refcntInv hs, rfl⟩ fun x hx => ⟨hmax x hx, hheld x hx⟩
    rintro s₁ e s₂ ⟨hinv, hmtd⟩ ⟨hok, hout⟩ hstep
    have hmoves := Threads.moves_of_step hstep
    refine ⟨refcntInv_step hinv hok hmoves, ?_⟩
    -- Somebody still has a reference, and the count is right.
    rw [mtd_step hinv hout hmoves, hmtd]
  intro s' hs'
  exact (hkeep s' hs').2

end

/-- One thread has a reference and the other calls `DELETE_MTD_PARTITIONS`, all its steps. -/
theorem threads_kept_delete :
    ((threadSystem (Fin 2)).taken (holders 2 1)
      (callSteps 1 (.ioctl .deleteMtdPartitions) 10)).length = 11 ∧
    ∀ s' ∈ (threadSystem (Fin 2)).visited (holders 2 1)
      (callSteps 1 (.ioctl .deleteMtdPartitions) 10),
      s'.shared.proxy.mtd = (holders 2 1).shared.proxy.mtd := by
  have hbelow := refsBelowMax_of_card (T := Fin 2) (by decide)
  have hreach : (threadSystem (Fin 2)).Reach RefsBelowMax (holders 2 1) :=
    (reach_holders 2 1 (by omega)).mono fun s e _ => hbelow s e
  have hheld : ∀ x ∈ (threadSystem (Fin 2)).taken (holders 2 1)
      (callSteps 1 (.ioctl .deleteMtdPartitions) 10), holdsRef (x.1.pc 0) = true := by
    decide
  refine ⟨by decide, threads_kept hreach (fun x _ => hbelow x.1 x.2) ?_⟩
  intro x hx
  exact ⟨0, hheld x hx⟩

end Mtdpartikr
