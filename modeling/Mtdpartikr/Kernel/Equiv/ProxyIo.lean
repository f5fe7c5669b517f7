import Mtdpartikr.Kernel.Equiv.ClassInit
import Mtdpartikr.Kernel.MtdOps

/-!
# A proxy MTD against its backing MTD

The proxy of a chip forwards reads, writes and erasures, so on those requests it is the chip
(`mtdOp_forwarded`).  It has no hook for bad blocks: `proxy_nand_ops` has functions for them, but
no request reaches them.  A run is the same on both exactly when it marks no block and asks about
no bad one (`proxy_same_as_backing_iff`).
-/

namespace Mtdpartikr

section

variable {σ : Type} {backing mtd proxy : MtdDev σ}

/-! ### The hooks of the proxy -/

/-- The hooks of the proxy of a chip with `_write_oob`. -/
structure ForwardsOob (backing proxy : MtdDev σ) : Prop where
  readOob : proxy.readOob = backing.readOob
  writeOob : proxy.writeOob = backing.writeOob
  hasReadOob : backing.readOob.isSome
  hasWriteOob : backing.writeOob.isSome
  erase : proxy.erase = some (proxyMtdErase backing)
  blockIsbad : proxy.blockIsbad = none
  blockMarkbad : proxy.blockMarkbad = none

theorem setIoHooks_oob {made : MtdDev σ} (hwrite : backing.writeOob.isSome)
    (h : setIoHooks backing mtd = .ok made) :
    backing.readOob.isSome ∧ made.readOob = backing.readOob ∧
      made.writeOob = backing.writeOob := by
  obtain ⟨writeOob, hwriteOob⟩ := Option.isSome_iff_exists.mp hwrite
  unfold setIoHooks at h
  rw [hwriteOob] at h
  cases hreadOob : backing.readOob with
  | none =>
    rw [hreadOob] at h
    cases h
  | some readOob =>
    rw [hreadOob] at h
    obtain rfl := Except.ok.inj h
    exact ⟨rfl, rfl, hwriteOob.symm⟩

theorem filledProxyMtd_oob (hwrite : backing.writeOob.isSome)
    (h : filledProxyMtd backing = .ok mtd) : ForwardsOob backing mtd := by
  have hframe := filledProxyMtd_frame h
  have herase : mtd.erase = some (proxyMtdErase backing) := by rw [hframe]; rfl
  have hbad : mtd.blockIsbad = none ∧ mtd.blockMarkbad = none := by
    rw [hframe]
    show (freshProxyMtd backing).blockIsbad = none ∧ (freshProxyMtd backing).blockMarkbad = none
    unfold freshProxyMtd
    split_ifs <;> exact ⟨rfl, rfl⟩
  unfold filledProxyMtd at h
  cases hio : setIoHooks backing (copyBackingFields backing (freshProxyMtd backing)) with
  | error o =>
    rw [hio] at h
    cases h
  | ok made =>
    have hoob := setIoHooks_oob hwrite hio
    rw [hio] at h
    obtain rfl := Except.ok.inj h
    exact ⟨hoob.2.1, hoob.2.2, hoob.1, hwrite, herase, hbad.1, hbad.2⟩

theorem forwardsOob_of_create (choice : IndexChoice) (env : ProxyEnv) (k : ℕ) (indices : List ℕ)
    (trace : List (Ledger.Event Resource)) {kernel : KernelState}
    (h : proxyMtdCreateDevice choice env k backing ⟨false, indices, trace⟩ =
      .ok (0, some proxy, kernel)) (hwrite : backing.writeOob.isSome) :
    ForwardsOob backing proxy := by
  obtain ⟨mtd, hfilled, hproxy⟩ := filledProxyMtd_of_create choice env k backing indices trace h
  have hmtd : ForwardsOob backing mtd := filledProxyMtd_oob hwrite hfilled
  rw [hproxy]
  exact ⟨hmtd.readOob, hmtd.writeOob, hmtd.hasReadOob, hmtd.hasWriteOob, hmtd.erase,
    hmtd.blockIsbad, hmtd.blockMarkbad⟩

/-! ### One request -/

variable {bad : σ → UInt64 → Bool}

/-- A request that keeps off bad blocks is answered by the chip itself. -/
theorem mtdOp_forwarded (hproxy : ForwardsOob backing proxy) (hchip : BadBlockHooks backing bad)
    {s : σ} {op : MtdOp} (hop : AsksGood bad s op) : mtdOp proxy s op = mtdOp backing s op := by
  obtain ⟨readOob, hreadOob⟩ := Option.isSome_iff_exists.mp hproxy.hasReadOob
  obtain ⟨writeOob, hwriteOob⟩ := Option.isSome_iff_exists.mp hproxy.hasWriteOob
  cases op with
  | read start len => simp only [mtdOp, mtdRead, hproxy.readOob, hreadOob]
  | write start buf => simp only [mtdOp, mtdWrite, hproxy.writeOob, hwriteOob]
  | readOob start ops => simp only [mtdOp, mtdReadOob, hproxy.readOob]
  | writeOob start ops => simp only [mtdOp, mtdWriteOob, hproxy.writeOob]
  | erase instr =>
    -- `mtd_erase` on the proxy calls its hook, which calls `mtd_erase` on the chip.
    have herase : mtdErase proxy instr s = mtdErase backing instr s := by
      rw [mtdErase, hproxy.erase]
      rfl
    simp only [mtdOp, herase]
  | blockIsbad ofs =>
    obtain ⟨isbad, hisbad, hspec⟩ := hchip.blockIsbad
    have hgood : isbad ofs s = (0, s) := Prod.ext ((hspec ofs s).2.mpr hop) (hspec ofs s).1
    simp only [mtdOp, mtdBlockIsbad, hproxy.blockIsbad, hisbad, hgood]
  | blockMarkbad ofs => cases hop

/-- Any other request has two different answers. -/
theorem mtdOp_not_forwarded (hproxy : ForwardsOob backing proxy)
    (hchip : BadBlockHooks backing bad) {s : σ} {op : MtdOp} (hop : ¬ AsksGood bad s op) :
    (mtdOp proxy s op).1 ≠ (mtdOp backing s op).1 := by
  cases op with
  | read | write | readOob | writeOob | erase => exact absurd trivial hop
  | blockIsbad ofs =>
    obtain ⟨isbad, hisbad, hspec⟩ := hchip.blockIsbad
    simp only [mtdOp, mtdBlockIsbad, hproxy.blockIsbad, hisbad]
    intro heq
    have hzero : (isbad ofs s).1 = 0 := (MtdAnswer.ret.inj heq).symm
    exact hop ((hspec ofs s).2.mp hzero)
  | blockMarkbad ofs =>
    obtain ⟨markbad, hmarkbad, hspec⟩ := hchip.blockMarkbad
    simp only [mtdOp, mtdBlockMarkbad, hproxy.blockMarkbad, hmarkbad]
    intro heq
    exact hspec ofs s (MtdAnswer.ret.inj heq).symm

/-! ### Whole runs -/

/-- **A run on the proxy is the run on its backing MTD** if and only if it marks no block and asks
about no block that is bad. -/
theorem proxy_same_as_backing_iff (choice : IndexChoice) (env : ProxyEnv) (k : ℕ)
    (indices : List ℕ) (trace : List (Ledger.Event Resource)) {kernel : KernelState}
    (h : proxyMtdCreateDevice choice env k backing ⟨false, indices, trace⟩ =
      .ok (0, some proxy, kernel)) (hwrite : backing.writeOob.isSome)
    (hchip : BadBlockHooks backing bad) (s : σ) (ops : List MtdOp) :
    ((mtdMachine proxy).outputs s ops = (mtdMachine backing).outputs s ops ∧
        (mtdMachine proxy).final s ops = (mtdMachine backing).final s ops) ↔
      ∀ x ∈ (mtdMachine backing).taken s ops, AsksGood bad x.1 x.2 := by
  have hproxy := forwardsOob_of_create choice env k indices trace h hwrite
  apply Machine.runs_eq_iff
  · intro s op hop
    simp only [mtdMachine, mtdOp_forwarded hproxy hchip hop]
  · intro s op hop
    exact mtdOp_not_forwarded hproxy hchip hop

end

/-! ### A chip with bad blocks -/

/-- The state of a small chip: the page that is written, and the offsets of its bad blocks. -/
structure NandFlash where
  page : List UInt8
  bad : List UInt64
  deriving DecidableEq

/-- Its driver. -/
def nandChip : MtdDev NandFlash :=
  { MtdDev.zero with
    type := MTD_NANDFLASH
    size := 8192
    erasesize := 4096
    writesize := 2
    erase := some fun instr s => (0, instr, { s with page := [] })
    readOob := some fun _ ops s => (0, { ops with retlen := ops.len, datbuf := some s.page }, s)
    writeOob := some fun _ ops s =>
      (0, { ops with retlen := ops.len }, { s with page := ops.datbuf.getD [] })
    blockIsbad := some fun ofs s => (if ofs ∈ s.bad then 1 else 0, s)
    blockMarkbad := some fun ofs s => (0, { s with bad := ofs :: s.bad }) }

theorem badBlockHooks_nandChip : BadBlockHooks nandChip fun s ofs => decide (ofs ∈ s.bad) where
  blockIsbad := by
    refine ⟨_, rfl, fun ofs s => ⟨rfl, ?_⟩⟩
    by_cases hbad : ofs ∈ s.bad <;> simp [hbad]
  blockMarkbad := by
    refine ⟨_, rfl, fun ofs s => ?_⟩
    show (0 : Int) ≠ -95
    decide

/-- A page is written, read back and erased, and the block is good. -/
theorem proxy_same_as_backing_good :
    ∃ proxy kernel, proxyMtdCreateDevice nextIndex ⟨true, none, none⟩ 0 nandChip
        ⟨false, [0], []⟩ = .ok (0, some proxy, kernel) ∧
      ((mtdMachine proxy).outputs ⟨[], [4096]⟩
          [.write 0 [1, 2], .read 0 2, .erase ⟨0, 4096, 0⟩, .blockIsbad 0] =
        (mtdMachine nandChip).outputs ⟨[], [4096]⟩
          [.write 0 [1, 2], .read 0 2, .erase ⟨0, 4096, 0⟩, .blockIsbad 0] ∧
      (mtdMachine proxy).final ⟨[], [4096]⟩
          [.write 0 [1, 2], .read 0 2, .erase ⟨0, 4096, 0⟩, .blockIsbad 0] =
        (mtdMachine nandChip).final ⟨[], [4096]⟩
          [.write 0 [1, 2], .read 0 2, .erase ⟨0, 4096, 0⟩, .blockIsbad 0]) := by
  obtain ⟨proxy, kernel, hcreate⟩ : ∃ proxy kernel, proxyMtdCreateDevice nextIndex
      ⟨true, none, none⟩ 0 nandChip ⟨false, [0], []⟩ = .ok (0, some proxy, kernel) := ⟨_, _, rfl⟩
  refine ⟨proxy, kernel, hcreate, ?_⟩
  refine (proxy_same_as_backing_iff nextIndex ⟨true, none, none⟩ 0 [0] [] hcreate rfl
    badBlockHooks_nandChip ⟨[], [4096]⟩ _).mpr ?_
  simp [Machine.taken, mtdMachine, mtdOp, AsksGood, mtdWrite, mtdRead, mtdErase, nandChip]

/-- A bad block is good on the proxy, and the proxy marks no block. -/
theorem proxy_hides_bad_blocks :
    ∃ proxy kernel, proxyMtdCreateDevice nextIndex ⟨true, none, none⟩ 0 nandChip
        ⟨false, [0], []⟩ = .ok (0, some proxy, kernel) ∧
      (mtdMachine nandChip).outputs ⟨[], [0]⟩ [.blockIsbad 0, .blockMarkbad 4096] =
        [.ret 1, .ret 0] ∧
      (mtdMachine proxy).outputs ⟨[], [0]⟩ [.blockIsbad 0, .blockMarkbad 4096] =
        [.ret 0, .ret (-95)] ∧
      (mtdMachine nandChip).final ⟨[], [0]⟩ [.blockIsbad 0, .blockMarkbad 4096] =
        some ⟨[], [4096, 0]⟩ ∧
      (mtdMachine proxy).final ⟨[], [0]⟩ [.blockIsbad 0, .blockMarkbad 4096] =
        some ⟨[], [0]⟩ ∧
      ¬ ∀ s ops, (mtdMachine proxy).outputs s ops = (mtdMachine nandChip).outputs s ops ∧
        (mtdMachine proxy).final s ops = (mtdMachine nandChip).final s ops := by
  refine ⟨_, _, rfl, rfl, rfl, rfl, rfl, fun hall => ?_⟩
  have hanswers := (hall ⟨[], [0]⟩ [.blockIsbad 0]).1
  have hret : (0 : Int) = 1 := MtdAnswer.ret.inj (List.cons.inj hanswers).1
  omega

end Mtdpartikr
