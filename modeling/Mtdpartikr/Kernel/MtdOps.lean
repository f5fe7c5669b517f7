import Mtdpartikr.Lib.Machine
import Mtdpartikr.Kernel.Mtd

/-!
# A master under requests

The requests a user of a master sends to the MTD core, and the master as the machine that answers
them.  The state of the machine is that of the flash chip, with its data and its bad blocks.

The checks of the core, which come before the dispatch to a hook, are not here.  They read the
size, the flags and the geometry of the master, and a proxy has those of its backing MTD.
-/

namespace Mtdpartikr

variable {σ : Type}

/-- A request to the MTD core. -/
inductive MtdOp where
  | read (start len : UInt64)
  | write (start : UInt64) (buf : List UInt8)
  | readOob (start : UInt64) (ops : MtdOobOps)
  | writeOob (start : UInt64) (ops : MtdOobOps)
  | erase (instr : EraseInfo)
  | blockIsbad (ofs : UInt64)
  | blockMarkbad (ofs : UInt64)
  deriving DecidableEq

/-- What the caller gets back. -/
inductive MtdAnswer where
  | io (result : IoResult)
  | oob (ret : Int) (ops : MtdOobOps)
  | erase (ret : Int) (instr : EraseInfo)
  | ret (ret : Int)
  deriving DecidableEq

/-- `mtd_read_oob` on a master that may have the hook. -/
def mtdReadOob (mtd : MtdDev σ) (start : UInt64) (ops : MtdOobOps) (s : σ) :
    Int × MtdOobOps × σ :=
  match mtd.readOob with
  | some readOob => readOob start ops s
  | none => (negEopnotsupp, ops, s)

/-- `mtd_write_oob` on a master that may have the hook. -/
def mtdWriteOob (mtd : MtdDev σ) (start : UInt64) (ops : MtdOobOps) (s : σ) :
    Int × MtdOobOps × σ :=
  match mtd.writeOob with
  | some writeOob => writeOob start ops s
  | none => (negEopnotsupp, ops, s)

/-- One request. -/
def mtdOp (mtd : MtdDev σ) (s : σ) : MtdOp → MtdAnswer × σ
  | .read start len =>
    let (result, s) := mtdRead mtd start len s
    (.io result, s)
  | .write start buf =>
    let (result, s) := mtdWrite mtd start buf s
    (.io result, s)
  | .readOob start ops =>
    let (ret, ops, s) := mtdReadOob mtd start ops s
    (.oob ret ops, s)
  | .writeOob start ops =>
    let (ret, ops, s) := mtdWriteOob mtd start ops s
    (.oob ret ops, s)
  | .erase instr =>
    let (ret, instr, s) := mtdErase mtd instr s
    (.erase ret instr, s)
  | .blockIsbad ofs =>
    let (ret, s) := mtdBlockIsbad mtd ofs s
    (.ret ret, s)
  | .blockMarkbad ofs =>
    let (ret, s) := mtdBlockMarkbad mtd ofs s
    (.ret ret, s)

/-- The master as a machine. -/
def mtdMachine (mtd : MtdDev σ) : Machine σ MtdOp MtdAnswer where
  step s op := ((mtdOp mtd s op).1, some (mtdOp mtd s op).2)

/-! ### Bad blocks -/

/-- The hooks for bad blocks of a chip with the bad-block table `bad`.  To ask about a block
changes nothing, and a hook that is there does not answer that there is none. -/
structure BadBlockHooks (mtd : MtdDev σ) (bad : σ → UInt64 → Bool) : Prop where
  blockIsbad : ∃ isbad, mtd.blockIsbad = some isbad ∧
    ∀ ofs s, (isbad ofs s).2 = s ∧ ((isbad ofs s).1 = 0 ↔ bad s ofs = false)
  blockMarkbad : ∃ markbad, mtd.blockMarkbad = some markbad ∧
    ∀ ofs s, (markbad ofs s).1 ≠ negEopnotsupp

/-- The request marks no block, and asks about good blocks only. -/
def AsksGood (bad : σ → UInt64 → Bool) (s : σ) : MtdOp → Prop
  | .blockIsbad ofs => bad s ofs = false
  | .blockMarkbad _ => False
  | _ => True

end Mtdpartikr
