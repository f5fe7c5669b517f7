import Mtdpartikr.Kernel.Types

/-!
# `struct mtd_info` in full

`MtdDev σ` is a `struct mtd_info` with everything the module reads or sets of one, for the
masters in the MTD table and for the proxies the module makes of them.  `σ` is the state of the
flash chip behind it, and a hook is a function on that state.  A hook that is NULL is `none`.

The second half is the part of the MTD core that brings a request to the hooks of a master.
-/

namespace Mtdpartikr

/-! ### Types of MTD -/

/-- `MTD_NORFLASH`. -/
def MTD_NORFLASH : UInt8 := 3

/-- `MTD_NANDFLASH`. -/
def MTD_NANDFLASH : UInt8 := 4

/-- `MTD_MLCNANDFLASH`. -/
def MTD_MLCNANDFLASH : UInt8 := 8

/-! ### Requests and hooks -/

/-- `struct erase_info`. -/
structure EraseInfo where
  addr : UInt64
  len : UInt64
  failAddr : UInt64
  deriving DecidableEq

/-- `struct mtd_oob_ops`. -/
structure MtdOobOps where
  mode : UInt32
  len : UInt64
  retlen : UInt64
  ooblen : UInt64
  oobretlen : UInt64
  ooboffs : UInt32
  datbuf : Option (List UInt8)
  oobbuf : Option (List UInt8)
  deriving DecidableEq

/-- What `_read` and `_write` return: the return value, `*retlen`, and the bytes read. -/
structure IoResult where
  ret : Int
  retlen : UInt64
  buf : List UInt8
  deriving DecidableEq

/-- `struct nand_memory_organization`. -/
structure NandMemoryOrganization where
  bitsPerCell : UInt32
  pagesize : UInt32
  oobsize : UInt32
  pagesPerEraseblock : UInt32
  eraseblocksPerLun : UInt32
  maxBadEraseblocksPerLun : UInt32
  planesPerLun : UInt32
  lunsPerTarget : UInt32
  ntargets : UInt32
  deriving DecidableEq

/-- `struct nand_pos`. -/
structure NandPos where
  target : UInt32
  lun : UInt32
  plane : UInt32
  eraseblock : UInt32
  page : UInt32
  deriving DecidableEq

/-- `struct nand_ops`. -/
structure NandOps (σ : Type) where
  erase : Option (NandPos → σ → Int × σ)
  markbad : Option (NandPos → σ → Int × σ)
  isbad : Option (NandPos → σ → Bool × σ)

/-- A module whose code an MTD may depend on. -/
inductive Module where
  | thisModule
  | other (id : ℕ)
  deriving DecidableEq

/-- The functions `_get_device` and `_put_device` may point to. -/
inductive DeviceHook where
  | proxyMtdGetDevice
  | proxyMtdPutDevice
  /-- A function of another driver. -/
  | foreign
  deriving DecidableEq

/-! ### `struct mtd_info` -/

/-- `struct mtd_info`.  The last two fields belong to the `struct nand_device` around the
`mtd_info` of a NAND chip. -/
structure MtdDev (σ : Type) where
  index : ℕ
  name : String
  type : UInt8
  flags : UInt32
  size : UInt64
  erasesize : UInt32
  writesize : UInt32
  writebufsize : UInt32
  oobsize : UInt32
  oobavail : UInt32
  erasesizeShift : UInt32
  writesizeShift : UInt32
  erasesizeMask : UInt32
  writesizeMask : UInt32
  bitflipThreshold : UInt32
  eccStepSize : UInt32
  eccStrength : UInt32
  numeraseregions : Int32
  /-- `mtd_is_partition`. -/
  isPartition : Bool
  owner : Option Module
  erase : Option (EraseInfo → σ → Int × EraseInfo × σ)
  read : Option (UInt64 → UInt64 → σ → IoResult × σ)
  write : Option (UInt64 → List UInt8 → σ → IoResult × σ)
  readOob : Option (UInt64 → MtdOobOps → σ → Int × MtdOobOps × σ)
  writeOob : Option (UInt64 → MtdOobOps → σ → Int × MtdOobOps × σ)
  blockIsbad : Option (UInt64 → σ → Int × σ)
  blockMarkbad : Option (UInt64 → σ → Int × σ)
  getDevice : Option DeviceHook
  putDevice : Option DeviceHook
  memorg : NandMemoryOrganization
  nandOps : NandOps σ

namespace MtdDev

variable {σ : Type}

/-- A zero-filled `struct mtd_info` or `struct nand_device`. -/
def zero : MtdDev σ where
  index := 0
  name := ""
  type := 0
  flags := 0
  size := 0
  erasesize := 0
  writesize := 0
  writebufsize := 0
  oobsize := 0
  oobavail := 0
  erasesizeShift := 0
  writesizeShift := 0
  erasesizeMask := 0
  writesizeMask := 0
  bitflipThreshold := 0
  eccStepSize := 0
  eccStrength := 0
  numeraseregions := 0
  isPartition := false
  owner := none
  erase := none
  read := none
  write := none
  readOob := none
  writeOob := none
  blockIsbad := none
  blockMarkbad := none
  getDevice := none
  putDevice := none
  memorg := ⟨0, 0, 0, 0, 0, 0, 0, 0, 0⟩
  nandOps := ⟨none, none, none⟩

/-- The fields the control device reads of its backing MTD. -/
def info (mtd : MtdDev σ) : MtdInfo := ⟨Int32.ofNat mtd.index, mtd.size, mtd.erasesize⟩

/-- The types for which `proxy_mtd_create_device` makes a `struct nand_device`. -/
def IsNand (mtd : MtdDev σ) : Prop := mtd.type = MTD_MLCNANDFLASH ∨ mtd.type = MTD_NANDFLASH

instance (mtd : MtdDev σ) : Decidable mtd.IsNand :=
  inferInstanceAs (Decidable (mtd.type = MTD_MLCNANDFLASH ∨ mtd.type = MTD_NANDFLASH))

end MtdDev

/-! ### The MTD core -/

section Core

variable {σ : Type} (mtd : MtdDev σ)

/-- `-EOPNOTSUPP`. -/
def negEopnotsupp : Int := -95

/-- `mtd_erase` on a master. -/
def mtdErase (instr : EraseInfo) (s : σ) : Int × EraseInfo × σ :=
  match mtd.erase with
  | some erase => erase instr s
  | none => (-524, instr, s)  -- `-ENOTSUPP`

/-- The `struct mtd_oob_ops` of `mtd_read` and `mtd_write`. -/
def plainOps (len : UInt64) (buf : List UInt8) : MtdOobOps := ⟨0, len, 0, 0, 0, 0, some buf, none⟩

/-- `mtd_read` on a master: through `_read_oob` where there is one. -/
def mtdRead (start len : UInt64) (s : σ) : IoResult × σ :=
  match mtd.readOob with
  | some readOob =>
    let (ret, ops, s) := readOob start (plainOps len []) s
    (⟨ret, ops.retlen, ops.datbuf.getD []⟩, s)
  | none =>
    match mtd.read with
    | some read => read start len s
    | none => (⟨negEopnotsupp, 0, []⟩, s)

/-- `mtd_write` on a master: through `_write_oob` where there is one. -/
def mtdWrite (start : UInt64) (buf : List UInt8) (s : σ) : IoResult × σ :=
  match mtd.writeOob with
  | some writeOob =>
    let (ret, ops, s) := writeOob start (plainOps (UInt64.ofNat buf.length) buf) s
    (⟨ret, ops.retlen, []⟩, s)
  | none =>
    match mtd.write with
    | some write => write start buf s
    | none => (⟨negEopnotsupp, 0, []⟩, s)

/-- `mtd_block_isbad` on a master: without the hook every block is good. -/
def mtdBlockIsbad (ofs : UInt64) (s : σ) : Int × σ :=
  match mtd.blockIsbad with
  | some isbad => isbad ofs s
  | none => (0, s)

/-- `mtd_block_markbad` on a master. -/
def mtdBlockMarkbad (ofs : UInt64) (s : σ) : Int × σ :=
  match mtd.blockMarkbad with
  | some markbad => markbad ofs s
  | none => (negEopnotsupp, s)

end Core

end Mtdpartikr
