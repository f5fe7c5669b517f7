import Mtdpartikr.Kernel.Resources

/-!
# The proxy MTD and its making

`kernel/proxy_mtd_dev.c`: the I/O hooks of a proxy MTD, its `nand_ops`, and
`proxy_mtd_create_device` with `proxy_mtd_device_destroy`.  The hooks `_get_device` and
`_put_device` are in `Kernel/Respawn.lean`.

A hook of the proxy finds the backing MTD through `priv`; here it is a function of the backing
MTD, or of the backing hook it forwards to.
-/

namespace Mtdpartikr

variable {σ : Type}

/-! ### I/O hooks -/

def proxyMtdErase (backing : MtdDev σ) : EraseInfo → σ → Int × EraseInfo × σ :=
  fun instr s => mtdErase backing instr s

def proxyMtdWrite (write : UInt64 → List UInt8 → σ → IoResult × σ) :
    UInt64 → List UInt8 → σ → IoResult × σ :=
  fun start buf s => write start buf s

def proxyMtdRead (read : UInt64 → UInt64 → σ → IoResult × σ) :
    UInt64 → UInt64 → σ → IoResult × σ :=
  fun start len s => read start len s

def proxyMtdWriteOob (writeOob : UInt64 → MtdOobOps → σ → Int × MtdOobOps × σ) :
    UInt64 → MtdOobOps → σ → Int × MtdOobOps × σ :=
  fun start ops s => writeOob start ops s

def proxyMtdReadOob (readOob : UInt64 → MtdOobOps → σ → Int × MtdOobOps × σ) :
    UInt64 → MtdOobOps → σ → Int × MtdOobOps × σ :=
  fun start ops s => readOob start ops s

/-! ### `nand_ops` -/

def proxyNandErase (backing : MtdDev σ) : NandPos → σ → Int × σ :=
  fun pos s =>
    match backing.nandOps.erase with
    | none => (negEopnotsupp, s)
    | some erase => erase pos s

def proxyNandMarkbad (backing : MtdDev σ) : NandPos → σ → Int × σ :=
  fun pos s =>
    match backing.nandOps.markbad with
    | none => (negEopnotsupp, s)
    | some markbad => markbad pos s

def proxyNandIsbad (backing : MtdDev σ) : NandPos → σ → Bool × σ :=
  fun pos s =>
    match backing.nandOps.isbad with
    | none => (false, s)
    | some isbad => isbad pos s

def proxyNandOps (backing : MtdDev σ) : NandOps σ where
  erase := some (proxyNandErase backing)
  markbad := some (proxyNandMarkbad backing)
  isbad := some (proxyNandIsbad backing)

/-! ### Making a proxy MTD -/

/-- The outcomes of what `proxy_mtd_create_device` calls. -/
structure ProxyEnv where
  kvzalloc : Bool
  nanddevInit : Option KernelErr
  mtdDeviceRegister : Option KernelErr

/-- `nanddev_init`: it stores the operations and the owner it is given, and installs no hook for
bad blocks.  The geometry it derives from `memorg` is overwritten by its caller, and what it
allocates is counted with the module. -/
def nanddevInit (ops : NandOps σ) (owner : Option Module) (mtd : MtdDev σ) : MtdDev σ :=
  { mtd with nandOps := ops, owner := owner }

/-- `initialize_proxy_nand_device`: the return value and `dev->proxy.mtd`. -/
def initializeProxyNandDevice (env : ProxyEnv) (k : ℕ) (backing : MtdDev σ)
    (kernel : KernelState) : Int × Option (MtdDev σ) × KernelState :=
  if !env.kvzalloc then (neg .ENOMEM, none, kernel)
  else
    let kernel := kernel.acquire (.proxyMem k)
    -- `copy_nand_device_mem_organization`
    let mtd := { MtdDev.zero with memorg := backing.memorg }
    match env.nanddevInit with
    | some err => (err.ret, none, kernel.release (.proxyMem k))
    | none => (0, some (nanddevInit (proxyNandOps backing) (some .thisModule) mtd), kernel)

/-- The memory of `dev->proxy.mtd`, as a `struct nand_device` or a `struct mtd_info`. -/
def allocProxyMtd (env : ProxyEnv) (k : ℕ) (backing : MtdDev σ) (kernel : KernelState) :
    Int × Option (MtdDev σ) × KernelState :=
  if backing.type = MTD_MLCNANDFLASH ∨ backing.type = MTD_NANDFLASH then
    initializeProxyNandDevice env k backing kernel
  else if !env.kvzalloc then (neg .ENOMEM, none, kernel)
  else (0, some MtdDev.zero, kernel.acquire (.proxyMem k))

/-- The fields copied from the backing MTD, and `_erase`. -/
def copyBackingFields (backing mtd : MtdDev σ) : MtdDev σ :=
  { mtd with
    name := "mtdpartctl-proxy-mtd"
    type := backing.type
    flags := backing.flags
    size := backing.size
    erasesize := backing.erasesize
    writesize := backing.writesize
    writebufsize := backing.writebufsize
    oobsize := backing.oobsize
    oobavail := backing.oobavail
    erasesizeShift := backing.erasesizeShift
    writesizeShift := backing.writesizeShift
    erasesizeMask := backing.erasesizeMask
    writesizeMask := backing.writesizeMask
    bitflipThreshold := backing.bitflipThreshold
    eccStepSize := backing.eccStepSize
    eccStrength := backing.eccStrength
    erase := some (proxyMtdErase backing) }

/-- The read and write hooks. -/
def setIoHooks (backing mtd : MtdDev σ) : Except InitOops (MtdDev σ) :=
  match backing.writeOob with
  | some writeOob =>
    match backing.readOob with
    | none => throw .noReadOob
    | some readOob =>
      pure { mtd with
        writeOob := some (proxyMtdWriteOob writeOob)
        readOob := some (proxyMtdReadOob readOob) }
  | none =>
    match backing.read with
    | none => throw .noRead
    | some read =>
      match backing.write with
      | none => throw .noWrite
      | some write =>
        pure { mtd with write := some (proxyMtdWrite write), read := some (proxyMtdRead read) }

/-- `proxy_mtd_create_device`: the return value and `dev->proxy.mtd`. -/
def proxyMtdCreateDevice (choice : IndexChoice) (env : ProxyEnv) (k : ℕ) (backing : MtdDev σ)
    (kernel : KernelState) : Except InitOops (Int × Option (MtdDev σ) × KernelState) := do
  if backing.numeraseregions ≠ 0 then
    return (neg .EINVAL, none, kernel)
  match allocProxyMtd env k backing kernel with
  | (ret, none, kernel) => return (ret, none, kernel)
  | (_, some mtd, kernel) =>
    let mtd ← setIoHooks backing (copyBackingFields backing mtd)
    let mtd := { mtd with
      getDevice := some .proxyMtdGetDevice
      putDevice := some .proxyMtdPutDevice }
    let (ret, mtd, kernel) ← mtdDeviceRegister choice env.mtdDeviceRegister k mtd kernel
    if ret ≠ 0 then
      return (ret, none, kernel.release (.proxyMem k))
    return (0, some mtd, kernel)

/-- `proxy_mtd_device_destroy`. -/
def proxyMtdDeviceDestroy (k : ℕ) (mtd : MtdDev σ) (kernel : KernelState) :
    Except InitOops KernelState := do
  let kernel ← mtdDeviceUnregister k mtd kernel
  return kernel.release (.proxyMem k)

end Mtdpartikr
