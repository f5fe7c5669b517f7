import Mtdpartikr.Kernel.DevClass
import Mtdpartikr.Lib.Transition

/-!
# Loading and unloading the module

`mtdpartikr_init` and `mtdpartikr_exit` of `kernel/init.c` with the registration of the mock parser
in `kernel/mtd_parser.c`.

`loadSystem` is a kernel that loads and unloads the module again and again, each time with the
MTDs that are there, and in which nobody opens a device or uses a proxy MTD between a load and its
unload.  So the unload finds empty recipes, and no proxy that the core refuses to unregister.
-/

namespace Mtdpartikr

variable {σ : Type}

/-- `MTD_PARSER_NAME`. -/
def MTD_PARSER_NAME : String := "mtdpartikr"

/-- What a load of the module finds. -/
structure LoadEnv (σ : Type) where
  /-- `CONFIG_MTD_PARTITIONED_MASTER`. -/
  partitionedMaster : Bool
  /-- `register_mtd_parser`. -/
  registerMtdParser : Option KernelErr
  /-- The module parameter, NULL when it is not given. -/
  deviceTypeFilter : Option String
  table : MtdTable σ
  init : InitEnv

/-- The module in the kernel: the class with what it took, and the parsers that were registered
and deregistered. -/
structure MtdpartikrModule (σ : Type) where
  init : InitState σ
  /-- The proxy MTDs for which `nanddev_init` has allocated. -/
  nanddevs : List ℕ
  parsers : List (Ledger.Event String)

/-- `mtdpartctl_mtd_parser_init`. -/
def mtdpartctlMtdParserInit (outcome : Option KernelErr) (s : MtdpartikrModule σ) :
    Int × MtdpartikrModule σ :=
  match outcome with
  | some err => (err.ret, s)
  | none => (0, { s with parsers := s.parsers ++ [.acquire MTD_PARSER_NAME] })

/-- `mtdpartctl_mtd_parser_destroy`. -/
def mtdpartctlMtdParserDestroy (s : MtdpartikrModule σ) : MtdpartikrModule σ :=
  { s with parsers := s.parsers ++ [.release MTD_PARSER_NAME] }

/-- The proxy MTDs for which `nanddev_init` has allocated: it is called with the memory of the
proxy of a NAND MTD, and keeps what it allocated unless it fails. -/
def nanddevsOf (env : InitEnv) (s : InitState σ) : List ℕ :=
  (List.range s.cls.mtdDevs.length).filter fun k =>
    match (s.cls.mtdDevs[k]?).join with
    | none => false
    | some backing =>
      decide backing.IsNand && s.kernel.trace.contains (.acquire (.proxyMem k)) &&
        (env.device k).proxy.nanddevInit.isNone

/-- `mtdpartikr_init`. -/
def mtdpartikrInit (env : LoadEnv σ) : Except InitOops (Int × MtdpartikrModule σ) := do
  let s : MtdpartikrModule σ := ⟨.load env.table, [], []⟩
  if !env.partitionedMaster then
    return (-524, s)  -- `-ENOTSUPP`
  let (ret, s) := mtdpartctlMtdParserInit env.registerMtdParser s
  if ret < 0 then
    return (ret, s)
  match determineDeviceTypeFilter env.deviceTypeFilter with
  | (ret, none) => return (ret, mtdpartctlMtdParserDestroy s)
  | (_, some filter) =>
    let (ret, init) ← mtdpartctlDeviceClassInit env.init env.table filter s.init
    let s := { s with init := init, nanddevs := nanddevsOf env.init init }
    if ret < 0 then
      return (ret, mtdpartctlMtdParserDestroy s)
    return (0, s)

/-- `mtdpartikr_exit`.  It frees the proxy MTDs without a `nanddev_cleanup`. -/
def mtdpartikrExit (s : MtdpartikrModule σ) : Except InitOops (MtdpartikrModule σ) := do
  let kernel ← mtdpartctlDeviceClassDestroy s.init.cls s.init.kernel
  return mtdpartctlMtdParserDestroy { s with init := { s.init with kernel := kernel } }

/-- A user loads or unloads the module. -/
inductive LoadCall (σ : Type) where
  | insmod (env : LoadEnv σ)
  | rmmod

/-- The module that is loaded, what the earlier loads have left when they ended, and the load or
unload that did not return, if one did not. -/
structure LoadHistory (σ : Type) where
  loaded : Option (MtdpartikrModule σ)
  past : List (MtdpartikrModule σ)
  crashed : Option InitOops

/-- The module under loads and unloads.  A second load is refused by the kernel, and after a call
that does not return there are no further ones. -/
def loadSystem (σ : Type) : TransitionSystem (LoadHistory σ) (LoadCall σ) where
  init h := h = ⟨none, [], none⟩
  step
    | ⟨none, past, none⟩, .insmod env =>
      match mtdpartikrInit env with
      | .error o => some ⟨none, past, some o⟩
      | .ok (ret, s) =>
        if ret < 0 then some ⟨none, past ++ [s], none⟩ else some ⟨some s, past, none⟩
    | ⟨some s, past, none⟩, .rmmod =>
      match mtdpartikrExit s with
      | .error o => some ⟨some s, past, some o⟩
      | .ok s' => some ⟨none, past ++ [s'], none⟩
    | ⟨loaded, past, none⟩, _ => some ⟨loaded, past, none⟩
    | ⟨_, _, some _⟩, _ => none

end Mtdpartikr
