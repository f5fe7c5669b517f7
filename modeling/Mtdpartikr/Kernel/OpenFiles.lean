import Mtdpartikr.Kernel.DevClass
import Mtdpartikr.Kernel.Ioctl

/-!
# The control devices of a class

The file operations of `kernel/ctrl_dev.c` on all the devices of a class.
`mtdpartctl_chrdev_open` finds the device by the minor number of the node and keeps it in
`filp->private_data`, where the other two find it.

`classSystem` is a class under any calls on any of its devices.
-/

namespace Mtdpartikr

/-- The devices of a class, and the files on them. -/
structure ClassState where
  /-- `s_all_devs.devs`, of which there are `count`. -/
  devs : List MtdpartctlDevice
  /-- The place in `devs` of each file's `private_data`; `none` once the file is released. -/
  files : List (Option ℕ)

namespace ClassState

/-- `mtdpartctl_device_resolve_by_minor`. -/
def resolveByMinor (st : ClassState) (minor : ℕ) : Option MtdpartctlDevice := st.devs[minor]?

/-- The place of the device that is open behind a file. -/
def privateData (st : ClassState) (file : ℕ) : Option ℕ := (st.files[file]?).join

/-- A call on the device at a place. -/
def onDevice (env : Env) (st : ClassState) (k : ℕ) (call : DevCall) :
    Except Oops (Int × ClassState) :=
  match st.devs[k]? with
  -- neither a file nor a proxy MTD is without its device
  | none => pure (neg .ENODEV, st)
  | some dev => do
    let (ret, dev) ← deviceCall env dev call
    return (ret, { st with devs := st.devs.set k dev })

end ClassState

/-- A system call on a control device or, on the proxy MTD at a place, a hook. -/
inductive FileCall where
  | open (rdev : DevT)
  | ioctl (file : ℕ) (cmd : Ioctl)
  | release (file : ℕ)
  | getDevice (k : ℕ)
  | putDevice (k : ℕ)

/-- `mtdpartctl_chrdev_open` of a node with the device number. -/
def mtdpartctlChrdevOpenNode (st : ClassState) (rdev : DevT) : Int × ClassState :=
  let minor := (devMinor rdev).toNat
  match st.resolveByMinor minor with
  | none => (neg .ENODEV, st)
  | some dev =>
    let (ret, dev) := mtdpartctlChrdevOpen dev
    if ret < 0 then (ret, st)
    else (0, { devs := st.devs.set minor dev, files := st.files ++ [some minor] })

/-- One call: its return value and the class after it. -/
def classCall (env : Env) (st : ClassState) : FileCall → Except Oops (Int × ClassState)
  | .open rdev => pure (mtdpartctlChrdevOpenNode st rdev)
  | .ioctl file cmd =>
    match st.privateData file with
    | none => pure (-9, st)  -- `-EBADF`, before the module is called
    | some k => st.onDevice env k (.ioctl cmd)
  | .release file =>
    match st.privateData file with
    | none => pure (-9, st)
    | some k => do
      let (ret, st) ← st.onDevice env k .release
      return (ret, { st with files := st.files.set file none })
  | .getDevice k => st.onDevice env k .getDevice
  | .putDevice k => st.onDevice env k .putDevice

/-- A class from the creation of its devices on. -/
def classSystem : TransitionSystem ClassState (Env × FileCall) where
  init st := st.files = [] ∧ ∀ dev ∈ st.devs, dev.Created
  step st e := match classCall e.1 st e.2 with
    | .ok (_, st') => some st'
    | .error _ => none

end Mtdpartikr
