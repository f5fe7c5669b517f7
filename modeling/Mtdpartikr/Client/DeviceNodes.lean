import Mtdpartikr.Client.OpenDevice
import Mtdpartikr.Kernel.OpenFiles

/-!
# The nodes of the control devices

What the `device_create` of `mtdpartctl_device_create` makes, and `open(2)` of it: the two ends
`user/common/dev.c` and `mtdpartctl_chrdev_open` of `kernel/ctrl_dev.c` meet at.
-/

namespace Mtdpartikr.Client

variable {σ : Type}

/-- The node of a device in `/dev`, `"mtdpartctl%d"`, with its device number. -/
def deviceNode (dev : ClassDevice σ) : GoString × DevT :=
  (devicePath (devMinor dev.devno).toNat, dev.devno)

/-- The nodes of a class. -/
def deviceNodes (cls : MtdpartctlDevClass σ) : List (GoString × DevT) :=
  cls.devs.filterMap (·.map deviceNode)

/-- `open(2)` of a path under which there may be one of the nodes; `fd` is the lowest descriptor
that is free. -/
def openNode (nodes : List (GoString × DevT)) (fd : ℕ) (st : ClassState) (path : GoString) :
    Int × ClassState :=
  match nodes.find? fun node => decide (node.1 = path) with
  | none => (neg .ENOENT, st)
  | some node =>
    let (ret, st) := mtdpartctlChrdevOpenNode st node.2
    if ret < 0 then (ret, st) else (fd, st)

end Mtdpartikr.Client
