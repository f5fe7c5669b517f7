import Mtdpartikr.Client.ConfigFile
import Mtdpartikr.Lib.Strtoul

/-!
# Opening a device by its index

`open_mtdpartctl_device_by_argv_index` of `user/common/dev.c` with its callers in
`user/utests/utest_helper.h`.  `openNode` is `open(2)` with `O_RDWR`: a descriptor, or a negative
number.  `reportsEmpty` is the C library's choice for `strtoul` (see `Lib/Strtoul.lean`).  What the
functions print is left out.
-/

namespace Mtdpartikr.Client

/-- The node of a device: `"/dev/mtdpartctl%lu"`. -/
def devicePath (idx : ℕ) : GoString := ascii "/dev/mtdpartctl" ++ ascii (toString idx)

section Open

variable (reportsEmpty : Bool) (openNode : GoString → Int)

/-- `open_mtdpartctl_device_by_argv_index`; every error returns one. -/
def openMtdpartctlDeviceByArgvIndex (index : GoString) : Int :=
  let idx := strtoul reportsEmpty index
  if idx.failed then 1
  else if idx.rest ≠ [] then 1
  else if 1000 < idx.value then 1
  else
    let fd := openNode (devicePath idx.value.toNat)
    if fd < 0 then 1 else fd

/-- `get_mtdpartctl_device_fd`. -/
def getMtdpartctlDeviceFd (argv : List GoString) : Int :=
  match argv with
  | [_, index] =>
    let fd := openMtdpartctlDeviceByArgvIndex reportsEmpty openNode index
    if fd < 0 then -1 else fd
  -- `argc != 2`
  | _ => -1

/-- `open_mtdpartctl_device_or_exit`: `none` for `exit(1)`. -/
def openMtdpartctlDeviceOrExit (argv : List GoString) : Option Int :=
  let fd := getMtdpartctlDeviceFd reportsEmpty openNode argv
  if fd < 0 then none else some fd

end Open

end Mtdpartikr.Client
