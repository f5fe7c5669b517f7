import Mtdpartikr.Lib.CString
import Mtdpartikr.Lib.Strtoul
import Mtdpartikr.Lib.Layout
import Mtdpartikr.Lib.Packing
import Mtdpartikr.Lib.Transition
import Mtdpartikr.Lib.Simulation
import Mtdpartikr.Lib.Draft
import Mtdpartikr.Lib.Machine
import Mtdpartikr.Lib.Ledger
import Mtdpartikr.Kernel.Types
import Mtdpartikr.Kernel.Uapi
import Mtdpartikr.Kernel.Recipe
import Mtdpartikr.Kernel.Respawn
import Mtdpartikr.Kernel.Ioctl
import Mtdpartikr.Kernel.CopyOut
import Mtdpartikr.Kernel.Mtd
import Mtdpartikr.Kernel.MtdOps
import Mtdpartikr.Kernel.MtdTable
import Mtdpartikr.Kernel.Resources
import Mtdpartikr.Kernel.ProxyMtd
import Mtdpartikr.Kernel.DevClass
import Mtdpartikr.Kernel.Memory
import Mtdpartikr.Kernel.Module
import Mtdpartikr.Kernel.OpenFiles
import Mtdpartikr.Kernel.PartitionService
import Mtdpartikr.Kernel.Equiv.Uapi
import Mtdpartikr.Kernel.Equiv.Recipe
import Mtdpartikr.Kernel.Equiv.Respawn
import Mtdpartikr.Kernel.Equiv.Ioctl
import Mtdpartikr.Kernel.Equiv.DeviceRun
import Mtdpartikr.Kernel.Equiv.Names
import Mtdpartikr.Kernel.Equiv.Batch
import Mtdpartikr.Kernel.Equiv.Capacity
import Mtdpartikr.Kernel.Equiv.Session
import Mtdpartikr.Kernel.Equiv.Listing
import Mtdpartikr.Kernel.Equiv.CopyOut
import Mtdpartikr.Kernel.Equiv.ListingBytes
import Mtdpartikr.Kernel.Equiv.Positions
import Mtdpartikr.Kernel.Equiv.MtdTable
import Mtdpartikr.Kernel.Equiv.DeviceCreate
import Mtdpartikr.Kernel.Equiv.DevClass
import Mtdpartikr.Kernel.Equiv.ClassInit
import Mtdpartikr.Kernel.Equiv.Minors
import Mtdpartikr.Kernel.Equiv.Validation
import Mtdpartikr.Kernel.Equiv.ProxyIo
import Mtdpartikr.Kernel.Equiv.Memory
import Mtdpartikr.Kernel.Equiv.Module
import Mtdpartikr.Kernel.Equiv.OpenFiles
import Mtdpartikr.Kernel.Equiv.PartitionService
import Mtdpartikr.Kernel.Equiv.LiveTable
import Mtdpartikr.Kernel.Equiv.Recovery
import Mtdpartikr.Lib.Threads
import Mtdpartikr.Lib.Progress
import Mtdpartikr.Threads.Program
import Mtdpartikr.Threads.Equiv.Step
import Mtdpartikr.Threads.Equiv.Sequential
import Mtdpartikr.Threads.Equiv.Deadlock
import Mtdpartikr.Threads.Equiv.PartitionService
import Mtdpartikr.Threads.Equiv.LiveTable
import Mtdpartikr.Threads.Equiv.Held
import Mtdpartikr.Threads.Equiv.Progress
import Mtdpartikr.Threads.Equiv.Readers
import Mtdpartikr.Threads.Equiv.Refcnt
import Mtdpartikr.Threads.Equiv.Isolation
import Mtdpartikr.Threads.Unload
import Mtdpartikr.Threads.Equiv.Unload
import Mtdpartikr.Client.Wrappers
import Mtdpartikr.Client.ConfigFile
import Mtdpartikr.Client.OpenDevice
import Mtdpartikr.Client.DeviceNodes
import Mtdpartikr.Client.HumanBytes
import Mtdpartikr.Client.Repl
import Mtdpartikr.Client.Main
import Mtdpartikr.Client.Equiv.RecipeFlags
import Mtdpartikr.Client.Equiv.Wrappers
import Mtdpartikr.Client.Equiv.ConfigFile
import Mtdpartikr.Client.Equiv.PowerupLock
import Mtdpartikr.Client.Equiv.OpenDevice
import Mtdpartikr.Client.Equiv.DeviceNodes
import Mtdpartikr.Client.Equiv.HumanBytes
import Mtdpartikr.Client.Equiv.LiveTable
import Mtdpartikr.Client.Equiv.Repl
import Mtdpartikr.Client.Equiv.DelRecipePart
import Mtdpartikr.Client.Equiv.RecipeStatus
import Mtdpartikr.Client.Equiv.Main
import Mtdpartikr.Client.Equiv.ExitStatus
import Mtdpartikr.Client.Equiv.TypedConfig
import Mtdpartikr.Client.Equiv.ShownRows
