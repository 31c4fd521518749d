import Ossim.Library.CopyLoop
import Ossim.Library.FrontArray
import Ossim.Library.Ledger
import Ossim.Library.LinkedCells
import Ossim.Library.PointerTree
import Ossim.Library.Rounds
import Ossim.Library.Scan
import Ossim.Library.Transition
import Ossim.Library.TreeDecoding
import Ossim.Library.TreeRelease
import Ossim.Library.WordFields
import Ossim.Memory.EntryFormat
import Ossim.Memory.FirstFit
import Ossim.Memory.FlatTable
import Ossim.Memory.FrameNodeRuns
import Ossim.Memory.GrowthOutcome
import Ossim.Memory.RegionNodeRuns
import Ossim.Kernel.Accounting
import Ossim.Kernel.AddressSpace
import Ossim.Kernel.Allocation
import Ossim.Kernel.Attendance
import Ossim.Kernel.Budgets
import Ossim.Kernel.Classification
import Ossim.Kernel.Copies
import Ossim.Kernel.CopyThrough
import Ossim.Kernel.DummyMapping
import Ossim.Kernel.Overrun
import Ossim.Kernel.FaultRollback
import Ossim.Kernel.Frames
import Ossim.Kernel.Indices
import Ossim.Kernel.Isolation
import Ossim.Kernel.KernelPool
import Ossim.Kernel.Liveness
import Ossim.Kernel.Loader
import Ossim.Kernel.Lockstep
import Ossim.Kernel.QueueArrays
import Ossim.Kernel.QueueOrder
import Ossim.Kernel.Readback
import Ossim.Kernel.Replacement
import Ossim.Kernel.Shutdown
import Ossim.Kernel.Slab
import Ossim.Kernel.Startup
import Ossim.Kernel.Throughput
import Ossim.Kernel.VirtualBytes
import Ossim.Kernel.Virtualization
