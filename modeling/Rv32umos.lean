import Rv32umos.Isa.Harts
import Rv32umos.Vm.Executor
import Rv32umos.Vm.Decode
import Rv32umos.Vm.MemoryFacts
import Rv32umos.Vm.Refinement
import Rv32umos.Vm.CrossPage
import Rv32umos.Lib.Transition
import Rv32umos.Lib.FlatMemory
import Rv32umos.Storage.Layout
import Rv32umos.Kernel.Run
import Rv32umos.Kernel.Lifecycle
import Rv32umos.Kernel.PagingFacts
import Rv32umos.Kernel.UserAccess
import Rv32umos.Kernel.Image
import Rv32umos.Kernel.Coherence
import Rv32umos.Kernel.PagingRun
import Rv32umos.Kernel.Simulation
import Rv32umos.Kernel.Placement
import Rv32umos.Kernel.ThreadRun
import Rv32umos.Kernel.Context
import Rv32umos.Kernel.Quiet
import Rv32umos.Kernel.SameFrames
import Rv32umos.Kernel.Ownership
import Rv32umos.Storage.FileStore
import Rv32umos.Kernel.Termination
import Rv32umos.Kernel.Joins
import Rv32umos.Kernel.Residue
import Rv32umos.Kernel.Reaping
import Rv32umos.Kernel.Recycling
import Rv32umos.Lib.Holdings
import Rv32umos.Kernel.SwapSlots
import Rv32umos.Kernel.RoundRobin
import Rv32umos.Kernel.Fairness
import Rv32umos.Lib.StaleQueue
import Rv32umos.Kernel.FramePool
import Rv32umos.Kernel.Replacement
import Rv32umos.User.Stdio
import Rv32umos.User.Heap
import Rv32umos.Vm.Acceptance
import Rv32umos.Vm.Faults
import Rv32umos.Vm.Restart
import Rv32umos.Vm.Crashes
import Rv32umos.Kernel.Retry
import Rv32umos.Kernel.SamePages
import Rv32umos.Kernel.Pool
import Rv32umos.Kernel.Halts
import Rv32umos.Kernel.Regions
import Rv32umos.Kernel.AddressSpace
import Rv32umos.Kernel.UserStep
import Rv32umos.Kernel.MemoryCalls
import Rv32umos.Kernel.FlatSystem
import Rv32umos.Kernel.Isolation
