import Rv32umos.Vm.Executor
import Rv32umos.Storage.Files

/-!
# The state of the kernel

The records of `thread/Thread.hpp`, `sync/Mutex.hpp`, `process/Process.hpp`,
`process/ProcessManager.hpp`, `memory/PhysicalMemoryManager.hpp` and
`memory/PageReplacementPolicy.hpp`, and `Kernel`, which holds one of each together with the devices
of the HAL and the host.

Pointers are names: a `Process*` is a `Pid`, a `Thread*` a `TRef`, and the MMU's `PageTable*` is the
pid of the process that owns the table. `Kernel.machine` follows the MMU's pointers, so that the
functions of the virtual machine run on it; `Kernel.withMachine` writes the result back.
-/

namespace Rv32umos

inductive ThreadState where
  | NEW
  | READY
  | RUNNING
  | BLOCKED
  | TERMINATED
  deriving DecidableEq, Repr

/-- `Thread::TCB`. The exit code, an `int`, is kept as the register's word. -/
structure Thread where
  joiner : Option TRef
  hasBeenJoined : Bool
  tid : Nat
  exitCode : Word
  state : ThreadState
  pc : Addr
  regs : RegFile
  parent : Pid
  stackTop : Addr

def Thread.new (tid : Nat) (parent : Pid) (entry stack : Addr) : Thread where
  joiner := none
  hasBeenJoined := false
  tid := tid
  exitCode := 0
  state := .NEW
  pc := entry
  regs := RegFile.reset.write 2 stack
  parent := parent
  stackTop := stack

structure Mutex where
  owner : Option TRef := none
  waitQueue : List TRef := []
  locked : Bool := false
  deriving DecidableEq, Repr

structure Segment where
  vaddr : Addr
  memSize : Nat
  fileSize : Nat
  fileOffset : Nat
  flags : Word
  deriving DecidableEq, Repr

/-- `addr >= seg.vaddr && addr < seg.vaddr + seg.memSize`, the sum in `size_t`. -/
def Segment.contains (seg : Segment) (addr : Addr) : Bool :=
  seg.vaddr.toNat ≤ addr.toNat && addr.toNat < seg.vaddr.toNat + seg.memSize

/-- `Process::PCB`; its pid is its index in `processList`. -/
structure Process where
  name : Name
  active : Bool
  pageTable : PageTable
  segments : List Segment
  threads : List TRef
  mutexList : List Mutex
  fdTable : Nat → Option FileHandle
  programBreak : Addr
  nextStackBase : Addr
  /-- For statistics. -/
  instructionsExecuted : Nat

def Process.new (name : Name) : Process where
  name := name
  active := false
  pageTable := .empty
  segments := []
  threads := []
  mutexList := []
  fdTable fd :=
    if fd = 0 then some (.console Console.STDIN)
    else if fd = 1 then some (.console Console.STDOUT)
    else if fd = 2 then some (.console Console.STDERR)
    else none
  programBreak := BitVec.ofNat 32 HEAP_START
  nextStackBase := BitVec.ofNat 32 STACK_TOP
  instructionsExecuted := 0

structure FrameInfo where
  ownerPid : Int := 0
  vpn : Addr := 0
  allocated : Bool := false
  deriving DecidableEq, Repr

def FrameInfo.clear : FrameInfo := { ownerPid := -1, vpn := 0, allocated := false }

/-- `freeFrames` is listed with the back of the vector first. -/
structure PhysicalMemoryManager where
  freeFrames : List Addr
  frameTable : Nat → FrameInfo

namespace PhysicalMemoryManager

/-- `init`. -/
def new : PhysicalMemoryManager where
  freeFrames := ((List.range NUM_FRAMES).map fun i =>
    BitVec.ofNat 32 (MEMORY_BASE + i * KERNEL_PAGE_SIZE)).reverse
  frameTable _ := {}

def allocateFrame (pmm : PhysicalMemoryManager) : Option Addr × PhysicalMemoryManager :=
  match pmm.freeFrames with
  | [] => (none, pmm)
  | frame :: rest => (some frame, { pmm with freeFrames := rest })

def freeFrame (pmm : PhysicalMemoryManager) (frame : Addr) : Except Halt PhysicalMemoryManager :=
  let ppn := (frame >>> 12).toNat
  if ppn ≥ NUM_FRAMES then .error (.panic "PPN Out of Bound!")
  else .ok
    { freeFrames := frame :: pmm.freeFrames
      frameTable := Function.update pmm.frameTable ppn FrameInfo.clear }

def registerFrameOwner (pmm : PhysicalMemoryManager) (ppn vpn : Addr) (ownerPid : Int) :
    Except Halt PhysicalMemoryManager :=
  if ppn.toNat ≥ NUM_FRAMES then .error (.panic "PPN Out of Bound!")
  else .ok
    { pmm with
      frameTable := Function.update pmm.frameTable ppn.toNat { ownerPid, vpn, allocated := true } }

end PhysicalMemoryManager

/-- The queue of `FIFOPolicy`, front first. -/
structure FIFOPolicy where
  queue : List Nat

namespace FIFOPolicy

def onAllocate (prp : FIFOPolicy) (ppn : Nat) : FIFOPolicy := ⟨prp.queue ++ [ppn]⟩

/-- The loop of `findVictim`: the victim (`none` for -1) and the queue that is left. -/
def popVictim (frameTable : Nat → FrameInfo) : List Nat → Option Nat × List Nat
  | [] => (none, [])
  | victim :: rest =>
    if (frameTable victim).allocated then (some victim, rest) else popVictim frameTable rest

def findVictim (prp : FIFOPolicy) (frameTable : Nat → FrameInfo) : Option Nat × FIFOPolicy :=
  ((popVictim frameTable prp.queue).1, ⟨(popVictim frameTable prp.queue).2⟩)

end FIFOPolicy

/-- The machine without what it points to. -/
structure Cpu where
  regs : RegFile
  pc : Addr
  trap : Trap
  vmEnabled : Bool
  fault : Bool
  faultAddr : Addr
  currentTable : Option Pid

structure Host where
  files : Name → Option (List Byte)
  console : Console

structure Kernel where
  cpu : Cpu
  memory : Memory
  disk : InMemoryDisk
  pmm : PhysicalMemoryManager
  prp : FIFOPolicy
  swap : SwapManager
  vfs : StubFileSystem
  exitCodes : Pid → Option Word
  processWaiters : Pid → List TRef
  processList : Pid → Process
  /-- `*activeThreads[t]`, for `t` below `numThreads`. -/
  thread : TRef → Thread
  numThreads : Nat
  currentThreadIndex : Option TRef
  host : Host

namespace Kernel

/-- `RV32UMOS::init`. -/
def init (host : Host) : Kernel where
  cpu :=
    { regs := .reset, pc := 0, trap := {}, vmEnabled := false, fault := false, faultAddr := 0
      currentTable := none }
  memory := .zero
  disk := .new
  pmm := .new
  prp := ⟨[]⟩
  swap := .new
  vfs := .new
  exitCodes _ := none
  processWaiters _ := []
  processList _ := .new []
  thread _ := .new 0 0 0 0
  numThreads := 0
  currentThreadIndex := none
  host := host

def modifyProcess (k : Kernel) (pid : Pid) (f : Process → Process) : Kernel :=
  { k with processList := Function.update k.processList pid (f (k.processList pid)) }

def modifyThread (k : Kernel) (t : TRef) (f : Thread → Thread) : Kernel :=
  { k with thread := Function.update k.thread t (f (k.thread t)) }

/-- `thread->setState(state)`. -/
def setState (k : Kernel) (t : TRef) (state : ThreadState) : Kernel :=
  k.modifyThread t fun thread => { thread with state }

theorem modifyProcess_self (k : Kernel) (pid : Pid) (f : Process → Process) :
    (k.modifyProcess pid f).processList pid = f (k.processList pid) :=
  Function.update_self _ _ _

theorem modifyProcess_ne (k : Kernel) {pid pid' : Pid} (f : Process → Process) (h : pid' ≠ pid) :
    (k.modifyProcess pid f).processList pid' = k.processList pid' :=
  Function.update_of_ne h _ _

theorem modifyThread_self (k : Kernel) (t : TRef) (f : Thread → Thread) :
    (k.modifyThread t f).thread t = f (k.thread t) :=
  Function.update_self _ _ _

theorem modifyThread_ne (k : Kernel) {t t' : TRef} (f : Thread → Thread) (h : t' ≠ t) :
    (k.modifyThread t f).thread t' = k.thread t' :=
  Function.update_of_ne h _ _

/-- `ProcessManager::getCurrentThread`. -/
def getCurrentThread (k : Kernel) : Except Halt TRef :=
  match k.currentThreadIndex with
  | none => .error (.panic "Current thread index is -1")
  | some t =>
    if t ≥ k.numThreads then .error (.panic "Current thread index out of bound") else .ok t

/-! ### The machine inside the kernel -/

/-- The machine, with the MMU's pointers followed. -/
def machine (k : Kernel) : Machine where
  regs := k.cpu.regs
  mmu :=
    { memory := k.memory
      currentTable := k.cpu.currentTable.map fun pid => (k.processList pid).pageTable
      vmEnabled := k.cpu.vmEnabled
      fault := k.cpu.fault
      faultAddr := k.cpu.faultAddr }
  pc := k.cpu.pc
  trap := k.cpu.trap

/-- The page table that the MMU works on is the one in the process. -/
def withTable (k : Kernel) : Option PageTable → Kernel
  | none => k
  | some table =>
    match k.cpu.currentTable with
    | none => k
    | some pid => k.modifyProcess pid fun p => { p with pageTable := table }

/-- The kernel after its machine has become `cpu`. -/
def withMachine (k : Kernel) (cpu : Machine) : Kernel :=
  { k.withTable cpu.mmu.currentTable with
    cpu :=
      { regs := cpu.regs
        pc := cpu.pc
        trap := cpu.trap
        vmEnabled := cpu.mmu.vmEnabled
        fault := cpu.mmu.fault
        faultAddr := cpu.mmu.faultAddr
        currentTable := k.cpu.currentTable }
    memory := cpu.mmu.memory }

/-- `CPU_HAL->loadVirtualMemory`. -/
def loadVirtualMemory (k : Kernel) (vaddr : Addr) (size : Nat) : Except Halt (Word × Kernel) := do
  let (val, cpu) ← k.machine.loadVirtualMemory vaddr size
  .ok (val, k.withMachine cpu)

/-- `CPU_HAL->storeVirtualMemory`. -/
def storeVirtualMemory (k : Kernel) (vaddr : Addr) (size : Nat) (value : Word) :
    Except Halt Kernel := do
  let cpu ← k.machine.storeVirtualMemory vaddr size value
  .ok (k.withMachine cpu)

/-- `CPU_HAL->writeReg`. -/
def writeReg (k : Kernel) (index : Nat) (value : Word) : Kernel :=
  { k with cpu := { k.cpu with regs := k.cpu.regs.write index value } }

/-- `CPU_HAL->clearTrap`. -/
def clearTrap (k : Kernel) : Kernel := { k with cpu := { k.cpu with trap := {} } }

/-- `CPU_HAL->advancePC`. -/
def advancePC (k : Kernel) : Kernel := { k with cpu := { k.cpu with pc := k.cpu.pc + 4 } }

end Kernel

end Rv32umos
