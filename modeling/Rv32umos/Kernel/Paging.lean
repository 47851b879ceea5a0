import Rv32umos.Kernel.State

/-!
# Demand paging

`memory/VirtualMemoryManager.cpp`: serving a page fault (swap-in, stack growth, lazy loading of a
segment, heap growth, in this order), allocating a frame, and evicting a page when RAM is full.

`operator[]` of a page table inserts a default entry where there is none; `handlePageFault` does so
for the faulting page before it looks at anything, so the handlers read the entry with `pte`.
-/

namespace Rv32umos

namespace Memory

/-- `for (i = 0; i < KERNEL_PAGE_SIZE; ++i) buffer[i] = load(paddr + i, 1)`. -/
def loadPage (m : Memory) (paddr : Addr) : Except Halt (List Byte) :=
  (List.range KERNEL_PAGE_SIZE).mapM fun i => do
    let w ← m.load (paddr + BitVec.ofNat 32 i) 1
    .ok (w.setWidth 8)

/-- `for (i = 0; i < KERNEL_PAGE_SIZE; ++i) store(paddr + i, 1, value i)`. -/
def storePage (m : Memory) (paddr : Addr) (value : Nat → Word) : Except Halt Memory :=
  (List.range KERNEL_PAGE_SIZE).foldlM
    (fun m i => m.store (paddr + BitVec.ofNat 32 i) 1 (value i)) m

end Memory

/-- `processList[pid]` for an `int`. -/
def Pid.ofInt? (pid : Int) : Option Pid :=
  if h : 0 ≤ pid ∧ pid.toNat < MAX_PROCESS then some ⟨pid.toNat, h.2⟩ else none

namespace Kernel

/-- `(*process->getPageTable())[vpn]`. -/
def pte (k : Kernel) (pid : Pid) (vpn : Addr) : PTE := (k.processList pid).pageTable.entry vpn

def setPTE (k : Kernel) (pid : Pid) (vpn : Addr) (pte : PTE) : Kernel :=
  k.modifyProcess pid fun p => { p with pageTable := p.pageTable.set vpn pte }

/-- `K_PMM->freeFrame`. -/
def freeFrame (k : Kernel) (frame : Addr) : Except Halt Kernel := do
  let pmm ← k.pmm.freeFrame frame
  .ok { k with pmm }

/-- A clean page is dropped: its entry forgets it, and its frame is free. -/
def dropPage (k : Kernel) (owner : Pid) (vpn paddr : Addr) : Except Halt Kernel :=
  let pte := k.pte owner vpn
  (k.setPTE owner vpn { pte with valid := false, swapped := false, ppn := 0 }).freeFrame paddr

/-- A data page is written to the swap area: its entry keeps the slot in `ppn`. -/
def swapOutPage (k : Kernel) (owner : Pid) (vpn paddr : Addr) : Except Halt Kernel := do
  let pte := k.pte owner vpn
  let buffer ← k.memory.loadPage paddr
  let (slot, swap, disk) := k.swap.swapOut k.disk buffer
  match slot with
  | none => .error (.panic "Swap Full!")
  | some slot =>
    ({ k with swap, disk }.setPTE owner vpn
      { pte with valid := false, swapped := true, ppn := BitVec.ofNat 32 slot, dirty := false }).freeFrame
      paddr

def evictPage (k : Kernel) : Except Halt Kernel :=
  let (found, prp) := k.prp.findVictim k.pmm.frameTable
  let k := { k with prp }
  match found with
  | none => .error (.panic "OOM and no victim frame found!")
  | some victimPPN =>
    let info := k.pmm.frameTable victimPPN
    match Pid.ofInt? info.ownerPid with
    | none => .error (.undefined "processList index")
    | some owner =>
      let pte := k.pte owner info.vpn
      let paddr : Addr := BitVec.ofNat 32 (victimPPN * KERNEL_PAGE_SIZE)
      -- read only section or clean page, load from file
      if !pte.canWrite || (!pte.dirty && !pte.swapped) then k.dropPage owner info.vpn paddr
      else k.swapOutPage owner info.vpn paddr

/-- The rest of `VirtualMemoryManager::allocateFrame`, once there is a frame. -/
def registerFrame (k : Kernel) (pid : Pid) (vpn paddr : Addr) : Except Halt Kernel := do
  let ppn := paddr >>> 12
  let pmm ← k.pmm.registerFrameOwner ppn vpn pid.val
  .ok { k with pmm, prp := k.prp.onAllocate ppn.toNat }

/-- `VirtualMemoryManager::allocateFrame`. -/
def allocateFrame (k : Kernel) (pid : Pid) (vpn : Addr) : Except Halt (Addr × Kernel) :=
  match k.pmm.allocateFrame with
  | (some paddr, pmm) => do
    let k ← { k with pmm }.registerFrame pid vpn paddr
    .ok (paddr, k)
  | (none, _) => do
    -- full, must evict and try again
    let k ← k.evictPage
    match k.pmm.allocateFrame with
    | (some paddr, pmm) => do
      let k ← { k with pmm }.registerFrame pid vpn paddr
      .ok (paddr, k)
    | (none, _) => .error (.panic "Out of memory after eviction!")

/-- `handleSwapIn`, past its test. -/
def swapInPage (k : Kernel) (pid : Pid) (vpn : Addr) : Except Halt Kernel := do
  let (newPAddr, k) ← k.allocateFrame pid vpn
  let pte := k.pte pid vpn
  -- the buffer and the swap manager after `swapIn`
  let read := k.swap.swapIn k.disk (List.replicate KERNEL_PAGE_SIZE 0) pte.ppn.toInt
  let memory ← k.memory.storePage newPAddr fun i => (read.1.getD i 0).setWidth 32
  .ok ({ k with swap := read.2, memory }.setPTE pid vpn
    { pte with ppn := newPAddr >>> 12, valid := true, referenced := true, dirty := false })

def handleSwapIn (k : Kernel) (pid : Pid) (vpn : Addr) : Except Halt (Bool × Kernel) :=
  let pte := k.pte pid vpn
  if pte.swapped && !pte.valid then do
    let k ← k.swapInPage pid vpn
    .ok (true, k)
  else .ok (false, k)

/-- `faultAddr` lies in the stack of the thread. -/
def inStack (k : Kernel) (faultAddr : Addr) (t : TRef) : Bool :=
  let stackTop := (k.thread t).stackTop
  let stackSize : Nat := if (k.thread t).tid = 0 then MAIN_STACK_SIZE else THREAD_STACK_SIZE
  let stackBottom := stackTop - BitVec.ofNat 32 stackSize
  faultAddr ≥ stackBottom && faultAddr < stackTop

/-- The entry of a fresh stack or heap page. -/
def mapReadWrite (k : Kernel) (pid : Pid) (vpn paddr : Addr) : Kernel :=
  k.setPTE pid vpn
    { k.pte pid vpn with
      ppn := paddr >>> 12, valid := true, canRead := true, canWrite := true, referenced := true }

def handleStackGrowth (k : Kernel) (pid : Pid) (faultAddr vpn : Addr) :
    Except Halt (Bool × Kernel) :=
  -- not even a stack region
  if faultAddr.toNat < STACK_REGION_BOTTOM ∨ faultAddr.toNat ≥ STACK_TOP then .ok (false, k)
  else if (k.processList pid).threads.any (k.inStack faultAddr) then do
    let (paddr, k) ← k.allocateFrame pid vpn
    .ok (true, k.mapReadWrite pid vpn paddr)
  else .ok (false, k)

def handleHeapGrowth (k : Kernel) (pid : Pid) (faultAddr vpn : Addr) :
    Except Halt (Bool × Kernel) :=
  if faultAddr.toNat ≥ HEAP_START ∧ faultAddr < (k.processList pid).programBreak then do
    let (paddr, k) ← k.allocateFrame pid vpn
    let memory ← k.memory.storePage paddr fun _ => 0
    .ok (true, { k with memory }.mapReadWrite pid vpn paddr)
  else .ok (false, k)

/-- Byte `i` of the `buffer` of `handleLazyLoading`: a byte of the file, or 0 past the file size of
the segment, past the end of the file, or when the host has no such file. -/
def imageByte (k : Kernel) (pid : Pid) (seg : Segment) (vpn : Addr) (i : Nat) : Byte :=
  let pageStartVAddr : Addr := vpn * BitVec.ofNat 32 KERNEL_PAGE_SIZE
  let offsetInSegment := (pageStartVAddr - seg.vaddr).toNat
  let filePos := seg.fileOffset + offsetInSegment
  if offsetInSegment < seg.fileSize ∧ i < min KERNEL_PAGE_SIZE (seg.fileSize - offsetInSegment) then
    match k.host.files (k.processList pid).name with
    | none => 0
    | some bytes => bytes.getD (filePos + i) 0
  else 0

def handleLazyLoading (k : Kernel) (pid : Pid) (faultAddr vpn : Addr) :
    Except Halt (Bool × Kernel) :=
  match (k.processList pid).segments.find? (·.contains faultAddr) with
  | none => .ok (false, k)
  | some seg => do
    let (paddr, k) ← k.allocateFrame pid vpn
    -- `static_cast<Word>` of a `char` extends its sign
    let memory ← k.memory.storePage paddr fun i => (k.imageByte pid seg vpn i).signExtend 32
    let pte := { k.pte pid vpn with ppn := paddr >>> 12, valid := true, referenced := true }
    .ok (true, { k with memory }.setPTE pid vpn (pte.setPTEFlagsFromElf seg.flags))

/-- `VirtualMemoryManager::handlePageFault` for the process of the current thread. -/
def servePageFault (k : Kernel) (pid : Pid) (faultAddr : Addr) : Except Halt (Bool × Kernel) :=
  let vpn := faultAddr >>> 12
  let k := k.setPTE pid vpn (k.pte pid vpn)
  -- faulting when the pte clearly still exists, it's a permission error
  if (k.pte pid vpn).valid then .ok (false, k)
  else do
    let (handled, k) ← k.handleSwapIn pid vpn
    if handled then .ok (true, k)
    else
      let (handled, k) ← k.handleStackGrowth pid faultAddr vpn
      if handled then .ok (true, k)
      else
        let (handled, k) ← k.handleLazyLoading pid faultAddr vpn
        if handled then .ok (true, k)
        else k.handleHeapGrowth pid faultAddr vpn

end Kernel

end Rv32umos
