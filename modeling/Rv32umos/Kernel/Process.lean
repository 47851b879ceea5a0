import Rv32umos.Kernel.Paging

/-!
# Processes: creation, termination and what they own

`process/Process.cpp`, `process/Loader.cpp` and `sync/Mutex.cpp`. `Process::terminate` and
`ProcessManager::killProcess` are only ever called with the pid of a process, so their range check
on the pid never fails and is left out.
-/

namespace Rv32umos

namespace Kernel

/-! ### Mutexes -/

def setMutex (k : Kernel) (pid : Pid) (id : Nat) (m : Mutex) : Kernel :=
  k.modifyProcess pid fun p => { p with mutexList := p.mutexList.set id m }

/-- `Process::createMutex`. -/
def createMutex (k : Kernel) (pid : Pid) : Nat × Kernel :=
  ((k.processList pid).mutexList.length,
    k.modifyProcess pid fun p => { p with mutexList := p.mutexList ++ [{}] })

/-- `Process::getMutex`: the index of the mutex, and its state. -/
def getMutex (k : Kernel) (pid : Pid) (id : Int) : Option (Nat × Mutex) :=
  if id < 0 then none else (k.processList pid).mutexList[id.toNat]?.map fun m => (id.toNat, m)

/-- `Mutex::acquire` on mutex `id` of process `pid`. -/
def acquire (k : Kernel) (pid : Pid) (id : Nat) (m : Mutex) (t : TRef) : Bool × Kernel :=
  if m.locked then
    (false, (k.setState t .BLOCKED).setMutex pid id { m with waitQueue := m.waitQueue ++ [t] })
  else (true, k.setMutex pid id { m with locked := true, owner := some t })

/-- `Mutex::release` on mutex `id` of process `pid`. -/
def release (k : Kernel) (pid : Pid) (id : Nat) (m : Mutex) (t : TRef) : Bool × Kernel :=
  if m.owner ≠ some t then (false, k)
  else
    (true, (m.waitQueue.foldl (fun k t => k.setState t .READY) k).setMutex pid id
      { m with locked := false, owner := none, waitQueue := [] })

/-! ### Threads -/

/-- `Process::createThread`. The new object is entered into `activeThreads` by the caller. -/
def createThread (k : Kernel) (pid : Pid) (entryPC : Addr) (arg : Word) : Option TRef × Kernel :=
  let p := k.processList pid
  if p.threads.length ≥ MAX_THREADS then (none, k)
  else if !p.segments.any fun seg => seg.contains entryPC && seg.flags &&& PF_X != 0 then (none, k)
  else
    let stackSize : Nat := if p.threads.isEmpty then MAIN_STACK_SIZE else THREAD_STACK_SIZE
    let stackTop := p.nextStackBase
    let thread := Thread.new p.threads.length pid entryPC stackTop
    let thread := { thread with regs := thread.regs.write 10 arg }
    let t := k.numThreads
    let k := k.modifyThread t fun _ => thread
    (some t, k.modifyProcess pid fun p =>
      { p with
        nextStackBase := stackTop - BitVec.ofNat 32 stackSize - BitVec.ofNat 32 GUARD_PAGE_SIZE
        threads := p.threads ++ [t] })

/-- `setState(READY)` and `activeThreads.push_back`, which follow every `createThread`. -/
def activateThread (k : Kernel) (t : TRef) : Kernel :=
  { k.setState t .READY with numThreads := k.numThreads + 1 }

/-! ### Files -/

/-- `Process::addFileHandle`: the first free descriptor, `none` for -1. -/
def addFileHandle (k : Kernel) (pid : Pid) (handle : FileHandle) : Option Nat × Kernel :=
  match (List.range FD_TABLE_SIZE).find? fun fd => ((k.processList pid).fdTable fd).isNone with
  | none => (none, k)
  | some fd =>
    (some fd, k.modifyProcess pid fun p => { p with fdTable := Function.update p.fdTable fd (some handle) })

/-- `Process::getFileHandle`: the descriptor as an index, and the handle. -/
def getFileHandle (k : Kernel) (pid : Pid) (fd : Int) : Option (Nat × FileHandle) :=
  if fd < 0 ∨ fd ≥ FD_TABLE_SIZE then none
  else ((k.processList pid).fdTable fd.toNat).map fun handle => (fd.toNat, handle)

/-- `Process::closeFileHandle`. -/
def closeFileHandle (k : Kernel) (pid : Pid) (fd : Int) : Bool × Kernel :=
  match k.getFileHandle pid fd with
  | none => (false, k)
  | some (fd, _) =>
    (true, k.modifyProcess pid fun p => { p with fdTable := Function.update p.fdTable fd none })

/-! ### Heap -/

/-- `Process::sbrk`. -/
def sbrk (k : Kernel) (pid : Pid) (increment : Word) : Addr × Kernel :=
  let oldBreak := (k.processList pid).programBreak
  let newBreak := oldBreak + increment
  if newBreak.toNat < HEAP_START ∨ newBreak.toNat > HEAP_MAX_LIMIT then (0, k)
  else (oldBreak, k.modifyProcess pid fun p => { p with programBreak := newBreak })

/-! ### Lifecycle -/

/-- One iteration of `wipeMemory`. -/
def wipePTE (k : Kernel) (pte : PTE) : Except Halt Kernel :=
  if pte.valid then k.freeFrame (pte.ppn * BitVec.ofNat 32 KERNEL_PAGE_SIZE) else .ok k

/-- `Process::wipeMemory`. -/
def wipeMemory (k : Kernel) (pid : Pid) : Except Halt Kernel :=
  (k.processList pid).pageTable.toList.foldlM (fun k e => k.wipePTE e.2) k

/-- `Process::recycle`. -/
def recycle (k : Kernel) (pid : Pid) (newName : Name) : Except Halt Kernel := do
  let k ← k.wipeMemory pid
  .ok (k.modifyProcess pid fun p =>
    { name := newName
      active := true
      pageTable := .empty
      segments := []
      threads := []
      mutexList := []
      fdTable := fun fd => if fd < 3 then p.fdTable fd else none
      programBreak := BitVec.ofNat 32 HEAP_START
      nextStackBase := BitVec.ofNat 32 STACK_TOP
      instructionsExecuted := 0 })

/-- `Process::terminate`. -/
def terminate (k : Kernel) (pid : Pid) (exitCode : Word) : Except Halt (Bool × Kernel) :=
  if !(k.processList pid).active then .ok (false, k)
  else do
    let k ← k.wipeMemory pid
    -- terminate all threads
    let k := (k.processList pid).threads.foldl (fun k t => k.setState t .TERMINATED) k
    -- cache exit code for any joiners
    let k := { k with exitCodes := Function.update k.exitCodes pid (some exitCode) }
    -- wake up any threads blocked waiting for this process
    let k := (k.processWaiters pid).foldl (fun k t => k.setState t .READY) k
    let k := { k with processWaiters := Function.update k.processWaiters pid [] }
    .ok (true, k.modifyProcess pid fun p => { p with active := false })

/-- `ProcessManager::killProcess`. -/
def killProcess (k : Kernel) (pid : Pid) : Except Halt (Bool × Kernel) := k.terminate pid (-1)

end Kernel

/-! ### The loader -/

namespace Loader

def byteAt (file : List Byte) (pos : Nat) : Byte := file.getD pos 0

/-- A little-endian `uint16_t` of the file. -/
def half (file : List Byte) (pos : Nat) : Half := byteAt file (pos + 1) ++ byteAt file pos

/-- A little-endian `uint32_t` of the file. -/
def word (file : List Byte) (pos : Nat) : Word := half file (pos + 2) ++ half file pos

abbrev EHDR_SIZE : Nat := 52
abbrev PHDR_SIZE : Nat := 32
abbrev PT_LOAD : Word := 1

/-- The header is there and starts with 0x7F 'E' 'L' 'F'. -/
def validHeader (file : List Byte) : Bool :=
  EHDR_SIZE ≤ file.length && file.take 4 == [0x7F, 0x45, 0x4C, 0x46]

def entry (file : List Byte) : Addr := word file 24
def phoff (file : List Byte) : Nat := (word file 28).toNat
def phnum (file : List Byte) : Nat := (half file 44).toNat

/-- The segment of the program header at `pos`. -/
def segmentAt (file : List Byte) (pos : Nat) : Segment where
  vaddr := word file (pos + 8)
  memSize := (word file (pos + 20)).toNat
  fileSize := (word file (pos + 16)).toNat
  fileOffset := (word file (pos + 4)).toNat
  flags := word file (pos + 24)

/-- The loop over the program headers, from `pos` on, `n` to go. A header that runs over the end of
the file leaves the local variable it is read into undefined. -/
def readSegments (file : List Byte) : Nat → Nat → Except Halt (List Segment)
  | 0, _ => .ok []
  | n + 1, pos =>
    if file.length < pos + PHDR_SIZE then .error (.undefined "program header")
    else do
      let rest ← readSegments file n (pos + PHDR_SIZE)
      .ok (if word file pos = PT_LOAD then segmentAt file pos :: rest else rest)

/-- The first slot whose process is not active. -/
def freeSlot (k : Kernel) : Option Pid :=
  (List.finRange MAX_PROCESS).find? fun pid => !(k.processList pid).active

/-- The rest of `loadELF`, once a slot has been recycled. -/
def loadInto (k : Kernel) (file : List Byte) (newPid : Pid) : Except Halt (Option Pid × Kernel) := do
  let segments ← readSegments file (phnum file) (phoff file)
  let k := k.modifyProcess newPid fun p => { p with segments := p.segments ++ segments }
  match k.createThread newPid (entry file) 0 with
  | (none, k) =>
    -- create main thread fails, kill the process
    .ok (none, k.modifyProcess newPid fun p => { p with active := false })
  | (some mainThread, k) => .ok (some newPid, k.activateThread mainThread)

/-- `Loader::loadELF`: the new pid (`none` for -1), and the kernel after the call. -/
def loadELF (k : Kernel) (filename : Name) : Except Halt (Option Pid × Kernel) :=
  match k.host.files filename with
  | none => .ok (none, k)
  | some file =>
    if !validHeader file then .ok (none, k)
    else
      match freeSlot k with
      | none => .ok (none, k)
      | some newPid => do
        let k ← k.recycle newPid filename
        loadInto k file newPid

end Loader

end Rv32umos
