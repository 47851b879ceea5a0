import Rv32umos.Kernel.Scheduler

/-!
# System calls

`syscall/SyscallHandler.cpp`. User memory is read and written through the machine, one byte or word
at a time; where a page is not resident the machine records a trap, a load yields 0 and a store does
nothing, and the handler goes on.
-/

namespace Rv32umos

structure SyscallContext where
  id : Word
  arg0 : Word
  arg1 : Word
  arg2 : Word
  deriving DecidableEq, Repr

structure SyscallResult where
  returnValue : Word := 0
  hasReturnValue : Bool := true
  error : Bool := false
  needReschedule : Bool := false
  advancePC : Bool := true
  deriving DecidableEq, Repr

namespace SyscallID

@[match_pattern] abbrev SYS_EXIT : Nat := 0
@[match_pattern] abbrev SYS_WRITE : Nat := 1
@[match_pattern] abbrev SYS_READ : Nat := 2
@[match_pattern] abbrev SYS_THREAD_CREATE : Nat := 3
@[match_pattern] abbrev SYS_THREAD_EXIT : Nat := 4
@[match_pattern] abbrev SYS_THREAD_JOIN : Nat := 5
@[match_pattern] abbrev SYS_MUTEX_CREATE : Nat := 6
@[match_pattern] abbrev SYS_MUTEX_LOCK : Nat := 7
@[match_pattern] abbrev SYS_MUTEX_UNLOCK : Nat := 8
@[match_pattern] abbrev SYS_OPEN : Nat := 9
@[match_pattern] abbrev SYS_CLOSE : Nat := 10
@[match_pattern] abbrev SYS_CREATE : Nat := 11
@[match_pattern] abbrev SYS_SBRK : Nat := 12
@[match_pattern] abbrev SYS_CREATE_PROCESS : Nat := 13
@[match_pattern] abbrev SYS_JOIN_PROCESS : Nat := 14

end SyscallID

namespace SyscallHandler

open Kernel

/-- A call that blocks or ends the current thread: no return value, and the pc stays. -/
def suspend : SyscallResult := { needReschedule := true, advancePC := false, hasReturnValue := false }

/-! ### User memory -/

/-- The byte loop of `handleWrite`: bytes `i .. i + n - 1` of the user's buffer. -/
def copyIn (addr : Word) : Nat → Nat → Kernel → Except Halt (List Byte × Kernel)
  | 0, _, k => .ok ([], k)
  | n + 1, i, k => do
    let (c, k) ← k.loadVirtualMemory (addr + BitVec.ofNat 32 i) 1
    let (rest, k) ← copyIn addr n (i + 1) k
    .ok (c.setWidth 8 :: rest, k)

/-- The byte loop of `handleRead`, from byte `i` on. -/
def copyOut (addr : Word) : List Byte → Nat → Kernel → Except Halt Kernel
  | [], _, k => .ok k
  | byte :: rest, i, k => do
    let k ← k.storeVirtualMemory (addr + BitVec.ofNat 32 i) 1 (byte.setWidth 32)
    copyOut addr rest (i + 1) k

/-- The loop that reads a path, from `offset` on, at most `n` more bytes. -/
def readPath (pathAddr : Word) : Nat → Nat → Kernel → Except Halt (Name × Kernel)
  | 0, _, k => .ok ([], k)
  | n + 1, offset, k => do
    let (w, k) ← k.loadVirtualMemory (pathAddr + BitVec.ofNat 32 offset) 1
    let c : Byte := w.setWidth 8
    if c = 0 then .ok ([], k)
    else do
      let (rest, k) ← readPath pathAddr n (offset + 1) k
      .ok (c :: rest, k)

/-- The path at `pathAddr`: the loop stops once `offset > MAX_FILE_NAME_LENGTH`. -/
def readFilename (k : Kernel) (pathAddr : Word) : Except Halt (Name × Kernel) :=
  readPath pathAddr (MAX_FILE_NAME_LENGTH + 1) 0 k

/-! ### Threads -/

def handleThreadJoin (k : Kernel) (ctx : SyscallContext) : Except Halt (SyscallResult × Kernel) := do
  let current ← k.getCurrentThread
  let process := k.processList (k.thread current).parent
  match process.threads.find? fun t => ((k.thread t).tid : Int) = ctx.arg0.toInt with
  | none => .ok ({ returnValue := -1 }, k)
  | some targetThread =>
    if (k.thread targetThread).tid = (k.thread current).tid then .ok ({ returnValue := -1 }, k)
    else if (k.thread targetThread).hasBeenJoined then .ok ({ returnValue := -1 }, k)
    else
      let k := k.modifyThread targetThread fun thread => { thread with hasBeenJoined := true }
      -- target already dead, return success and continue
      if (k.thread targetThread).state = .TERMINATED then
        .ok ({ returnValue := (k.thread targetThread).exitCode }, k)
      else
        let k := k.modifyThread targetThread fun thread => { thread with joiner := some current }
        .ok (suspend, k.setState current .BLOCKED)

/-- The joiner becomes READY with the exit code in its saved `a0`, past its `ecall`. -/
def wakeJoiner (k : Kernel) (joiner : TRef) (exitCode : Word) : Kernel :=
  k.modifyThread joiner fun thread =>
    { thread with state := .READY, regs := thread.regs.write 10 exitCode, pc := thread.pc + 4 }

def handleThreadExit (k : Kernel) (ctx : SyscallContext) : Except Halt (SyscallResult × Kernel) := do
  let exitCode := ctx.arg0
  let current ← k.getCurrentThread
  let k := k.modifyThread current fun thread => { thread with state := .TERMINATED, exitCode }
  match (k.thread current).joiner with
  | none => .ok (suspend, k)
  | some joiner => .ok (suspend, wakeJoiner k joiner exitCode)

def handleThreadCreate (k : Kernel) (ctx : SyscallContext) :
    Except Halt (SyscallResult × Kernel) := do
  let current ← k.getCurrentThread
  match k.createThread (k.thread current).parent ctx.arg0 ctx.arg1 with
  | (none, k) => .ok ({ returnValue := -1 }, k)
  | (some newThread, k) =>
    let k := k.activateThread newThread
    .ok ({ returnValue := BitVec.ofNat 32 (k.thread newThread).tid }, k)

/-! ### Files -/

/-- `handle->write(buffer, count)` through descriptor `fd` of process `pid`. -/
def writeHandle (k : Kernel) (pid : Pid) (fd : Nat) (handle : FileHandle) (buffer : List Byte)
    (count : Nat) : Int × Kernel :=
  match handle with
  | .console hostFD =>
    let (written, console) := k.host.console.write hostFD buffer count
    (written, { k with host := { k.host with console } })
  | .disk h =>
    let (written, disk, h) := h.write k.disk buffer count
    (written, { k with disk }.modifyProcess pid fun p =>
      { p with fdTable := Function.update p.fdTable fd (some (.disk h)) })

/-- `handle->read(buffer, count)` through descriptor `fd` of process `pid`. -/
def readHandle (k : Kernel) (pid : Pid) (fd : Nat) (handle : FileHandle) (buffer : List Byte)
    (count : Nat) : Int × List Byte × Kernel :=
  match handle with
  | .console hostFD =>
    let (bytesRead, buffer, console) := k.host.console.read hostFD buffer count
    (bytesRead, buffer, { k with host := { k.host with console } })
  | .disk h =>
    let (bytesRead, buffer, h) := h.read k.disk buffer count
    (bytesRead, buffer, k.modifyProcess pid fun p =>
      { p with fdTable := Function.update p.fdTable fd (some (.disk h)) })

def handleWrite (k : Kernel) (ctx : SyscallContext) : Except Halt (SyscallResult × Kernel) := do
  let current ← k.getCurrentThread
  let pid := (k.thread current).parent
  match k.getFileHandle pid ctx.arg0.toInt with
  | none => .ok ({ returnValue := -1 }, k)
  | some (fd, handle) =>
    let count := ctx.arg2.toNat
    let (buffer, k) ← copyIn ctx.arg1 count 0 k
    let (written, k) := writeHandle k pid fd handle buffer count
    .ok ({ returnValue := BitVec.ofInt 32 written }, k)

def handleRead (k : Kernel) (ctx : SyscallContext) : Except Halt (SyscallResult × Kernel) := do
  let current ← k.getCurrentThread
  let pid := (k.thread current).parent
  match k.getFileHandle pid ctx.arg0.toInt with
  | none => .ok ({ returnValue := -1 }, k)
  | some (fd, handle) =>
    let count := ctx.arg2.toNat
    let (bytesRead, buffer, k) := readHandle k pid fd handle (List.replicate count 0) count
    -- copy back to user memory
    let k ← if bytesRead > 0 then copyOut ctx.arg1 (buffer.take bytesRead.toNat) 0 k else .ok k
    .ok ({ returnValue := BitVec.ofInt 32 bytesRead }, k)

def handleOpen (k : Kernel) (ctx : SyscallContext) : Except Halt (SyscallResult × Kernel) := do
  let (filename, k) ← readFilename k ctx.arg0
  match k.vfs.openFile filename with
  | none => .ok ({ returnValue := -1 }, k)
  | some handle =>
    let current ← k.getCurrentThread
    match k.addFileHandle (k.thread current).parent (.disk handle) with
    | (none, k) => .ok ({ returnValue := -1 }, k)
    | (some fd, k) => .ok ({ returnValue := BitVec.ofNat 32 fd }, k)

def handleClose (k : Kernel) (ctx : SyscallContext) : Except Halt (SyscallResult × Kernel) := do
  let current ← k.getCurrentThread
  let (ok, k) := k.closeFileHandle (k.thread current).parent ctx.arg0.toInt
  .ok ({ returnValue := if ok then 0 else 1 }, k)

def handleCreate (k : Kernel) (ctx : SyscallContext) : Except Halt (SyscallResult × Kernel) := do
  let (filename, k) ← readFilename k ctx.arg0
  let (success, vfs) := k.vfs.createFile k.disk filename ctx.arg1.toNat
  .ok ({ returnValue := if success then 0 else -1 }, { k with vfs })

def handleSbrk (k : Kernel) (ctx : SyscallContext) : Except Halt (SyscallResult × Kernel) := do
  let current ← k.getCurrentThread
  let (oldBreak, k) := k.sbrk (k.thread current).parent ctx.arg0
  .ok ({ returnValue := if oldBreak = 0 then -1 else oldBreak }, k)

/-! ### Mutexes -/

/-- The result of a mutex call on a bad mutex, or of an unlock by another thread than the owner:
the kernel kills the process. -/
def mutexError : SyscallResult := { error := true, returnValue := -1 }

def handleMutexCreate (k : Kernel) (_ : SyscallContext) : Except Halt (SyscallResult × Kernel) := do
  let current ← k.getCurrentThread
  let (mutexID, k) := k.createMutex (k.thread current).parent
  .ok ({ returnValue := BitVec.ofNat 32 mutexID }, k)

def handleMutexLock (k : Kernel) (ctx : SyscallContext) : Except Halt (SyscallResult × Kernel) := do
  let current ← k.getCurrentThread
  let pid := (k.thread current).parent
  match k.getMutex pid ctx.arg0.toInt with
  | none => .ok (mutexError, k)
  | some (id, lock) =>
    match k.acquire pid id lock current with
    -- the pc stays, so that the thread retries when it is woken up
    | (false, k) => .ok (suspend, k)
    | (true, k) => .ok ({ returnValue := 0 }, k)

def handleMutexUnlock (k : Kernel) (ctx : SyscallContext) :
    Except Halt (SyscallResult × Kernel) := do
  let current ← k.getCurrentThread
  let pid := (k.thread current).parent
  match k.getMutex pid ctx.arg0.toInt with
  | none => .ok (mutexError, k)
  | some (id, lock) =>
    match k.release pid id lock current with
    | (false, k) => .ok (mutexError, k)
    | (true, k) => .ok ({ returnValue := 0 }, k)

/-! ### Processes -/

def handleCreateProcess (k : Kernel) (ctx : SyscallContext) :
    Except Halt (SyscallResult × Kernel) := do
  let (filename, k) ← readFilename k ctx.arg0
  let (createdPid, k) ← Loader.loadELF k filename
  match createdPid with
  | none => .ok ({ returnValue := -1 }, k)
  | some pid => .ok ({ returnValue := BitVec.ofNat 32 pid }, k)

def handleJoinProcess (k : Kernel) (ctx : SyscallContext) :
    Except Halt (SyscallResult × Kernel) := do
  let statusPtr := ctx.arg1
  match Pid.ofInt? ctx.arg0.toInt with
  | none => .ok ({ returnValue := -1 }, k)
  | some targetPid =>
    match k.exitCodes targetPid with
    | some exitCode =>
      -- fast path: process already dead
      let k ← if statusPtr ≠ 0 then k.storeVirtualMemory statusPtr 4 exitCode else .ok k
      .ok ({ returnValue := 1 },
        { k with exitCodes := Function.update k.exitCodes targetPid none })
    | none =>
      if !(k.processList targetPid).active then .ok ({ returnValue := -1 }, k)
      else
        let current ← k.getCurrentThread
        let k := { k with
          processWaiters := Function.update k.processWaiters targetPid
            (k.processWaiters targetPid ++ [current]) }
        .ok (suspend, k.setState current .BLOCKED)

def handleExit (k : Kernel) (ctx : SyscallContext) : Except Halt (SyscallResult × Kernel) := do
  let exitCode := ctx.arg0
  let current ← k.getCurrentThread
  let (ok, k) ← k.terminate (k.thread current).parent exitCode
  if !ok then .error (.panic "KERNEL PANIC: Failed to terminate process")
  else .ok (suspend, k)

/-- `SyscallHandler::dispatch`. -/
def dispatch (k : Kernel) (ctx : SyscallContext) : Except Halt (SyscallResult × Kernel) :=
  match ctx.id.toNat with
  | SyscallID.SYS_EXIT => handleExit k ctx
  | SyscallID.SYS_WRITE => handleWrite k ctx
  | SyscallID.SYS_READ => handleRead k ctx
  | SyscallID.SYS_THREAD_CREATE => handleThreadCreate k ctx
  | SyscallID.SYS_THREAD_EXIT => handleThreadExit k ctx
  | SyscallID.SYS_THREAD_JOIN => handleThreadJoin k ctx
  | SyscallID.SYS_MUTEX_CREATE => handleMutexCreate k ctx
  | SyscallID.SYS_MUTEX_LOCK => handleMutexLock k ctx
  | SyscallID.SYS_MUTEX_UNLOCK => handleMutexUnlock k ctx
  | SyscallID.SYS_OPEN => handleOpen k ctx
  | SyscallID.SYS_CLOSE => handleClose k ctx
  | SyscallID.SYS_CREATE => handleCreate k ctx
  | SyscallID.SYS_SBRK => handleSbrk k ctx
  | SyscallID.SYS_CREATE_PROCESS => handleCreateProcess k ctx
  | SyscallID.SYS_JOIN_PROCESS => handleJoinProcess k ctx
  | _ => .error (.panic "Unimplemented syscall id")

end SyscallHandler

end Rv32umos
