import Rv32umos.Kernel.Run
import Rv32umos.Kernel.Lifecycle

/-!
# The system as its threads see it

`Threads` is the kernel without memory, files and devices: the threads, who waits for whom, the
mutexes of each process, and the context in the machine. `Threads.Step` says what an event of a run
may do to it, with one constructor for each thing that can happen and one constructor of
`Threads.Call` for each outcome of a system call. Memory is gone, hence a user instruction may leave
any registers and a data call may return anything. `Kernel.threads` is the projection.
-/

namespace Rv32umos

open SyscallHandler (suspend mutexError)
open Kernel (Event)

structure Threads where
  thread : TRef → Thread
  numThreads : Nat
  current : Option TRef
  waiters : Pid → List TRef
  exitCodes : Pid → Option Word
  active : Pid → Bool
  members : Pid → List TRef
  mutexes : Pid → List Mutex
  regs : RegFile
  pc : Addr
  table : Option Pid
  vmEnabled : Bool
  fault : Bool

def Kernel.threads (k : Kernel) : Threads where
  thread := k.thread
  numThreads := k.numThreads
  current := k.currentThreadIndex
  waiters := k.processWaiters
  exitCodes := k.exitCodes
  active pid := (k.processList pid).active
  members pid := (k.processList pid).threads
  mutexes pid := (k.processList pid).mutexList
  regs := k.cpu.regs
  pc := k.cpu.pc
  table := k.cpu.currentTable
  vmEnabled := k.cpu.vmEnabled
  fault := k.cpu.fault

namespace Threads

/-! ### Operations -/

def state (s : Threads) (t : TRef) : ThreadState := (s.thread t).state

def parent (s : Threads) (t : TRef) : Pid := (s.thread t).parent

/-- Thread `t` is the current one, and RUNNING. -/
def Running (s : Threads) (t : TRef) : Prop :=
  s.current = some t ∧ t < s.numThreads ∧ s.state t = .RUNNING

def modify (s : Threads) (t : TRef) (f : Thread → Thread) : Threads :=
  { s with thread := Function.update s.thread t (f (s.thread t)) }

def block (s : Threads) (t : TRef) : Threads := s.modify t fun thread => { thread with state := .BLOCKED }

def wake (s : Threads) (ts : List TRef) : Threads :=
  { s with thread := Kernel.statesSet s.thread ts .READY }

def setMutexes (s : Threads) (pid : Pid) (mutexes : List Mutex) : Threads :=
  { s with mutexes := Function.update s.mutexes pid mutexes }

def setMutex (s : Threads) (pid : Pid) (id : Nat) (m : Mutex) : Threads :=
  s.setMutexes pid ((s.mutexes pid).set id m)

/-- Mutex `id` of process `pid`. -/
def mutex (s : Threads) (pid : Pid) (id : Nat) : Option Mutex := (s.mutexes pid)[id]?

def await (s : Threads) (pid : Pid) (t : TRef) : Threads :=
  { s with waiters := Function.update s.waiters pid (s.waiters pid ++ [t]) }.block t

def reap (s : Threads) (pid : Pid) : Threads :=
  { s with exitCodes := Function.update s.exitCodes pid none }

def terminate (s : Threads) (pid : Pid) (exitCode : Word) : Threads :=
  { s with
    thread := Kernel.statesSet (Kernel.statesSet s.thread (s.members pid) .TERMINATED)
      (s.waiters pid) .READY
    exitCodes := Function.update s.exitCodes pid (some exitCode)
    waiters := Function.update s.waiters pid []
    active := Function.update s.active pid false }

/-- A new thread, the last of process `pid`. -/
def spawn (s : Threads) (pid : Pid) (entry stack : Addr) (arg : Word) : Threads :=
  let thread := Thread.new (s.members pid).length pid entry stack
  { s with
    thread := Function.update s.thread s.numThreads
      { thread with regs := thread.regs.write 10 arg, state := .READY }
    numThreads := s.numThreads + 1
    members := Function.update s.members pid (s.members pid ++ [s.numThreads]) }

def recycle (s : Threads) (pid : Pid) (active : Bool) : Threads :=
  { s with
    active := Function.update s.active pid active
    members := Function.update s.members pid []
    mutexes := Function.update s.mutexes pid [] }

def threadExit (s : Threads) (t : TRef) (exitCode : Word) : Threads :=
  let s' := s.modify t fun thread => { thread with state := .TERMINATED, exitCode }
  match (s.thread t).joiner with
  | none => s'
  | some joiner => s'.modify joiner fun thread =>
    { thread with state := .READY, regs := thread.regs.write 10 exitCode, pc := thread.pc + 4 }

def markJoined (s : Threads) (t : TRef) : Threads :=
  s.modify t fun thread => { thread with hasBeenJoined := true }

/-- `joiner` waits for thread `t`. -/
def joinThread (s : Threads) (t joiner : TRef) : Threads :=
  ((s.markJoined t).modify t fun thread => { thread with joiner := some joiner }).block joiner

def deliver (s : Threads) (r : SyscallResult) : Threads :=
  { s with
    regs := if r.hasReturnValue then s.regs.write 10 r.returnValue else s.regs
    pc := if r.advancePC then s.pc + 4 else s.pc }

/-- Thread `t` after its context has been saved, if it is the current one. -/
def saved (s : Threads) (t : TRef) : Thread :=
  if s.current = some t ∧ s.state t ≠ .TERMINATED then
    { s.thread t with
      regs := s.regs
      pc := s.pc
      state := if s.state t = .RUNNING then .READY else s.state t }
  else s.thread t

/-- The page table in use after a switch to `t`. -/
def switchedTable (s : Threads) (t : TRef) : Option Pid :=
  match s.current with
  | none => some (s.parent t)
  | some prevThread => if s.parent prevThread ≠ s.parent t then some (s.parent t) else s.table

/-- A switch to `t`, which is not the current thread. -/
def switch (s : Threads) (t : TRef) : Threads :=
  { s with
    thread := Function.update s.saved t { s.thread t with state := .RUNNING }
    current := some t
    regs := (s.thread t).regs
    pc := (s.thread t).pc
    table := s.switchedTable t }

/-- The thread that a `SYS_THREAD_JOIN` of `self` names. -/
def target (s : Threads) (self : TRef) (ctx : SyscallContext) : Option TRef :=
  (s.members (s.parent self)).find? fun t => ((s.thread t).tid : Int) = ctx.arg0.toInt

/-- The `SYS_THREAD_JOIN` of `self` on `t` is accepted. -/
def Joins (s : Threads) (self : TRef) (ctx : SyscallContext) (t : TRef) : Prop :=
  s.target self ctx = some t ∧ (s.thread t).tid ≠ (s.thread self).tid ∧
    (s.thread t).hasBeenJoined = false

instance (s : Threads) (t : TRef) : Decidable (s.Running t) := inferInstanceAs (Decidable (_ ∧ _ ∧ _))

instance (s : Threads) (self : TRef) (ctx : SyscallContext) (t : TRef) :
    Decidable (s.Joins self ctx t) := inferInstanceAs (Decidable (_ ∧ _ ∧ _))

/-- Mutex `id` is the one that a call of `self` names, and `m` its state. -/
def Names (s : Threads) (self : TRef) (ctx : SyscallContext) (id : Nat) (m : Mutex) : Prop :=
  ctx.arg0.toInt = id ∧ s.mutex (s.parent self) id = some m

/-- The context of `self` has `ctx` for its arguments. -/
def Args (s : Threads) (ctx : SyscallContext) : Prop :=
  ctx.arg0 = s.regs.read 10 ∧ ctx.arg1 = s.regs.read 11 ∧ ctx.arg2 = s.regs.read 12

/-! ### System calls -/

/-- The system calls that touch no thread, whatever they return. -/
def dataCalls : List Nat :=
  [SyscallID.SYS_WRITE, SyscallID.SYS_READ, SyscallID.SYS_OPEN, SyscallID.SYS_CLOSE,
    SyscallID.SYS_CREATE, SyscallID.SYS_SBRK]

/-- A system call of `self` that reports no error: its result, and the threads after the handler. -/
inductive Call (s : Threads) (self : TRef) (ctx : SyscallContext) : SyscallResult → Threads → Prop
  | data {v : Word} (hid : ctx.id.toNat ∈ dataCalls) : Call s self ctx { returnValue := v } s
  | threadRefused (hid : ctx.id.toNat = SyscallID.SYS_THREAD_CREATE) :
    Call s self ctx { returnValue := -1 } s
  | threadCreate {stack : Addr} (hid : ctx.id.toNat = SyscallID.SYS_THREAD_CREATE)
    (hroom : (s.members (s.parent self)).length < MAX_THREADS) :
    Call s self ctx { returnValue := BitVec.ofNat 32 (s.members (s.parent self)).length }
      (s.spawn (s.parent self) ctx.arg0 stack ctx.arg1)
  | threadExit (hid : ctx.id.toNat = SyscallID.SYS_THREAD_EXIT) :
    Call s self ctx suspend (s.threadExit self ctx.arg0)
  | joinRefused (hid : ctx.id.toNat = SyscallID.SYS_THREAD_JOIN)
    (hrefused : ∀ t, ¬ s.Joins self ctx t) : Call s self ctx { returnValue := -1 } s
  | joinEnded {t : TRef} (hid : ctx.id.toNat = SyscallID.SYS_THREAD_JOIN) (hjoins : s.Joins self ctx t)
    (hstate : s.state t = .TERMINATED) :
    Call s self ctx { returnValue := (s.thread t).exitCode } (s.markJoined t)
  | joinBlocks {t : TRef} (hid : ctx.id.toNat = SyscallID.SYS_THREAD_JOIN) (hjoins : s.Joins self ctx t)
    (hstate : s.state t ≠ .TERMINATED) : Call s self ctx suspend (s.joinThread t self)
  | mutexCreate (hid : ctx.id.toNat = SyscallID.SYS_MUTEX_CREATE) :
    Call s self ctx { returnValue := BitVec.ofNat 32 (s.mutexes (s.parent self)).length }
      (s.setMutexes (s.parent self) (s.mutexes (s.parent self) ++ [({} : Mutex)]))
  | lock {id : Nat} {m : Mutex} (hid : ctx.id.toNat = SyscallID.SYS_MUTEX_LOCK)
    (hm : s.Names self ctx id m) (hfree : m.locked = false) :
    Call s self ctx { returnValue := 0 }
      (s.setMutex (s.parent self) id { m with locked := true, owner := some self })
  | lockBlocks {id : Nat} {m : Mutex} (hid : ctx.id.toNat = SyscallID.SYS_MUTEX_LOCK)
    (hm : s.Names self ctx id m) (hlocked : m.locked = true) :
    Call s self ctx suspend
      ((s.block self).setMutex (s.parent self) id { m with waitQueue := m.waitQueue ++ [self] })
  | unlock {id : Nat} {m : Mutex} (hid : ctx.id.toNat = SyscallID.SYS_MUTEX_UNLOCK)
    (hm : s.Names self ctx id m) (howner : m.owner = some self) :
    Call s self ctx { returnValue := 0 }
      ((s.wake m.waitQueue).setMutex (s.parent self) id
        { m with locked := false, owner := none, waitQueue := [] })
  | processExit (hid : ctx.id.toNat = SyscallID.SYS_EXIT) (hactive : s.active (s.parent self) = true) :
    Call s self ctx suspend (s.terminate (s.parent self) ctx.arg0)
  | processRefused (hid : ctx.id.toNat = SyscallID.SYS_CREATE_PROCESS) :
    Call s self ctx { returnValue := -1 } s
  | loadFailed {pid : Pid} (hid : ctx.id.toNat = SyscallID.SYS_CREATE_PROCESS)
    (hslot : s.active pid = false) : Call s self ctx { returnValue := -1 } (s.recycle pid false)
  | load {pid : Pid} {entry stack : Addr} (hid : ctx.id.toNat = SyscallID.SYS_CREATE_PROCESS)
    (hslot : s.active pid = false) :
    Call s self ctx { returnValue := BitVec.ofNat 32 pid } ((s.recycle pid true).spawn pid entry stack 0)
  | joinProcessRefused (hid : ctx.id.toNat = SyscallID.SYS_JOIN_PROCESS) :
    Call s self ctx { returnValue := -1 } s
  | reap {pid : Pid} {exitCode : Word} (hid : ctx.id.toNat = SyscallID.SYS_JOIN_PROCESS)
    (hpid : Pid.ofInt? ctx.arg0.toInt = some pid) (hcode : s.exitCodes pid = some exitCode) :
    Call s self ctx { returnValue := 1 } (s.reap pid)
  | await {pid : Pid} (hid : ctx.id.toNat = SyscallID.SYS_JOIN_PROCESS)
    (hpid : Pid.ofInt? ctx.arg0.toInt = some pid) (hcode : s.exitCodes pid = none)
    (hactive : s.active pid = true) : Call s self ctx suspend (s.await pid self)

/-- A mutex call that reports an error: on a mutex that is not there, or an unlock by another
thread than the owner. -/
def BadMutex (s : Threads) (self : TRef) (ctx : SyscallContext) : Prop :=
  ((ctx.id.toNat = SyscallID.SYS_MUTEX_LOCK ∨ ctx.id.toNat = SyscallID.SYS_MUTEX_UNLOCK) ∧
    ∀ id m, ¬ s.Names self ctx id m) ∨
  (ctx.id.toNat = SyscallID.SYS_MUTEX_UNLOCK ∧ ∃ id m, s.Names self ctx id m ∧ m.owner ≠ some self)

/-! ### Steps -/

inductive Step (s : Threads) : Event → Threads → Prop
  | user {self : TRef} (hself : s.Running self) (regs : RegFile) (pc : Addr) :
    Step s (.user self) { s with regs, pc }
  | fault {self : TRef} (hself : s.Running self) (addr : Addr) : Step s (.fault self addr true) s
  | segfault {self : TRef} (hself : s.Running self) (addr : Addr)
    (hactive : s.active (s.parent self) = true) :
    Step s (.fault self addr false) (s.terminate (s.parent self) (-1))
  | syscall {self : TRef} {ctx : SyscallContext} {r : SyscallResult} {s' : Threads}
    (hself : s.Running self) (hargs : s.Args ctx) (hcall : s.Call self ctx r s') :
    Step s (.syscall self ctx r) (s'.deliver r)
  | badMutex {self : TRef} {ctx : SyscallContext} (hself : s.Running self) (hargs : s.Args ctx)
    (hbad : s.BadMutex self ctx) (hactive : s.active (s.parent self) = true) :
    Step s (.syscall self ctx mutexError) ((s.deliver mutexError).terminate (s.parent self) (-1))
  | stay : Step s .preempt s
  | switch {t : TRef} (ht : t < s.numThreads) (hready : s.state t = .READY)
    (hother : s.current ≠ some t) : Step s .preempt (s.switch t)
  | rehash (pid : Pid) : Step s (.rehash pid) s

variable {s s' : Threads} {self : TRef} {ctx : SyscallContext} {r : SyscallResult} {e : Event}

/-- Outside the mutex calls of `BadMutex` no call reports an error. -/
theorem Call.error (h : s.Call self ctx r s') : r.error = false := by
  cases h <;> rfl

/-- The machine, and who is current. -/
def machine (s : Threads) : Option TRef × Option Pid × Bool × Bool × RegFile × Addr :=
  (s.current, s.table, s.vmEnabled, s.fault, s.regs, s.pc)

/-- A handler leaves the machine alone. -/
theorem Call.machine_eq (h : s.Call self ctx r s') : s'.machine = s.machine := by
  cases h with
  | threadExit hid =>
    unfold Threads.threadExit
    dsimp only
    split <;> rfl
  | _ => rfl

theorem Step.fault_eq (h : s.Step e s') : s'.fault = s.fault := by
  cases h with
  | syscall hself hargs hcall =>
    have hfault := congrArg (fun m => m.2.2.2.1) hcall.machine_eq
    exact hfault
  | _ => rfl

end Threads

end Rv32umos
