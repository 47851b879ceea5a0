import Rv32umos.Kernel.Syscall
import Rv32umos.Lib.Transition

/-!
# The main loop

`kernel/Kernel.cpp`, `RV32UMOS.cpp` and `main.cpp`. `tick` is one iteration of the loop for a
RUNNING thread: an instruction, and the system call or page fault it ends in. `Step` lets a `tick`
and a `preempt` follow each other in any order, so that its runs contain every schedule; the loop of
the source itself, which preempts when a quantum is over or the thread stops, is `iterate`, and its
runs are runs of `Step` (`iterate_run`). `tick_cases` and `handleSyscall_cases` take a step apart.
-/

namespace Rv32umos

open Transition

namespace Kernel

/-! ### Traps -/

/-- What `handleSyscall` does to the machine once the handler is done. -/
def deliver (k : Kernel) (result : SyscallResult) : Kernel :=
  let k := if result.hasReturnValue then k.writeReg 10 result.returnValue else k
  if result.advancePC then k.advancePC else k

/-- `Kernel::handleSyscall`, with the result of the handler. -/
def handleSyscall (k : Kernel) (id : Word) :
    Except Halt (SyscallContext × SyscallResult × Kernel) := do
  let ctx : SyscallContext :=
    { id
      arg0 := k.cpu.regs.read 10
      arg1 := k.cpu.regs.read 11
      arg2 := k.cpu.regs.read 12 }
  let (result, k) ← SyscallHandler.dispatch k ctx
  let k := k.deliver result
  if result.error then do
    let current ← k.getCurrentThread
    let (killed, k) ← k.killProcess (k.thread current).parent
    if !killed then .error (.panic "Failed to kill process after Syscall Error!")
    else .ok (ctx, result, k)
  else .ok (ctx, result, k)

/-- `Kernel::handlePageFault`: whether the fault was handled, and the kernel after the call. -/
def handlePageFault (k : Kernel) (faultAddr : Addr) : Except Halt (Bool × Kernel) := do
  let current ← k.getCurrentThread
  let (handled, k) ← k.servePageFault (k.thread current).parent faultAddr
  if !handled then do
    let (killed, k) ← k.killProcess (k.thread current).parent
    if !killed then .error (.panic "KERNEL PANIC: Failed to kill process after Segfault!")
    else .ok (false, k)
  else .ok (true, k)

/-! ### One iteration -/

/-- What a step of the system was. -/
inductive Event where
  /-- An instruction of the thread. -/
  | user (t : TRef)
  /-- An instruction of the thread that ends in a page fault. -/
  | fault (t : TRef) (addr : Addr) (handled : Bool)
  /-- A system call of the thread, with what it was called with and what it returns. -/
  | syscall (t : TRef) (ctx : SyscallContext) (result : SyscallResult)
  | preempt
  /-- A page table changes the order in which it is iterated over. -/
  | rehash (pid : Pid)

/-- The handling of the trap that an instruction of thread `self` has left. -/
def handleTrap (k : Kernel) (self : TRef) : Except Halt (Event × Kernel) :=
  let trap := k.cpu.trap
  let k := k.clearTrap
  match trap.type with
  | .Syscall => do
    let (ctx, result, k) ← k.handleSyscall trap.value
    .ok (.syscall self ctx result, k)
  | .PageFault => do
    let (handled, k) ← k.handlePageFault trap.value
    .ok (.fault self trap.value handled, k)
  | .None => .ok (.user self, k)

/-- `self->getProcess()->incrementInstruction()`. -/
def incrementInstruction (k : Kernel) (self : TRef) : Kernel :=
  k.modifyProcess (k.thread self).parent fun p =>
    { p with instructionsExecuted := p.instructionsExecuted + 1 }

/-- One iteration of the main loop for the current thread, without the preemption at its end. -/
def tick (k : Kernel) : Except Halt (Event × Kernel) := do
  let self ← k.getCurrentThread
  let k := k.incrementInstruction self
  let cpu ← k.machine.step
  let k := k.withMachine cpu
  if cpu.hasTrap then k.handleTrap self
  else .ok (.user self, k.advancePC)

/-- The current thread is RUNNING. -/
def CurrentRunning (k : Kernel) : Prop :=
  ∃ t, k.currentThreadIndex = some t ∧ t < k.numThreads ∧ (k.thread t).state = .RUNNING

/-! ### Any schedule -/

inductive Step (k : Kernel) : Event → Kernel → Prop
  | tick {e : Event} {k' : Kernel} (hrunning : k.CurrentRunning) (h : k.tick = .ok (e, k')) :
    Step k e k'
  | preempt : Step k .preempt k.preempt
  | rehash (pid : Pid) (table : PageTable)
    (hperm : table.toList.Perm (k.processList pid).pageTable.toList) :
    Step k (.rehash pid) (k.modifyProcess pid fun p => { p with pageTable := table })

/-- `RV32UMOS::loadApplication` of each file in turn. -/
def loadApplications (k : Kernel) : List Name → Except Halt Kernel
  | [] => .ok k
  | filename :: rest => do
    let (pid, k) ← Loader.loadELF k filename
    if pid.isNone then .error (.exit 1) else loadApplications k rest

/-- `main` up to the loop of `RV32UMOS::start`. -/
def boot (host : Host) (filenames : List Name) : Except Halt Kernel := do
  let k ← (init host).loadApplications filenames
  if k.numThreads = 0 then .error (.exit 0)
  else .ok ({ k with cpu := { k.cpu with vmEnabled := true } } : Kernel).preempt

/-- `k` is a state of some run of the system. -/
def Reachable (k : Kernel) : Prop :=
  ∃ host filenames k₀ es, boot host filenames = .ok k₀ ∧ Run Step k₀ es k

/-! ### The loop of the source -/

/-- `currentThreadIndex == -1 || getCurrentThread()->getState() != RUNNING`. -/
def notRunning (k : Kernel) : Except Halt Bool :=
  if k.currentThreadIndex.isNone then .ok true
  else do
    let current ← k.getCurrentThread
    .ok ((k.thread current).state ≠ .RUNNING)

/-- An iteration of the loop of `start`, with the tick count; `none` when the loop ends. -/
def iterate (k : Kernel) (ticks : Nat) : Except Halt (Option (List Event × Kernel × Nat)) :=
  if k.checkAllTerminated then .ok none
  else do
    if ← k.notRunning then
      let k := k.preempt
      if k.checkAllTerminated then .ok none
      -- stall: the current thread is not runnable and there is no READY thread
      else if ← k.notRunning then .ok none
      else .ok (some ([.preempt], k, ticks))
    else
      let self ← k.getCurrentThread
      let (e, k) ← k.tick
      if (k.thread self).state ≠ .RUNNING ∨ (ticks + 1) % SCHED_QUANTUM_INSTRUCTIONS = 0 then
        .ok (some ([e, .preempt], k.preempt, ticks + 1))
      else .ok (some ([e], k, ticks + 1))

/-- The loop of `start`, at most `n` times round. -/
def loop : Nat → Kernel → Nat → Except Halt Kernel
  | 0, k, _ => .ok k
  | n + 1, k, ticks => do
    match ← k.iterate ticks with
    | none => .ok k
    | some (_, k, ticks) => loop n k ticks

/-- `loop`, with its events. -/
def trace : Nat → Kernel → Nat → Except Halt (List Event × Kernel)
  | 0, k, _ => .ok ([], k)
  | n + 1, k, ticks => do
    match ← k.iterate ticks with
    | none => .ok ([], k)
    | some (es, k, ticks) => do
      let (es', k) ← trace n k ticks
      .ok (es ++ es', k)

/-- `main`, stopped after `n` iterations of the loop. -/
def simulate (host : Host) (filenames : List Name) (n : Nat) : Except Halt Kernel := do
  let k ← boot host filenames
  loop n k 0

/-! ### Taking a step apart -/

variable {k k' : Kernel}

theorem getCurrentThread_eq {t : TRef} :
    k.getCurrentThread = .ok t ↔ k.currentThreadIndex = some t ∧ t < k.numThreads := by
  unfold getCurrentThread
  cases k.currentThreadIndex with
  | none => exact ⟨nofun, nofun⟩
  | some u =>
    dsimp only
    by_cases hlt : u < k.numThreads
    · rw [if_neg (Nat.not_le.2 hlt)]
      constructor
      · rintro ⟨⟩
        exact ⟨rfl, hlt⟩
      · rintro ⟨⟨⟩, -⟩
        rfl
    · rw [if_pos (Nat.not_lt.1 hlt)]
      constructor
      · exact nofun
      · rintro ⟨⟨⟩, hlt'⟩
        exact absurd hlt' hlt

/-- Everything `handleSyscall` can do: the handler runs, its result goes to the machine, and a call
that reports an error costs the process its life. -/
theorem handleSyscall_cases {id : Word} {ctx : SyscallContext} {r : SyscallResult}
    (h : k.handleSyscall id = .ok (ctx, r, k')) :
    ctx = ⟨id, k.cpu.regs.read 10, k.cpu.regs.read 11, k.cpu.regs.read 12⟩ ∧
    ∃ k₁, SyscallHandler.dispatch k ctx = .ok (r, k₁) ∧
      ((r.error = false ∧ k' = k₁.deliver r) ∨
      (r.error = true ∧ ∃ current, (k₁.deliver r).getCurrentThread = .ok current ∧
        (k₁.deliver r).terminate ((k₁.deliver r).thread current).parent (-1) = .ok (true, k'))) := by
  obtain ⟨⟨r₁, k₁⟩, hdispatch, h⟩ := bind_eq_ok.1 h
  dsimp only at h
  split_ifs at h with herror
  · obtain ⟨current, hcurrent, h⟩ := bind_eq_ok.1 h
    obtain ⟨⟨killed, k₂⟩, hkill, h⟩ := bind_eq_ok.1 h
    dsimp only at h
    split_ifs at h with hkilled
    cases h
    simp only [Bool.not_eq_true', Bool.not_eq_false] at hkilled
    subst hkilled
    exact ⟨rfl, k₁, hdispatch, .inr ⟨herror, current, hcurrent, hkill⟩⟩
  · cases h
    exact ⟨rfl, k₁, hdispatch, .inl ⟨by simpa using herror, rfl⟩⟩

/-- Everything a `tick` can do: an instruction, a page fault, or a system call. -/
theorem tick_cases {e : Event} (h : k.tick = .ok (e, k')) :
    ∃ self k₁ cpu, k.getCurrentThread = .ok self ∧ k₁ = k.incrementInstruction self ∧
      k₁.machine.step = .ok cpu ∧
      ((cpu.hasTrap = false ∧ e = .user self ∧ k' = (k₁.withMachine cpu).advancePC) ∨
      (∃ addr handled, cpu.trap = ⟨.PageFault, addr⟩ ∧ e = .fault self addr handled ∧
        (k₁.withMachine cpu).clearTrap.handlePageFault addr = .ok (handled, k')) ∨
      ∃ id ctx r, cpu.trap = ⟨.Syscall, id⟩ ∧ e = .syscall self ctx r ∧
        (k₁.withMachine cpu).clearTrap.handleSyscall id = .ok (ctx, r, k')) := by
  obtain ⟨self, hself, h⟩ := bind_eq_ok.1 h
  obtain ⟨cpu, hcpu, h⟩ := bind_eq_ok.1 h
  refine ⟨self, k.incrementInstruction self, cpu, hself, rfl, hcpu, ?_⟩
  have htrap : ((k.incrementInstruction self).withMachine cpu).cpu.trap = cpu.trap := rfl
  dsimp only at h
  split_ifs at h with hhas
  · unfold handleTrap at h
    rw [htrap] at h
    rcases heq : cpu.trap with ⟨type, value⟩
    rw [heq] at h
    cases type with
    | None =>
      rw [Machine.hasTrap, heq] at hhas
      cases hhas
    | Syscall =>
      obtain ⟨⟨ctx, r, k₁⟩, hsyscall, h⟩ := bind_eq_ok.1 h
      cases h
      exact .inr (.inr ⟨value, ctx, r, rfl, rfl, hsyscall⟩)
    | PageFault =>
      obtain ⟨⟨handled, k₁⟩, hfault, h⟩ := bind_eq_ok.1 h
      cases h
      exact .inr (.inl ⟨value, handled, rfl, rfl, hfault⟩)
  · cases h
    exact .inl ⟨by simpa using hhas, rfl, rfl⟩

/-- An iteration of the source's loop is a run of one or two steps. -/
theorem iterate_run {ticks ticks' : Nat} {es : List Event}
    (h : k.iterate ticks = .ok (some (es, k', ticks'))) : Run Step k es k' := by
  unfold iterate at h
  split at h
  · cases h
  · obtain ⟨stopped, hstopped, h⟩ := bind_eq_ok.1 h
    cases stopped with
    | true =>
      simp only [if_true] at h
      split at h
      · cases h
      · obtain ⟨stopped', -, h⟩ := bind_eq_ok.1 h
        cases stopped' <;> cases h
        exact .snoc .nil .preempt
    | false =>
      obtain ⟨self, hself, h⟩ := bind_eq_ok.1 h
      obtain ⟨⟨e, k₁⟩, htick, h⟩ := bind_eq_ok.1 h
      obtain ⟨hidx, hlt⟩ := getCurrentThread_eq.1 hself
      have hstate : (k.thread self).state = .RUNNING := by
        unfold notRunning at hstopped
        rw [hidx, Option.isNone_some, if_neg Bool.false_ne_true, hself] at hstopped
        simpa using Except.ok.inj hstopped
      have hrun : Run Step k [e] k₁ := .snoc .nil (.tick ⟨self, hidx, hlt, hstate⟩ htick)
      dsimp only at h
      split_ifs at h <;> cases h
      · exact hrun.snoc .preempt
      · exact hrun

theorem loop_run {n ticks : Nat} (h : loop n k ticks = .ok k') : ∃ es, Run Step k es k' := by
  induction n generalizing k ticks with
  | zero =>
    cases h
    exact ⟨[], .nil⟩
  | succ n ih =>
    obtain ⟨next, hnext, h⟩ := bind_eq_ok.1 h
    rcases next with _ | ⟨es, k₁, ticks₁⟩
    · cases h
      exact ⟨[], .nil⟩
    · obtain ⟨es', hrun⟩ := ih h
      exact ⟨es ++ es', (iterate_run hnext).append hrun⟩

theorem trace_run {n ticks : Nat} {es : List Event} (h : trace n k ticks = .ok (es, k')) :
    Run Step k es k' := by
  induction n generalizing k ticks es with
  | zero =>
    cases h
    exact .nil
  | succ n ih =>
    obtain ⟨next, hnext, h⟩ := bind_eq_ok.1 h
    rcases next with _ | ⟨es₁, k₁, ticks₁⟩
    · cases h
      exact .nil
    · obtain ⟨⟨es₂, k₂⟩, htrace, h⟩ := bind_eq_ok.1 h
      cases h
      exact (iterate_run hnext).append (ih htrace)

theorem simulate_run {host : Host} {filenames : List Name} {n : Nat}
    (h : simulate host filenames n = .ok k) :
    ∃ k₀ es, boot host filenames = .ok k₀ ∧ Run Step k₀ es k := by
  obtain ⟨k₀, hboot, h⟩ := bind_eq_ok.1 h
  obtain ⟨es, hrun⟩ := loop_run h
  exact ⟨k₀, es, hboot, hrun⟩

/-- What the simulator gets to is a state of a run. -/
theorem simulate_reachable {host : Host} {filenames : List Name} {n : Nat}
    (h : simulate host filenames n = .ok k) : k.Reachable := by
  obtain ⟨k₀, es, hboot, hrun⟩ := simulate_run h
  exact ⟨host, filenames, k₀, es, hboot, hrun⟩

/-! ### Programs to run -/

/-- The event is a system call, and `p` holds of it. -/
def Event.onSyscall (e : Event) (p : TRef → SyscallContext → SyscallResult → Bool) : Bool :=
  match e with
  | .syscall self ctx r => p self ctx r
  | _ => false

theorem onSyscall_iff {e : Event} {p : TRef → SyscallContext → SyscallResult → Bool} :
    e.onSyscall p = true ↔ ∃ self ctx r, e = .syscall self ctx r ∧ p self ctx r = true := by
  cases e with
  | syscall self ctx r =>
    constructor
    · intro h
      exact ⟨self, ctx, r, rfl, h⟩
    · rintro ⟨_, _, _, heq, h⟩
      cases heq
      exact h
  | _ =>
    constructor
    · intro h
      cases h
    · rintro ⟨_, _, _, heq, -⟩
      cases heq

/-- An ELF file with one executable segment at address 0, which starts with the file itself; the
code follows the headers. -/
def elfFile (code : List Byte) : List Byte :=
  [0x7F, 0x45, 0x4C, 0x46, 0, 0, 0, 0, 0, 0, 0, 0, 0, 0, 0, 0, 0, 0, 0, 0, 0, 0, 0, 0,
    84, 0, 0, 0, 52, 0, 0, 0, 0, 0, 0, 0, 0, 0, 0, 0, 0, 0, 0, 0, 1, 0, 0, 0, 0, 0, 0, 0,
    1, 0, 0, 0, 0, 0, 0, 0, 0, 0, 0, 0, 0, 0, 0, 0, 0, 1, 0, 0, 0, 1, 0, 0, 5, 0, 0, 0,
    0, 0, 0, 0] ++ code

/-- `a.elf` loads from an address that nothing maps; `b.elf` creates a process from the file whose
name is at address 0, the magic number of its own header. -/
def twoPrograms : Host where
  files name :=
    if name = [0x61] then some (elfFile [0x83, 0x20, 0xC0, 0xFF])
    else if name = [0x62] ∨ name = [0x7F, 0x45, 0x4C, 0x46] then
      some (elfFile [0x93, 0x08, 0xD0, 0x00, 0x73, 0, 0, 0])
    else none
  console := { stdin := [], answers := [], written := [] }

/-- Its first program brings its text in, and is killed by its load. -/
theorem segfault_run :
    ∃ k₀ k k', boot twoPrograms [[0x61], [0x62]] = .ok k₀ ∧ Step k₀ (.fault 0 84 true) k ∧
      Step k (.fault 0 0xFFFFFFFC false) k' ∧
      ((k₀.thread 0).parent = 0 ∧ (k₀.processList 0).active = true) ∧
      ((k.thread 0).parent = 0 ∧ (k.processList 0).active = true ∧
        (k.processList 0).threads = [0] ∧ k.processWaiters 0 = []) ∧
      (k'.thread 0).state = .TERMINATED := by
  have hdec : returns (boot twoPrograms [[0x61], [0x62]]) (fun k₀ =>
      decide ((k₀.currentThreadIndex = some 0 ∧ 0 < k₀.numThreads ∧ (k₀.thread 0).state = .RUNNING) ∧
        (k₀.thread 0).parent = 0 ∧ (k₀.processList 0).active = true) &&
      match k₀.tick with
      | .ok (.fault 0 84 true, k) =>
        decide ((k.currentThreadIndex = some 0 ∧ 0 < k.numThreads ∧ (k.thread 0).state = .RUNNING) ∧
          (k.thread 0).parent = 0 ∧ (k.processList 0).active = true ∧
          (k.processList 0).threads = [0] ∧ k.processWaiters 0 = []) &&
        match k.tick with
        | .ok (.fault 0 0xFFFFFFFC false, k') => decide ((k'.thread 0).state = .TERMINATED)
        | _ => false
      | _ => false) = true := by decide +kernel
  obtain ⟨k₀, hboot, hdec⟩ := returns_iff.1 hdec
  rw [Bool.and_eq_true] at hdec
  obtain ⟨hfirst, hdec⟩ := hdec
  split at hdec
  · rename_i k htick
    rw [Bool.and_eq_true] at hdec
    obtain ⟨hsecond, hdec⟩ := hdec
    split at hdec
    · rename_i k' htick'
      obtain ⟨⟨hidx, hlt, hrunning⟩, hstart⟩ := of_decide_eq_true hfirst
      obtain ⟨⟨hidx', hlt', hrunning'⟩, hloaded⟩ := of_decide_eq_true hsecond
      exact ⟨k₀, k, k', hboot, .tick ⟨0, hidx, hlt, hrunning⟩ htick,
        .tick ⟨0, hidx', hlt', hrunning'⟩ htick', hstart, hloaded, of_decide_eq_true hdec⟩
    · cases hdec
  · cases hdec

end Kernel

end Rv32umos
