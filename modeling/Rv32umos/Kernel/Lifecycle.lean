import Rv32umos.Kernel.Process

/-!
# What creation and termination do to the kernel

Closed forms of `Process::createThread`, `Process::terminate` and `Loader::loadELF`
(`createThread_cases`, `terminate_cases`, `loadELF_cases`), which the results on frames, on threads
and on mutexes all start from. The loops that set the states of a list of threads are one update of
`thread` (`setStates_eq`).
-/

namespace Rv32umos

namespace Kernel

variable {k k' : Kernel} {pid : Pid}

/-- `thread` after the threads in `ts` have been set to `state`. -/
def statesSet (thread : TRef → Thread) (ts : List TRef) (state : ThreadState) (t : TRef) : Thread :=
  if t ∈ ts then { thread t with state } else thread t

theorem setState_thread (k : Kernel) (t u : TRef) (state : ThreadState) :
    (k.setState t state).thread u =
      if u = t then { k.thread u with state } else k.thread u := by
  unfold setState
  split_ifs with h
  · subst h
    exact modifyThread_self k u _
  · exact modifyThread_ne k _ h

theorem setStates_eq (k : Kernel) (ts : List TRef) (state : ThreadState) :
    ts.foldl (fun k t => k.setState t state) k =
      { k with thread := statesSet k.thread ts state } := by
  induction ts generalizing k with
  | nil => rfl
  | cons head rest ih =>
    rw [List.foldl_cons, ih]
    refine congrArg (fun thread => { k with thread }) (funext fun t => ?_)
    unfold statesSet
    simp only [setState_thread, List.mem_cons]
    by_cases hhead : t = head
    · simp only [hhead, if_true, true_or]
      split_ifs <;> rfl
    · simp only [hhead, if_false, false_or]

theorem wipePTE_pmm {pte : PTE} (h : k.wipePTE pte = .ok k') : ∃ pmm, k' = { k with pmm } := by
  unfold wipePTE at h
  split_ifs at h
  · obtain ⟨pmm, -, h⟩ := bind_eq_ok.1 h
    cases h
    exact ⟨pmm, rfl⟩
  · cases h
    exact ⟨k.pmm, rfl⟩

/-- Wiping the memory of a process changes the physical memory manager only. -/
theorem wipeMemory_pmm (h : k.wipeMemory pid = .ok k') : ∃ pmm, k' = { k with pmm } := by
  unfold wipeMemory at h
  generalize (k.processList pid).pageTable.toList = l at h
  induction l generalizing k with
  | nil =>
    cases h
    exact ⟨k'.pmm, rfl⟩
  | cons head rest ih =>
    rw [List.foldlM_cons] at h
    obtain ⟨k₁, hwipe, h⟩ := bind_eq_ok.1 h
    obtain ⟨pmm₁, rfl⟩ := wipePTE_pmm hwipe
    obtain ⟨pmm, rfl⟩ := ih h
    exact ⟨pmm, rfl⟩

/-- A terminated process, and the states that `Process::terminate` leaves its threads and the
threads that wait for it in. -/
def terminated (k : Kernel) (pid : Pid) (exitCode : Word) (pmm : PhysicalMemoryManager) : Kernel :=
  { k with
    pmm
    thread := statesSet (statesSet k.thread (k.processList pid).threads .TERMINATED)
      (k.processWaiters pid) .READY
    exitCodes := Function.update k.exitCodes pid (some exitCode)
    processWaiters := Function.update k.processWaiters pid [] }.modifyProcess pid fun p =>
      { p with active := false }

theorem terminate_cases {exitCode : Word} {ok : Bool}
    (h : k.terminate pid exitCode = .ok (ok, k')) :
    (ok = false ∧ (k.processList pid).active = false ∧ k' = k) ∨
    (ok = true ∧ (k.processList pid).active = true ∧ ∃ pmm,
      k.wipeMemory pid = .ok { k with pmm } ∧ k' = k.terminated pid exitCode pmm) := by
  unfold terminate at h
  split_ifs at h with hactive
  · cases h
    exact .inl ⟨rfl, by simpa using hactive, rfl⟩
  · obtain ⟨k₁, hwipe, h⟩ := bind_eq_ok.1 h
    obtain ⟨pmm, rfl⟩ := wipeMemory_pmm hwipe
    simp only [setStates_eq] at h
    cases h
    exact .inr ⟨rfl, by simpa using hactive, pmm, hwipe, rfl⟩

/-! ### New threads -/

/-- The thread that `createThread` makes. -/
def newThread (k : Kernel) (pid : Pid) (entryPC : Addr) (arg : Word) : Thread :=
  let thread :=
    Thread.new (k.processList pid).threads.length pid entryPC (k.processList pid).nextStackBase
  { thread with regs := thread.regs.write 10 arg }

/-- The bottom of the next stack once `p` has one more. -/
def Process.stackBelow (p : Process) : Addr :=
  p.nextStackBase -
    BitVec.ofNat 32 (if p.threads.isEmpty then MAIN_STACK_SIZE else THREAD_STACK_SIZE) -
    BitVec.ofNat 32 GUARD_PAGE_SIZE

/-- The kernel with one more thread, in process `pid`. -/
def withThread (k : Kernel) (pid : Pid) (thread : Thread) : Kernel :=
  { k with
    thread := Function.update k.thread k.numThreads { thread with state := .READY }
    numThreads := k.numThreads + 1 }.modifyProcess pid fun p =>
      { p with nextStackBase := Process.stackBelow p, threads := p.threads ++ [k.numThreads] }

/-- A thread is created, or the limit is reached, or the entry point is not executable. -/
theorem createThread_cases {entry : Addr} {arg : Word} {t : Option TRef}
    (h : k.createThread pid entry arg = (t, k')) :
    (t = none ∧ k' = k) ∨
    ((k.processList pid).threads.length < MAX_THREADS ∧ t = some k.numThreads ∧
      k'.activateThread k.numThreads = k.withThread pid (k.newThread pid entry arg)) := by
  unfold createThread at h
  dsimp only at h
  by_cases hfull : (k.processList pid).threads.length ≥ MAX_THREADS
  · rw [if_pos hfull] at h
    cases h
    exact .inl ⟨rfl, rfl⟩
  · rw [if_neg hfull] at h
    split at h
    · cases h
      exact .inl ⟨rfl, rfl⟩
    · cases h
      refine .inr ⟨Nat.lt_of_not_le hfull, rfl, ?_⟩
      unfold activateThread withThread setState modifyThread
      dsimp only [modifyProcess]
      rw [Function.update_self, Function.update_idem]
      rfl

end Kernel

/-! ### Loading a process -/

namespace Loader

open Kernel

variable {k k' : Kernel} {pid : Pid}

/-- A slot right after `recycle` and the loading of the segments. -/
def freshProcess (p : Process) (name : Name) (segments : List Segment) : Process where
  name := name
  active := true
  pageTable := .empty
  segments := segments
  threads := []
  mutexList := []
  fdTable := fun fd => if fd < 3 then p.fdTable fd else none
  programBreak := BitVec.ofNat 32 HEAP_START
  nextStackBase := BitVec.ofNat 32 STACK_TOP
  instructionsExecuted := 0

/-- The kernel with a fresh process in slot `pid`. -/
def freshSlot (k : Kernel) (pid : Pid) (name : Name) (segments : List Segment)
    (pmm : PhysicalMemoryManager) : Kernel :=
  { k with pmm }.modifyProcess pid fun p => freshProcess p name segments

theorem recycle_cases {name : Name} (h : k.recycle pid name = .ok k') :
    ∃ pmm, k.wipeMemory pid = .ok { k with pmm } ∧ k' = freshSlot k pid name [] pmm := by
  obtain ⟨k₁, hwipe, h⟩ := bind_eq_ok.1 h
  obtain ⟨pmm, rfl⟩ := wipeMemory_pmm hwipe
  cases h
  exact ⟨pmm, hwipe, rfl⟩

/-- Everything `loadELF` can do: nothing, or a slot that no active process is in is wiped and made
fresh, with a main thread, or inactive when its entry point is not executable. -/
theorem loadELF_cases {filename : Name} {created : Option Pid}
    (h : loadELF k filename = .ok (created, k')) :
    (created = none ∧ k' = k) ∨
    ∃ file pid pmm segments, k.host.files filename = some file ∧ validHeader file = true ∧
      freeSlot k = some pid ∧ k.wipeMemory pid = .ok { k with pmm } ∧
      ((created = none ∧
        k' = (freshSlot k pid filename segments pmm).modifyProcess pid fun p =>
          { p with active := false }) ∨
      (created = some pid ∧
        k' = (freshSlot k pid filename segments pmm).withThread pid
          ((freshSlot k pid filename segments pmm).newThread pid (entry file) 0))) := by
  unfold loadELF at h
  cases hfile : k.host.files filename with
  | none =>
    simp only [hfile] at h
    cases h
    exact .inl ⟨rfl, rfl⟩
  | some file =>
    simp only [hfile] at h
    split_ifs at h with hheader
    · cases h
      exact .inl ⟨rfl, rfl⟩
    · cases hslot : freeSlot k with
      | none =>
        simp only [hslot] at h
        cases h
        exact .inl ⟨rfl, rfl⟩
      | some pid =>
        simp only [hslot] at h
        obtain ⟨k₁, hrecycle, h⟩ := bind_eq_ok.1 h
        obtain ⟨pmm, hwipe, rfl⟩ := recycle_cases hrecycle
        obtain ⟨segments, -, h⟩ := bind_eq_ok.1 h
        refine .inr ⟨file, pid, pmm, segments, rfl, by simpa using hheader, rfl, hwipe, ?_⟩
        have hfresh : ((freshSlot k pid filename [] pmm).modifyProcess pid fun p =>
            { p with segments := p.segments ++ segments }) =
            freshSlot k pid filename segments pmm := by
          unfold freshSlot modifyProcess
          dsimp only
          rw [Function.update_self, Function.update_idem]
          rfl
        rw [hfresh] at h
        dsimp only at h
        split at h
        · rename_i k₂ hcreate
          rcases createThread_cases hcreate with ⟨-, rfl⟩ | ⟨-, hnone, -⟩
          · cases h
            exact .inl ⟨rfl, rfl⟩
          · cases hnone
        · rename_i t k₂ hcreate
          rcases createThread_cases hcreate with ⟨hnone, -⟩ | ⟨-, ht, hk₂⟩
          · cases hnone
          · cases ht
            cases h
            exact .inr ⟨rfl, hk₂⟩

/-- The slot that a load takes is not active. -/
theorem freeSlot_inactive (h : freeSlot k = some pid) : (k.processList pid).active = false := by
  have hfound := List.find?_some h
  simpa using hfound

end Loader

end Rv32umos
