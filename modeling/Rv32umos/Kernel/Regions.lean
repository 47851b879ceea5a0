import Rv32umos.Kernel.Residue
import Rv32umos.Kernel.SamePages

/-!
# The regions of a process

What a step does to the places of the stacks, the heap and the pages of the processes. It leaves the
bounds of all regions alone, moves one break, makes one thread, or starts one process (`LayoutStep`,
`step_layout`); and a page that a process has after a step it had before, or the step served a page fault
in one of its regions (`step_hasPage`).
-/

namespace Rv32umos

open Kernel (Event)

/-- What the regions of a process are made of: the top of the next stack, the threads, the segments and
the break. -/
structure Layout where
  base : Addr
  threads : List TRef
  segments : List Segment
  brk : Addr

def Process.layout (p : Process) : Layout := ⟨p.nextStackBase, p.threads, p.segments, p.programBreak⟩

namespace Layout

/-- A process that has just been loaded, before its main thread. -/
def fresh (segments : List Segment) : Layout :=
  ⟨BitVec.ofNat 32 STACK_TOP, [], segments, BitVec.ofNat 32 HEAP_START⟩

/-- One thread more, on the next stack. -/
def push (l : Layout) (t : TRef) : Layout where
  base := l.base - BitVec.ofNat 32 (if l.threads.isEmpty then MAIN_STACK_SIZE else THREAD_STACK_SIZE) -
    BitVec.ofNat 32 GUARD_PAGE_SIZE
  threads := l.threads ++ [t]
  segments := l.segments
  brk := l.brk

end Layout

namespace Kernel

variable {k k' : Kernel} {pid : Pid}

def layout (k : Kernel) (pid : Pid) : Layout := (k.processList pid).layout

theorem modifyProcess_layout (k : Kernel) (pid : Pid) {f : Process → Process}
    (hf : ∀ p, (f p).layout = p.layout) : (k.modifyProcess pid f).layout = k.layout := by
  funext pid'
  unfold layout
  by_cases hpid : pid' = pid
  · rw [hpid, modifyProcess_self, hf]
  · rw [modifyProcess_ne k f hpid]

theorem layout_of_unpaged (h : k'.unpaged = k.unpaged) : k'.layout = k.layout := by
  funext pid
  have hprocess := congrArg Process.layout (process_of_unpaged h pid)
  exact hprocess

theorem withMachine_layout (k : Kernel) (cpu : Machine) : (k.withMachine cpu).layout = k.layout := by
  have htable : (k.withTable cpu.mmu.currentTable).layout = k.layout := by
    cases cpu.mmu.currentTable with
    | none => rfl
    | some table =>
      cases hcur : k.cpu.currentTable with
      | none => simp only [withTable, hcur]
      | some cur =>
        simp only [withTable, hcur]
        exact modifyProcess_layout k cur fun _ => rfl
  exact htable

theorem loadVirtualMemory_layout {v : Addr} {n : Nat} {val : Word}
    (h : k.loadVirtualMemory v n = .ok (val, k')) : k'.layout = k.layout := by
  obtain ⟨⟨w, cpu⟩, -, h⟩ := bind_eq_ok.1 h
  cases h
  exact withMachine_layout k cpu

theorem storeVirtualMemory_layout {v : Addr} {n : Nat} {val : Word}
    (h : k.storeVirtualMemory v n val = .ok k') : k'.layout = k.layout := by
  obtain ⟨cpu, -, h⟩ := bind_eq_ok.1 h
  cases h
  exact withMachine_layout k cpu

theorem setMutex_layout (k : Kernel) (pid : Pid) (id : Nat) (m : Mutex) :
    (k.setMutex pid id m).layout = k.layout := modifyProcess_layout k pid fun _ => rfl

theorem setStates_layout (k : Kernel) (ts : List TRef) (state : ThreadState) :
    (ts.foldl (fun k t => k.setState t state) k).layout = k.layout := by
  induction ts generalizing k with
  | nil => rfl
  | cons t ts ih => exact ih (k.setState t state)

theorem deliver_layout (k : Kernel) (r : SyscallResult) : (k.deliver r).layout = k.layout := by
  unfold deliver
  split <;> split <;> rfl

theorem preempt_layout (k : Kernel) : k.preempt.layout = k.layout := by
  rcases k.preempt_cases with h | ⟨t, -, -, -, h⟩
  · rw [h]
  · rw [h, contextSwitch_eq]
    rfl

theorem terminate_layout {exitCode : Word} {ok : Bool} (h : k.terminate pid exitCode = .ok (ok, k')) :
    k'.layout = k.layout := by
  rcases terminate_cases h with ⟨-, -, rfl⟩ | ⟨-, -, pmm, -, rfl⟩
  · rfl
  · exact modifyProcess_layout _ pid fun _ => rfl

end Kernel

namespace SyscallHandler

open Kernel

variable {k k' : Kernel} {ctx : SyscallContext} {r : SyscallResult}

theorem copyIn_layout {addr : Word} {n i : Nat} {bytes : List Byte} (h : copyIn addr n i k = .ok (bytes, k')) :
    k'.layout = k.layout := by
  induction n generalizing i k bytes with
  | zero =>
    cases h
    rfl
  | succ n ih =>
    obtain ⟨⟨c, k₁⟩, hload, h⟩ := bind_eq_ok.1 h
    obtain ⟨⟨rest, k₂⟩, hrest, h⟩ := bind_eq_ok.1 h
    cases h
    exact (ih hrest).trans (loadVirtualMemory_layout hload)

theorem copyOut_layout {addr : Word} {bytes : List Byte} {i : Nat} (h : copyOut addr bytes i k = .ok k') :
    k'.layout = k.layout := by
  induction bytes generalizing i k with
  | nil =>
    cases h
    rfl
  | cons byte rest ih =>
    obtain ⟨k₁, hstore, h⟩ := bind_eq_ok.1 h
    exact (ih h).trans (storeVirtualMemory_layout hstore)

theorem readPath_layout {addr : Word} {n offset : Nat} {name : Name}
    (h : readPath addr n offset k = .ok (name, k')) : k'.layout = k.layout := by
  induction n generalizing offset k name with
  | zero =>
    cases h
    rfl
  | succ n ih =>
    obtain ⟨⟨w, k₁⟩, hload, h⟩ := bind_eq_ok.1 h
    have hfirst := loadVirtualMemory_layout hload
    dsimp only at h
    split_ifs at h
    · cases h
      exact hfirst
    · obtain ⟨⟨rest, k₂⟩, hrest, h⟩ := bind_eq_ok.1 h
      cases h
      exact (ih hrest).trans hfirst

theorem readFilename_layout {addr : Word} {name : Name} (h : readFilename k addr = .ok (name, k')) :
    k'.layout = k.layout := readPath_layout h

theorem setFileHandle_layout (k : Kernel) (pid : Pid) (fd : Nat) (handle : Option FileHandle) :
    (k.modifyProcess pid fun p =>
      { p with fdTable := Function.update p.fdTable fd handle }).layout = k.layout :=
  modifyProcess_layout k pid fun _ => rfl

theorem addFileHandle_layout (k : Kernel) (pid : Pid) (handle : FileHandle) :
    (k.addFileHandle pid handle).2.layout = k.layout := by
  unfold addFileHandle
  split
  · rfl
  · exact setFileHandle_layout k pid _ _

theorem closeFileHandle_layout (k : Kernel) (pid : Pid) (fd : Int) :
    (k.closeFileHandle pid fd).2.layout = k.layout := by
  unfold closeFileHandle
  split
  · rfl
  · exact setFileHandle_layout k pid _ none

theorem writeHandle_layout (k : Kernel) (pid : Pid) (fd : Nat) (handle : FileHandle) (buffer : List Byte)
    (count : Nat) : (writeHandle k pid fd handle buffer count).2.layout = k.layout := by
  cases handle with
  | console hostFD => rfl
  | disk h =>
    exact setFileHandle_layout { k with disk := (h.write k.disk buffer count).2.1 } pid fd
      (some (.disk (h.write k.disk buffer count).2.2))

theorem handleWrite_layout (h : handleWrite k ctx = .ok (r, k')) : k'.layout = k.layout := by
  obtain ⟨current, -, h⟩ := bind_eq_ok.1 h
  dsimp only at h
  split at h
  · cases h
    rfl
  · rename_i fd handle _
    obtain ⟨⟨buffer, k₁⟩, hcopy, h⟩ := bind_eq_ok.1 h
    cases h
    exact (writeHandle_layout _ _ _ _ _ _).trans (copyIn_layout hcopy)

theorem readHandle_layout (k : Kernel) (pid : Pid) (fd : Nat) (handle : FileHandle) (buffer : List Byte)
    (count : Nat) : (readHandle k pid fd handle buffer count).2.2.layout = k.layout := by
  cases handle with
  | console hostFD => rfl
  | disk h => exact setFileHandle_layout k pid fd (some (.disk (h.read k.disk buffer count).2.2))

theorem handleRead_layout (h : handleRead k ctx = .ok (r, k')) : k'.layout = k.layout := by
  obtain ⟨current, -, h⟩ := bind_eq_ok.1 h
  dsimp only at h
  split at h
  · cases h
    rfl
  · rename_i fd handle _
    have hread := readHandle_layout k (k.thread current).parent fd handle
      (List.replicate ctx.arg2.toNat 0) ctx.arg2.toNat
    split_ifs at h
    · obtain ⟨k₁, hcopy, h⟩ := bind_eq_ok.1 h
      cases h
      exact (copyOut_layout hcopy).trans hread
    · cases h
      exact hread

theorem handleOpen_layout (h : handleOpen k ctx = .ok (r, k')) : k'.layout = k.layout := by
  obtain ⟨⟨filename, k₁⟩, hread, h⟩ := bind_eq_ok.1 h
  have hpath := readFilename_layout hread
  dsimp only at h
  split at h
  · cases h
    exact hpath
  · rename_i handle _
    obtain ⟨current, -, h⟩ := bind_eq_ok.1 h
    have hadd := addFileHandle_layout k₁ (k₁.thread current).parent (.disk handle)
    split at h
    · rename_i k₂ hk₂
      cases h
      rw [hk₂] at hadd
      exact hadd.trans hpath
    · rename_i fd k₂ hk₂
      cases h
      rw [hk₂] at hadd
      exact hadd.trans hpath

theorem handleClose_layout (h : handleClose k ctx = .ok (r, k')) : k'.layout = k.layout := by
  obtain ⟨current, -, h⟩ := bind_eq_ok.1 h
  cases h
  exact closeFileHandle_layout _ _ _

theorem handleCreate_layout (h : handleCreate k ctx = .ok (r, k')) : k'.layout = k.layout := by
  obtain ⟨⟨filename, k₁⟩, hread, h⟩ := bind_eq_ok.1 h
  cases h
  have hlayout := readFilename_layout hread
  exact hlayout

theorem handleThreadJoin_layout (h : handleThreadJoin k ctx = .ok (r, k')) : k'.layout = k.layout := by
  obtain ⟨current, -, h⟩ := bind_eq_ok.1 h
  dsimp only at h
  split at h
  · cases h
    rfl
  · split_ifs at h <;> cases h <;> rfl

theorem handleThreadExit_layout (h : handleThreadExit k ctx = .ok (r, k')) : k'.layout = k.layout := by
  obtain ⟨current, -, h⟩ := bind_eq_ok.1 h
  dsimp only at h
  split at h <;> cases h <;> rfl

theorem handleMutexCreate_layout (h : handleMutexCreate k ctx = .ok (r, k')) : k'.layout = k.layout := by
  obtain ⟨current, -, h⟩ := bind_eq_ok.1 h
  cases h
  exact modifyProcess_layout k _ fun _ => rfl

theorem handleMutexLock_layout (h : handleMutexLock k ctx = .ok (r, k')) : k'.layout = k.layout := by
  obtain ⟨current, -, h⟩ := bind_eq_ok.1 h
  dsimp only at h
  split at h
  · cases h
    rfl
  · rename_i id lock _
    have hacquire : (k.acquire (k.thread current).parent id lock current).2.layout = k.layout := by
      unfold acquire
      split
      · exact setMutex_layout (k.setState current .BLOCKED) _ id _
      · exact setMutex_layout k _ id _
    split at h
    · rename_i k₁ hk₁
      cases h
      rw [hk₁] at hacquire
      exact hacquire
    · rename_i k₁ hk₁
      cases h
      rw [hk₁] at hacquire
      exact hacquire

theorem handleMutexUnlock_layout (h : handleMutexUnlock k ctx = .ok (r, k')) : k'.layout = k.layout := by
  obtain ⟨current, -, h⟩ := bind_eq_ok.1 h
  dsimp only at h
  split at h
  · cases h
    rfl
  · rename_i id lock _
    have hrelease : (k.release (k.thread current).parent id lock current).2.layout = k.layout := by
      unfold release
      split
      · rfl
      · exact (setMutex_layout _ _ id _).trans (setStates_layout k _ _)
    split at h
    · rename_i k₁ hk₁
      cases h
      rw [hk₁] at hrelease
      exact hrelease
    · rename_i k₁ hk₁
      cases h
      rw [hk₁] at hrelease
      exact hrelease

theorem handleJoinProcess_layout (h : handleJoinProcess k ctx = .ok (r, k')) : k'.layout = k.layout := by
  unfold handleJoinProcess at h
  dsimp only at h
  split at h
  · cases h
    rfl
  · split at h
    · split_ifs at h
      · obtain ⟨k₁, hstore, h⟩ := bind_eq_ok.1 h
        cases h
        have hlayout := storeVirtualMemory_layout hstore
        exact hlayout
      · cases h
        rfl
    · split_ifs at h
      · cases h
        rfl
      · obtain ⟨current, -, h⟩ := bind_eq_ok.1 h
        cases h
        rfl

end SyscallHandler

namespace Kernel

variable {k k' : Kernel} {pid : Pid}

/-! ### What a step does to the regions -/

inductive LayoutStep (k k' : Kernel) : Prop
  | same (h : k'.layout = k.layout)
  | move (pid : Pid) (brk : Addr) (hbrk : HEAP_START ≤ brk.toNat ∧ brk.toNat ≤ HEAP_MAX_LIMIT)
    (h : k'.layout = Function.update k.layout pid { k.layout pid with brk })
  | thread (pid : Pid) (hroom : (k.layout pid).threads.length < MAX_THREADS)
    (h : k'.layout = Function.update k.layout pid ((k.layout pid).push k.numThreads))
    (hnew : Threads.identity (k'.thread k.numThreads) =
      ((k.layout pid).threads.length, pid, (k.layout pid).base))
  | fail (pid : Pid) (segments : List Segment)
    (h : k'.layout = Function.update k.layout pid (.fresh segments)) (hpages : ∀ vpn, k'.pte pid vpn = {})
  | load (pid : Pid) (segments : List Segment)
    (h : k'.layout = Function.update k.layout pid ((Layout.fresh segments).push k.numThreads))
    (hnew : Threads.identity (k'.thread k.numThreads) = (0, pid, BitVec.ofNat 32 STACK_TOP))
    (hpages : ∀ vpn, k'.pte pid vpn = {})

theorem modifyProcess_layout_update (k : Kernel) (pid : Pid) (f : Process → Process) :
    (k.modifyProcess pid f).layout = Function.update k.layout pid (f (k.processList pid)).layout := by
  funext pid'
  unfold layout
  by_cases hpid : pid' = pid
  · rw [hpid, modifyProcess_self, Function.update_self]
  · rw [modifyProcess_ne k f hpid, Function.update_of_ne hpid]

theorem withThread_layout (k : Kernel) (pid : Pid) (thread : Thread) :
    (k.withThread pid thread).layout = Function.update k.layout pid ((k.layout pid).push k.numThreads) :=
  modifyProcess_layout_update _ pid _

theorem withThread_identity (k : Kernel) (pid : Pid) (entry : Addr) (arg : Word) :
    Threads.identity ((k.withThread pid (k.newThread pid entry arg)).thread k.numThreads) =
      ((k.layout pid).threads.length, pid, (k.layout pid).base) := by
  have hthread : (k.withThread pid (k.newThread pid entry arg)).thread k.numThreads =
    { k.newThread pid entry arg with state := .READY } := Function.update_self _ _ _
  rw [hthread]
  rfl

theorem freshSlot_layout (k : Kernel) (pid : Pid) (name : Name) (segments : List Segment)
    (pmm : PhysicalMemoryManager) : (Loader.freshSlot k pid name segments pmm).layout =
      Function.update k.layout pid (.fresh segments) :=
  modifyProcess_layout_update _ pid _

theorem freshSlot_pte (k : Kernel) (pid : Pid) (name : Name) (segments : List Segment)
    (pmm : PhysicalMemoryManager) (vpn : Addr) :
    (Loader.freshSlot k pid name segments pmm).pte pid vpn = {} := by
  rw [pte, Loader.freshSlot, modifyProcess_self]
  rfl

theorem LayoutStep.of_eq {k₁ k₂ : Kernel} (h : LayoutStep k₁ k₂) (hlayout : k₁.layout = k.layout)
    (hnum : k₁.numThreads = k.numThreads) (hlayout' : k'.layout = k₂.layout)
    (hthread : ∀ t, Threads.identity (k'.thread t) = Threads.identity (k₂.thread t))
    (hpages : ∀ pid vpn, k'.pte pid vpn = k₂.pte pid vpn) :
    LayoutStep k k' := by
  cases h with
  | same h => exact .same (hlayout'.trans (h.trans hlayout))
  | move pid brk hbrk h =>
    rw [hlayout] at h
    exact .move pid brk hbrk (hlayout'.trans h)
  | thread pid hroom h hnew =>
    rw [hlayout] at h hroom hnew
    rw [hnum] at h hnew
    rw [← hthread] at hnew
    exact .thread pid hroom (hlayout'.trans h) hnew
  | fail pid segments h hempty =>
    rw [hlayout] at h
    exact .fail pid segments (hlayout'.trans h) fun vpn => (hpages pid vpn).trans (hempty vpn)
  | load pid segments h hnew hempty =>
    rw [hlayout, hnum] at h
    rw [hnum, ← hthread] at hnew
    exact .load pid segments (hlayout'.trans h) hnew fun vpn => (hpages pid vpn).trans (hempty vpn)

theorem loadELF_layout {filename : Name} {created : Option Pid}
    (h : Loader.loadELF k filename = .ok (created, k')) : LayoutStep k k' := by
  rcases Loader.loadELF_cases h with ⟨-, rfl⟩ | ⟨file, pid, pmm, segments, -, -, -, -, hcase⟩
  · exact .same rfl
  · have hslot := freshSlot_layout k pid filename segments pmm
    have hself : (Loader.freshSlot k pid filename segments pmm).layout pid = .fresh segments := by
      rw [hslot, Function.update_self]
    have hempty := freshSlot_pte k pid filename segments pmm
    rcases hcase with ⟨-, rfl⟩ | ⟨-, rfl⟩
    · have hinactive : ((Loader.freshSlot k pid filename segments pmm).modifyProcess pid fun p =>
          { p with active := false }).layout = (Loader.freshSlot k pid filename segments pmm).layout :=
        modifyProcess_layout _ pid fun _ => rfl
      refine .fail pid segments (hinactive.trans hslot) fun vpn => ?_
      have hpte := modifyProcess_pte (Loader.freshSlot k pid filename segments pmm) pid
        (fun p => { p with active := false }) (fun _ => rfl) pid vpn
      exact hpte.trans (hempty vpn)
    · have hnew := withThread_identity (Loader.freshSlot k pid filename segments pmm) pid (Loader.entry file) 0
      have hlayout := withThread_layout (Loader.freshSlot k pid filename segments pmm) pid
        ((Loader.freshSlot k pid filename segments pmm).newThread pid (Loader.entry file) 0)
      rw [hself] at hnew hlayout
      rw [hslot, Function.update_idem] at hlayout
      refine .load pid segments hlayout hnew fun vpn => ?_
      have hpte := modifyProcess_pte (Loader.freshSlot k pid filename segments pmm) pid
        (fun p => { p with
          nextStackBase := Process.stackBelow p
          threads := p.threads ++ [(Loader.freshSlot k pid filename segments pmm).numThreads] })
        (fun _ => rfl) pid vpn
      exact hpte.trans (hempty vpn)

end Kernel

namespace SyscallHandler

open Kernel

variable {k k' : Kernel} {ctx : SyscallContext} {r : SyscallResult}

theorem handleThreadCreate_layout (h : handleThreadCreate k ctx = .ok (r, k')) : LayoutStep k k' := by
  obtain ⟨current, -, h⟩ := bind_eq_ok.1 h
  split at h
  · rename_i k₁ hcreate
    cases h
    rcases createThread_cases hcreate with ⟨-, rfl⟩ | ⟨-, ht, -⟩
    · exact .same rfl
    · cases ht
  · rename_i t k₁ hcreate
    cases h
    rcases createThread_cases hcreate with ⟨ht, -⟩ | ⟨hroom, ht, hk₁⟩
    · cases ht
    · cases ht
      rw [hk₁]
      exact .thread _ hroom (withThread_layout k _ _) (withThread_identity k _ _ _)

theorem sbrk_layout (k : Kernel) (pid : Pid) (increment : Word) : LayoutStep k (k.sbrk pid increment).2 := by
  unfold sbrk
  dsimp only
  split_ifs with hbreak
  · exact .same rfl
  · have hlayout := modifyProcess_layout_update k pid fun p =>
      { p with programBreak := (k.processList pid).programBreak + increment }
    exact .move pid ((k.processList pid).programBreak + increment) (by omega) hlayout

theorem handleSbrk_layout (h : handleSbrk k ctx = .ok (r, k')) : LayoutStep k k' := by
  obtain ⟨current, -, h⟩ := bind_eq_ok.1 h
  cases h
  exact sbrk_layout k _ _

theorem handleCreateProcess_layout (h : handleCreateProcess k ctx = .ok (r, k')) : LayoutStep k k' := by
  obtain ⟨⟨filename, k₁⟩, hread, h⟩ := bind_eq_ok.1 h
  obtain ⟨⟨created, k₂⟩, hload, h⟩ := bind_eq_ok.1 h
  have hstep := (loadELF_layout hload).of_eq (readFilename_layout hread) (readFilename_quiet hread).numThreads
    rfl (fun _ => rfl) fun _ _ => rfl
  dsimp only at h
  split at h <;> cases h <;> exact hstep

theorem dispatch_layout (h : dispatch k ctx = .ok (r, k')) : LayoutStep k k' := by
  unfold dispatch at h
  split at h
  · obtain ⟨current, -, h⟩ := bind_eq_ok.1 h
    obtain ⟨⟨ok, k₁⟩, hterminate, h⟩ := bind_eq_ok.1 h
    dsimp only at h
    split_ifs at h
    cases h
    exact .same (terminate_layout hterminate)
  · exact .same (handleWrite_layout h)
  · exact .same (handleRead_layout h)
  · exact handleThreadCreate_layout h
  · exact .same (handleThreadExit_layout h)
  · exact .same (handleThreadJoin_layout h)
  · exact .same (handleMutexCreate_layout h)
  · exact .same (handleMutexLock_layout h)
  · exact .same (handleMutexUnlock_layout h)
  · exact .same (handleOpen_layout h)
  · exact .same (handleClose_layout h)
  · exact .same (handleCreate_layout h)
  · exact handleSbrk_layout h
  · exact handleCreateProcess_layout h
  · exact .same (handleJoinProcess_layout h)
  · cases h

end SyscallHandler

namespace Kernel

variable {k k' : Kernel} {pid : Pid}

theorem terminate_identity {exitCode : Word} {ok : Bool} (h : k.terminate pid exitCode = .ok (ok, k'))
    (t : TRef) :
    Threads.identity (k'.thread t) = Threads.identity (k.thread t) := by
  have hset : ∀ (thread : TRef → Thread) (ts : List TRef) (state : ThreadState),
      Threads.identity (statesSet thread ts state t) = Threads.identity (thread t) := by
    intro thread ts state
    unfold statesSet
    split_ifs <;> rfl
  rcases terminate_cases h with ⟨-, -, rfl⟩ | ⟨-, -, pmm, -, rfl⟩
  · rfl
  · exact (hset _ _ _).trans (hset _ _ _)

theorem preempt_identity (k : Kernel) (t : TRef) :
    Threads.identity (k.preempt.thread t) = Threads.identity (k.thread t) := by
  have hsaved : Threads.identity (k.savedThread t) = Threads.identity (k.thread t) := by
    unfold savedThread
    split_ifs <;> rfl
  rcases k.preempt_cases with h | ⟨u, -, -, -, h⟩
  · rw [h]
  · rw [h, contextSwitch_eq]
    dsimp only
    by_cases ht : t = u
    · rw [ht, Function.update_self]
      rw [ht] at hsaved
      exact hsaved
    · rw [Function.update_of_ne ht]
      exact hsaved

theorem deliver_thread (k : Kernel) (r : SyscallResult) : (k.deliver r).thread = k.thread := by
  unfold deliver
  split <;> split <;> rfl

theorem deliver_pte (k : Kernel) (r : SyscallResult) (pid : Pid) (vpn : Addr) :
    (k.deliver r).pte pid vpn = k.pte pid vpn := by
  unfold deliver
  split <;> split <;> rfl

theorem handlePageFault_layout {addr : Addr} {handled : Bool} (h : k.handlePageFault addr = .ok (handled, k')) :
    k'.layout = k.layout := by
  obtain ⟨current, -, h⟩ := bind_eq_ok.1 h
  obtain ⟨⟨served, k₁⟩, hserve, h⟩ := bind_eq_ok.1 h
  have hlayout := layout_of_unpaged (servePageFault_unpaged hserve)
  dsimp only at h
  split_ifs at h
  · obtain ⟨⟨killed, k₂⟩, hkill, h⟩ := bind_eq_ok.1 h
    dsimp only at h
    split_ifs at h
    cases h
    exact (terminate_layout hkill).trans hlayout
  · cases h
    exact hlayout

theorem step_layout {e : Event} (h : Step k e k') : LayoutStep k k' := by
  cases h with
  | preempt => exact .same k.preempt_layout
  | rehash pid table hperm => exact .same (modifyProcess_layout k pid fun _ => rfl)
  | tick hrunning htick =>
    obtain ⟨self, k₁, cpu, -, hk₁, hcpu, hcase⟩ := tick_cases htick
    have hlayout : (k₁.withMachine cpu).layout = k.layout := by
      rw [withMachine_layout, hk₁]
      exact modifyProcess_layout k _ fun _ => rfl
    rcases hcase with ⟨-, -, rfl⟩ | ⟨addr, handled, -, -, hfault⟩ | ⟨id, ctx, r, -, -, hsyscall⟩
    · exact .same hlayout
    · exact .same ((handlePageFault_layout hfault).trans hlayout)
    · obtain ⟨-, k₂, hdispatch, hcase⟩ := handleSyscall_cases hsyscall
      have hcall := SyscallHandler.dispatch_layout hdispatch
      have hnum : (k₁.withMachine cpu).clearTrap.numThreads = k.numThreads :=
        ((Quiet.tick hk₁ hcpu).trans (clearTrap_quiet _)).numThreads
      have hdeliver : LayoutStep k (k₂.deliver r) :=
        hcall.of_eq hlayout hnum (deliver_layout k₂ r)
          (fun t => congrArg (fun thread => Threads.identity (thread t)) (deliver_thread k₂ r))
          (deliver_pte k₂ r)
      rcases hcase with ⟨-, rfl⟩ | ⟨-, current, -, hkill⟩
      · exact hdeliver
      · refine hdeliver.of_eq rfl rfl (terminate_layout hkill) (terminate_identity hkill) fun pid vpn => ?_
        rcases terminate_cases hkill with ⟨-, -, rfl⟩ | ⟨-, -, pmm, -, rfl⟩
        · rfl
        · rw [terminated_pte]

/-! ### What a step does to the pages -/

/-- The process has the page: it is resident, or in the swap area. -/
def HasPage (k : Kernel) (o : Page) : Prop :=
  (k.pte o.1 o.2).valid = true ∨ (k.pte o.1 o.2).swapped = true

/-- What `growsStack`, `inSegment` and the heap handler test. -/
def InRegion (k : Kernel) (pid : Pid) (addr : Addr) : Prop :=
  k.growsStack pid addr = true ∨ k.inSegment pid addr = true ∨
    (HEAP_START ≤ addr.toNat ∧ addr < (k.processList pid).programBreak)

theorem hasPage_congr {o : Page} (h : k'.pte o.1 o.2 = k.pte o.1 o.2) : k'.HasPage o ↔ k.HasPage o := by
  unfold HasPage
  rw [h]

theorem SameFrames.hasPage (h : SameFrames k k') (o : Page) : k'.HasPage o ↔ k.HasPage o := by
  unfold HasPage
  rw [h.valid, h.swapped]

theorem InRegion.congr {addr : Addr} (h : k'.InRegion pid addr) (hlayout : k'.layout = k.layout)
    (hthread : k'.thread = k.thread) : k.InRegion pid addr := by
  have hpid : (k'.processList pid).layout = (k.processList pid).layout := congrFun hlayout pid
  have hthreads : (k'.processList pid).threads = (k.processList pid).threads := congrArg Layout.threads hpid
  have hsegments : (k'.processList pid).segments = (k.processList pid).segments := congrArg Layout.segments hpid
  have hbrk : (k'.processList pid).programBreak = (k.processList pid).programBreak := congrArg Layout.brk hpid
  have hstack : k'.inStack = k.inStack := by
    funext addr t
    unfold inStack
    rw [hthread]
  unfold InRegion growsStack inSegment at h ⊢
  rw [hthreads, hsegments, hbrk, hstack] at h
  exact h

/-- A page fault is served in the regions, or for a page that the process already has. -/
theorem servePageFault_region {faultAddr : Addr} (h : k.servePageFault pid faultAddr = .ok (true, k')) :
    k.HasPage (pid, faultAddr >>> 12) ∨ k.InRegion pid faultAddr := by
  by_cases hpage : k.HasPage (pid, faultAddr >>> 12)
  · exact .inl hpage
  · unfold HasPage at hpage
    rw [not_or, Bool.not_eq_true, Bool.not_eq_true] at hpage
    rw [servePageFault_eq hpage.1 hpage.2] at h
    have hregion : (k.setPTE pid (faultAddr >>> 12) (k.pte pid (faultAddr >>> 12))).InRegion pid faultAddr := by
      unfold firstFault at h
      split_ifs at h with hgrows hseg
      · exact .inl hgrows
      · exact .inr (.inl hseg)
      · unfold handleHeapGrowth at h
        split_ifs at h with hheap
        · exact .inr (.inr hheap)
        · cases h
    exact .inr (hregion.congr (layout_of_unpaged (unpaged_setPTE k pid _ _)) rfl)

theorem Serves.hasPage {faultAddr : Addr} {o o' : Page} (h : k.Serves o faultAddr k') (hok : k.OwnersOk)
    (hne : o' ≠ o) (ho' : k'.HasPage o') : k.HasPage o' := by
  obtain ⟨k₁, ppn, rest, prp, e, memory, swap, halloc, hfills, rfl⟩ := h
  have hpage : k₁.HasPage o' := (hasPage_congr (pte_setPTE_ne _ e hne)).1 ho'
  rcases halloc.evicted with rfl | hevict
  · exact hpage
  · obtain ⟨-, -, -, o'', hvalid, -, hother⟩ := evictPage_owners hok hevict
    by_cases heq : o' = o''
    · exact heq ▸ .inl hvalid
    · exact (hasPage_congr (hother o' heq)).1 hpage

theorem servePageFault_hasPage {faultAddr : Addr} {handled : Bool} {o : Page} (hok : k.OwnersOk)
    (h : k.servePageFault pid faultAddr = .ok (handled, k')) (hne : o ≠ (pid, faultAddr >>> 12))
    (ho : k'.HasPage o) : k.HasPage o := by
  have hensure := hasPage_congr (pte_ensure k (pid, faultAddr >>> 12) o)
  rcases servePageFault_effect hok h with ⟨-, rfl⟩ | ⟨-, -, hserves⟩
  · exact hensure.1 ho
  · exact hensure.1 (hserves.hasPage (hok.ensure _) hne ho)

theorem loadELF_hasPage {filename : Name} {created : Option Pid} {o : Page}
    (h : Loader.loadELF k filename = .ok (created, k')) (ho : k'.HasPage o) : k.HasPage o := by
  rcases Loader.loadELF_cases h with ⟨-, rfl⟩ | ⟨file, pid, pmm, segments, -, -, -, -, hcase⟩
  · exact ho
  · have hslot : (Loader.freshSlot k pid filename segments pmm).HasPage o := by
      rcases hcase with ⟨-, rfl⟩ | ⟨-, rfl⟩
      · refine (hasPage_congr ?_).1 ho
        exact modifyProcess_pte _ pid (fun p => { p with active := false }) (fun _ => rfl) _ _
      · exact ((withThread_frames _ _ _).hasPage o).1 ho
    have hne : o.1 ≠ pid := by
      intro heq
      unfold HasPage at hslot
      rw [heq, freshSlot_pte] at hslot
      rcases hslot with hvalid | hswapped
      · cases hvalid
      · cases hswapped
    refine (hasPage_congr ?_).1 hslot
    rw [pte, Loader.freshSlot, modifyProcess_ne _ _ hne]
    rfl

theorem atTrap_same {k₁ : Kernel} (h : k.atTrap = .ok k₁) :
    k₁.layout = k.layout ∧ k₁.thread = k.thread := by
  obtain ⟨self, -, h⟩ := bind_eq_ok.1 h
  obtain ⟨cpu, hcpu, h⟩ := bind_eq_ok.1 h
  cases h
  refine ⟨?_, ((Quiet.tick rfl hcpu).trans (clearTrap_quiet _)).thread⟩
  have hcount : (k.incrementInstruction self).layout = k.layout := modifyProcess_layout k _ fun _ => rfl
  exact (withMachine_layout _ cpu).trans hcount

/-- A page that a process has after a step it had before, or the step served a fault on it. -/
theorem step_hasPage {e : Event} {o : Page} (hsound : k.threads.Sound) (hk : k.Tracked) (h : Step k e k')
    (ho : k'.HasPage o) : k.HasPage o ∨ ∃ addr : Addr, o.2 = addr >>> 12 ∧ k.InRegion o.1 addr := by
  cases step_frames hsound h with
  | same hsame => exact .inl ((hsame.hasPage o).1 ho)
  | @serve t addr k₁ _ htrap hsame hserve =>
    obtain ⟨hlayout, hthread⟩ := atTrap_same htrap
    by_cases heq : o = ((k.thread t).parent, addr >>> 12)
    · subst heq
      rcases servePageFault_region hserve with hpage | hregion
      · exact .inl ((hsame.hasPage _).1 hpage)
      · exact .inr ⟨addr, rfl, hregion.congr hlayout hthread⟩
    · exact .inl ((hsame.hasPage o).1 (servePageFault_hasPage (hsame.tracked hk).owners hserve heq ho))
  | kill _ hsame hkill hsame' =>
    refine .inl ((hsame.hasPage o).1 ?_)
    have hpage := (hsame'.hasPage o).1 ho
    rcases terminate_cases hkill with ⟨-, -, rfl⟩ | ⟨-, -, pmm, -, rfl⟩
    · exact hpage
    · exact (hasPage_congr (terminated_pte _ _ _ _ _ _)).1 hpage
  | load hsame hload hsame' =>
    exact .inl ((hsame.hasPage o).1 (loadELF_hasPage hload ((hsame'.hasPage o).1 ho)))

end Kernel

end Rv32umos
