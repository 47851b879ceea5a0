import Rv32umos.Kernel.Tracking

/-!
# A recycled slot

`Process::recycle` resets every field of the PCB but the descriptors 0, 1 and 2, which it leaves to
the next process as they are. No call but `SYS_CLOSE` takes the console from them, and no call gives
it back: a recycled slot is a fresh one if and only if no process that had the slot has closed one
of the three (`recycle_fresh`).
-/

namespace Rv32umos

open Kernel (Event)
open Transition

namespace Process

/-- A freshly constructed process, made active. -/
def activated (name : Name) : Process := { Process.new name with active := true }

/-- The descriptors 0, 1 and 2 are the console. -/
def HasConsole (p : Process) : Prop := ∀ fd < 3, p.fdTable fd = (Process.new []).fdTable fd

/-- The slot is as the constructor makes it if and only if its first descriptors are. -/
theorem freshProcess_eq_activated {p : Process} {name : Name} :
    Loader.freshProcess p name [] = .activated name ↔ p.HasConsole := by
  constructor
  · intro h fd hfd
    have htable := congrFun (congrArg Process.fdTable h) fd
    unfold Loader.freshProcess at htable
    dsimp only at htable
    rw [if_pos hfd] at htable
    exact htable
  · intro h
    have htable : (fun fd => if fd < 3 then p.fdTable fd else none) = (Process.new []).fdTable := by
      funext fd
      by_cases hfd : fd < 3
      · rw [if_pos hfd]
        exact h fd hfd
      · rw [if_neg hfd]
        unfold Process.new
        dsimp only
        rw [if_neg (by omega), if_neg (by omega), if_neg (by omega)]
    unfold Loader.freshProcess
    rw [htable]
    rfl

end Process

/-- A call that closes descriptor 0, 1 or 2. -/
def SyscallContext.ClosesConsole (ctx : SyscallContext) : Prop :=
  ctx.id.toNat = SyscallID.SYS_CLOSE ∧ 0 ≤ ctx.arg0.toInt ∧ ctx.arg0.toInt < 3

namespace Kernel

variable {k k' k'' : Kernel} {pid : Pid}

/-! ### What keeps the console -/

/-- Every process has the same handles. -/
def SameHandles (k k' : Kernel) : Prop :=
  ∀ pid, (k'.processList pid).fdTable = (k.processList pid).fdTable

namespace SameHandles

theorem of_processList (h : k'.processList = k.processList) : SameHandles k k' :=
  fun _ => by rw [h]

theorem refl (k : Kernel) : SameHandles k k := fun _ => rfl

theorem trans (h : SameHandles k k') (h' : SameHandles k' k'') : SameHandles k k'' :=
  fun pid => (h' pid).trans (h pid)

theorem modifyProcess (k : Kernel) (pid : Pid) (f : Process → Process)
    (hf : ∀ p, (f p).fdTable = p.fdTable) : SameHandles k (k.modifyProcess pid f) := by
  intro pid'
  by_cases hpid : pid' = pid
  · rw [hpid, modifyProcess_self, hf]
  · rw [modifyProcess_ne k f hpid]

theorem of_unpaged (h : k'.unpaged = k.unpaged) : SameHandles k k' := fun pid => by
  have htable := congrArg Process.fdTable (process_of_unpaged h pid)
  exact htable

theorem withMachine (k : Kernel) (cpu : Machine) : SameHandles k (k.withMachine cpu) := by
  have htable : SameHandles k (k.withTable cpu.mmu.currentTable) := by
    unfold withTable
    split
    · exact refl k
    · split
      · exact refl k
      · exact modifyProcess k _ _ fun _ => rfl
  exact htable.trans (of_processList rfl)

end SameHandles

/-- Each descriptor stays what it is, or it is no console before and none after. -/
def KeepsConsole (k k' : Kernel) : Prop :=
  ∀ (pid : Pid) (fd : Nat), fd < 3 → (k'.processList pid).fdTable fd = (k.processList pid).fdTable fd ∨
    ∀ n, (k.processList pid).fdTable fd ≠ some (.console n) ∧
      (k'.processList pid).fdTable fd ≠ some (.console n)

namespace KeepsConsole

theorem of_handles (h : SameHandles k k') : KeepsConsole k k' :=
  fun pid fd _ => .inl (congrFun (h pid) fd)

theorem of_processList (h : k'.processList = k.processList) : KeepsConsole k k' :=
  of_handles (.of_processList h)

theorem refl (k : Kernel) : KeepsConsole k k := of_processList rfl

theorem trans (h : KeepsConsole k k') (h' : KeepsConsole k' k'') : KeepsConsole k k'' := by
  intro pid fd hfd
  rcases h pid fd hfd with heq | hne
  · rcases h' pid fd hfd with heq' | hne'
    · exact .inl (heq'.trans heq)
    · rw [heq] at hne'
      exact .inr hne'
  · rcases h' pid fd hfd with heq' | hne'
    · rw [← heq'] at hne
      exact .inr hne
    · exact .inr fun n => ⟨(hne n).1, (hne' n).2⟩

theorem modifyProcess (k : Kernel) (pid : Pid) (f : Process → Process)
    (hf : ∀ p, (f p).fdTable = p.fdTable) : KeepsConsole k (k.modifyProcess pid f) :=
  of_handles (.modifyProcess k pid f hf)

/-- A descriptor that is no console gets a handle that is none. -/
theorem setFileHandle (k : Kernel) (pid : Pid) {fd : Nat} {handle : Option FileHandle}
    (hbefore : ∀ n, (k.processList pid).fdTable fd ≠ some (.console n))
    (hafter : ∀ n, handle ≠ some (.console n)) :
    KeepsConsole k (k.modifyProcess pid fun p =>
      { p with fdTable := Function.update p.fdTable fd handle }) := by
  intro pid' fd' _
  by_cases hpid : pid' = pid
  · subst hpid
    rw [modifyProcess_self]
    by_cases hfd : fd' = fd
    · subst hfd
      refine .inr fun n => ⟨hbefore n, ?_⟩
      dsimp only
      rw [Function.update_self]
      exact hafter n
    · exact .inl (Function.update_of_ne hfd _ _)
  · rw [modifyProcess_ne _ _ hpid]
    exact .inl rfl

theorem hasConsole_iff (h : KeepsConsole k k') (pid : Pid) :
    (k'.processList pid).HasConsole ↔ (k.processList pid).HasConsole := by
  have hconsole : ∀ fd < 3, ∃ n, (Process.new []).fdTable fd = some (.console n) := by
    intro fd hfd
    interval_cases fd
    · exact ⟨_, rfl⟩
    · exact ⟨_, rfl⟩
    · exact ⟨_, rfl⟩
  constructor
  · intro hhas fd hfd
    obtain ⟨n, hn⟩ := hconsole fd hfd
    have hafter := hhas fd hfd
    rcases h pid fd hfd with heq | hne
    · rw [← heq]
      exact hafter
    · exact absurd (hafter.trans hn) (hne n).2
  · intro hhas fd hfd
    obtain ⟨n, hn⟩ := hconsole fd hfd
    have hbefore := hhas fd hfd
    rcases h pid fd hfd with heq | hne
    · rw [heq]
      exact hbefore
    · exact absurd (hbefore.trans hn) (hne n).1

end KeepsConsole

theorem loadVirtualMemory_handles {v : Addr} {n : Nat} {val : Word}
    (h : k.loadVirtualMemory v n = .ok (val, k')) : SameHandles k k' := by
  obtain ⟨⟨w, cpu⟩, -, h⟩ := bind_eq_ok.1 h
  cases h
  exact .withMachine k cpu

theorem storeVirtualMemory_handles {v : Addr} {n : Nat} {val : Word}
    (h : k.storeVirtualMemory v n val = .ok k') : SameHandles k k' := by
  obtain ⟨cpu, -, h⟩ := bind_eq_ok.1 h
  cases h
  exact .withMachine k cpu

theorem terminate_console {exitCode : Word} {ok : Bool}
    (h : k.terminate pid exitCode = .ok (ok, k')) : KeepsConsole k k' := by
  rcases terminate_cases h with ⟨-, -, rfl⟩ | ⟨-, -, pmm, -, rfl⟩
  · exact .refl k'
  · have hrest : KeepsConsole k { k with
      pmm
      thread := statesSet (statesSet k.thread (k.processList pid).threads .TERMINATED)
        (k.processWaiters pid) .READY
      exitCodes := Function.update k.exitCodes pid (some exitCode)
      processWaiters := Function.update k.processWaiters pid [] } := .of_processList rfl
    exact hrest.trans (.modifyProcess _ pid _ fun _ => rfl)

theorem freshSlot_console (k : Kernel) (pid : Pid) (name : Name) (segments : List Segment)
    (pmm : PhysicalMemoryManager) : KeepsConsole k (Loader.freshSlot k pid name segments pmm) := by
  intro pid' fd hfd
  refine .inl ?_
  unfold Loader.freshSlot
  by_cases hpid : pid' = pid
  · rw [hpid, modifyProcess_self]
    exact if_pos hfd
  · rw [modifyProcess_ne _ _ hpid]

theorem withThread_console (k : Kernel) (pid : Pid) (thread : Thread) :
    KeepsConsole k (k.withThread pid thread) := by
  have hthread : KeepsConsole k { k with
    thread := Function.update k.thread k.numThreads { thread with state := .READY }
    numThreads := k.numThreads + 1 } := .of_processList rfl
  exact hthread.trans (.modifyProcess _ pid _ fun _ => rfl)

theorem loadELF_console {filename : Name} {created : Option Pid}
    (h : Loader.loadELF k filename = .ok (created, k')) : KeepsConsole k k' := by
  rcases Loader.loadELF_cases h with ⟨-, rfl⟩ | ⟨file, pid, pmm, segments, -, -, -, -, hcase⟩
  · exact .refl k'
  · have hfresh := freshSlot_console k pid filename segments pmm
    rcases hcase with ⟨-, rfl⟩ | ⟨-, rfl⟩
    · exact hfresh.trans (.modifyProcess _ pid _ fun _ => rfl)
    · exact hfresh.trans (withThread_console _ _ _)

end Kernel

namespace SyscallHandler

open Kernel

variable {k k' : Kernel} {ctx : SyscallContext} {r : SyscallResult} {pid : Pid}

/-! ### System calls -/

theorem copyIn_handles {addr : Word} {n i : Nat} {bytes : List Byte}
    (h : copyIn addr n i k = .ok (bytes, k')) : SameHandles k k' := by
  induction n generalizing i k bytes with
  | zero =>
    cases h
    exact .refl _
  | succ n ih =>
    obtain ⟨⟨c, k₁⟩, hload, h⟩ := bind_eq_ok.1 h
    obtain ⟨⟨rest, k₂⟩, hrest, h⟩ := bind_eq_ok.1 h
    cases h
    exact (loadVirtualMemory_handles hload).trans (ih hrest)

theorem copyOut_handles {addr : Word} {bytes : List Byte} {i : Nat}
    (h : copyOut addr bytes i k = .ok k') : SameHandles k k' := by
  induction bytes generalizing i k with
  | nil =>
    cases h
    exact .refl _
  | cons byte rest ih =>
    obtain ⟨k₁, hstore, h⟩ := bind_eq_ok.1 h
    exact (storeVirtualMemory_handles hstore).trans (ih h)

theorem readPath_handles {addr : Word} {n offset : Nat} {name : Name}
    (h : readPath addr n offset k = .ok (name, k')) : SameHandles k k' := by
  induction n generalizing offset k name with
  | zero =>
    cases h
    exact .refl _
  | succ n ih =>
    obtain ⟨⟨w, k₁⟩, hload, h⟩ := bind_eq_ok.1 h
    dsimp only at h
    split_ifs at h
    · cases h
      exact loadVirtualMemory_handles hload
    · obtain ⟨⟨rest, k₂⟩, hrest, h⟩ := bind_eq_ok.1 h
      cases h
      exact (loadVirtualMemory_handles hload).trans (ih hrest)

theorem readFilename_handles {addr : Word} {name : Name}
    (h : readFilename k addr = .ok (name, k')) : SameHandles k k' := readPath_handles h

/-- The handle of a descriptor. -/
theorem getFileHandle_some {fd : Int} {i : Nat} {handle : FileHandle}
    (h : k.getFileHandle pid fd = some (i, handle)) :
    0 ≤ fd ∧ i = fd.toNat ∧ (k.processList pid).fdTable i = some handle := by
  unfold getFileHandle at h
  split_ifs at h with hrange
  cases htable : (k.processList pid).fdTable fd.toNat with
  | none =>
    rw [htable] at h
    cases h
  | some handle' =>
    rw [htable] at h
    cases h
    exact ⟨by omega, rfl, htable⟩

/-- A transfer leaves a console handle as it is, and moves the cursor of a file. -/
theorem setDisk_console (k : Kernel) {fd : Nat} {h : DiskFileHandle} (h' : DiskFileHandle)
    (hfd : (k.processList pid).fdTable fd = some (.disk h)) :
    KeepsConsole k (k.modifyProcess pid fun p =>
      { p with fdTable := Function.update p.fdTable fd (some (.disk h')) }) := by
  refine .setFileHandle k pid (fun n => ?_) fun n => ?_
  · rw [hfd]
    nofun
  · nofun

theorem writeHandle_console {fd : Nat} {handle : FileHandle} (buffer : List Byte) (count : Nat)
    (hfd : (k.processList pid).fdTable fd = some handle) :
    KeepsConsole k (writeHandle k pid fd handle buffer count).2 := by
  cases handle with
  | console hostFD => exact .of_processList rfl
  | disk h =>
    have hdisk : KeepsConsole k { k with disk := (h.write k.disk buffer count).2.1 } :=
      .of_processList rfl
    exact hdisk.trans (setDisk_console { k with disk := _ } _ hfd)

theorem readHandle_console {fd : Nat} {handle : FileHandle} (buffer : List Byte) (count : Nat)
    (hfd : (k.processList pid).fdTable fd = some handle) :
    KeepsConsole k (readHandle k pid fd handle buffer count).2.2 := by
  cases handle with
  | console hostFD => exact .of_processList rfl
  | disk h => exact setDisk_console k _ hfd

theorem handleWrite_console (h : handleWrite k ctx = .ok (r, k')) : KeepsConsole k k' := by
  obtain ⟨current, -, h⟩ := bind_eq_ok.1 h
  dsimp only at h
  split at h
  · cases h
    exact .refl k
  · rename_i fd handle hget
    obtain ⟨⟨buffer, k₁⟩, hcopy, h⟩ := bind_eq_ok.1 h
    cases h
    have hsame := copyIn_handles hcopy
    refine (KeepsConsole.of_handles hsame).trans (writeHandle_console _ _ ?_)
    rw [hsame]
    exact (getFileHandle_some hget).2.2

theorem handleRead_console (h : handleRead k ctx = .ok (r, k')) : KeepsConsole k k' := by
  obtain ⟨current, -, h⟩ := bind_eq_ok.1 h
  dsimp only at h
  split at h
  · cases h
    exact .refl k
  · rename_i fd handle hget
    refine (readHandle_console (List.replicate ctx.arg2.toNat 0) ctx.arg2.toNat
      (getFileHandle_some hget).2.2).trans ?_
    split_ifs at h
    · obtain ⟨k₁, hcopy, h⟩ := bind_eq_ok.1 h
      cases h
      exact .of_handles (copyOut_handles hcopy)
    · cases h
      exact .refl _

/-- A new handle goes to a free descriptor. -/
theorem addFileHandle_console (k : Kernel) (pid : Pid) (h : DiskFileHandle) :
    KeepsConsole k (k.addFileHandle pid (.disk h)).2 := by
  unfold addFileHandle
  split
  · exact .refl k
  · rename_i fd hfound
    have hfree := List.find?_some hfound
    refine .setFileHandle k pid (fun n => ?_) fun n => nofun
    rw [Option.isNone_iff_eq_none.1 hfree]
    nofun

theorem handleOpen_console (h : handleOpen k ctx = .ok (r, k')) : KeepsConsole k k' := by
  obtain ⟨⟨filename, k₁⟩, hread, h⟩ := bind_eq_ok.1 h
  refine (KeepsConsole.of_handles (readFilename_handles hread)).trans ?_
  dsimp only at h
  split at h
  · cases h
    exact .refl _
  · rename_i handle _
    obtain ⟨current, -, h⟩ := bind_eq_ok.1 h
    have hadd := addFileHandle_console k₁ (k₁.thread current).parent handle
    split at h <;> cases h <;> simp_all only

theorem createThread_handles {entry : Addr} {arg : Word} {t : Option TRef}
    (h : k.createThread pid entry arg = (t, k')) : SameHandles k k' := by
  unfold createThread at h
  dsimp only at h
  split_ifs at h <;> cases h
  · exact .refl k
  · exact .refl k
  all_goals
    exact (SameHandles.of_processList rfl).trans (.modifyProcess _ _ _ fun _ => rfl)

theorem setMutex_handles (k : Kernel) (pid : Pid) (id : Nat) (m : Mutex) :
    SameHandles k (k.setMutex pid id m) := .modifyProcess k pid _ fun _ => rfl

theorem handleThreadCreate_handles (h : handleThreadCreate k ctx = .ok (r, k')) : SameHandles k k' := by
  obtain ⟨current, -, h⟩ := bind_eq_ok.1 h
  split at h
  · rename_i k₁ hcreate
    cases h
    exact createThread_handles hcreate
  · rename_i t k₁ hcreate
    cases h
    exact (createThread_handles hcreate).trans (.of_processList rfl)

theorem handleThreadExit_handles (h : handleThreadExit k ctx = .ok (r, k')) : SameHandles k k' := by
  obtain ⟨current, -, h⟩ := bind_eq_ok.1 h
  dsimp only at h
  split at h <;> cases h <;> exact .of_processList rfl

theorem handleThreadJoin_handles (h : handleThreadJoin k ctx = .ok (r, k')) : SameHandles k k' := by
  obtain ⟨current, -, h⟩ := bind_eq_ok.1 h
  dsimp only at h
  split at h
  · cases h
    exact .refl k
  · split_ifs at h <;> cases h <;> exact .of_processList rfl

theorem handleMutexLock_handles (h : handleMutexLock k ctx = .ok (r, k')) : SameHandles k k' := by
  obtain ⟨current, -, h⟩ := bind_eq_ok.1 h
  dsimp only at h
  split at h
  · cases h
    exact .refl k
  · rename_i id lock _
    have hacquire : SameHandles k (k.acquire (k.thread current).parent id lock current).2 := by
      unfold acquire
      split
      · exact (SameHandles.of_processList rfl).trans (setMutex_handles _ _ _ _)
      · exact setMutex_handles _ _ _ _
    split at h <;> cases h <;> simp_all only

theorem setStates_processList (k : Kernel) (ts : List TRef) (state : ThreadState) :
    (ts.foldl (fun k t => k.setState t state) k).processList = k.processList := by
  induction ts generalizing k with
  | nil => rfl
  | cons t ts ih => exact ih _

theorem handleMutexUnlock_handles (h : handleMutexUnlock k ctx = .ok (r, k')) : SameHandles k k' := by
  obtain ⟨current, -, h⟩ := bind_eq_ok.1 h
  dsimp only at h
  split at h
  · cases h
    exact .refl k
  · rename_i id lock _
    have hrelease : SameHandles k (k.release (k.thread current).parent id lock current).2 := by
      unfold release
      split
      · exact .refl k
      · exact (SameHandles.of_processList (setStates_processList _ _ _)).trans (setMutex_handles _ _ _ _)
    split at h <;> cases h <;> simp_all only

theorem handleJoinProcess_handles (h : handleJoinProcess k ctx = .ok (r, k')) : SameHandles k k' := by
  unfold handleJoinProcess at h
  dsimp only at h
  split at h
  · cases h
    exact .refl k
  · split at h
    · split_ifs at h
      · obtain ⟨k₁, hstore, h⟩ := bind_eq_ok.1 h
        cases h
        exact (storeVirtualMemory_handles hstore).trans (.of_processList rfl)
      · cases h
        exact .of_processList rfl
    · split_ifs at h
      · cases h
        exact .refl k
      · obtain ⟨current, -, h⟩ := bind_eq_ok.1 h
        cases h
        exact .of_processList rfl

theorem sbrk_handles (k : Kernel) (pid : Pid) (increment : Word) :
    SameHandles k (k.sbrk pid increment).2 := by
  unfold sbrk
  dsimp only
  split
  · exact .refl k
  · dsimp only
    exact .modifyProcess k _ _ fun _ => rfl

theorem handleSbrk_handles (h : handleSbrk k ctx = .ok (r, k')) : SameHandles k k' := by
  obtain ⟨current, -, h⟩ := bind_eq_ok.1 h
  cases h
  exact sbrk_handles _ _ _

theorem handleCreateProcess_console (h : handleCreateProcess k ctx = .ok (r, k')) :
    KeepsConsole k k' := by
  obtain ⟨⟨filename, k₁⟩, hread, h⟩ := bind_eq_ok.1 h
  obtain ⟨⟨created, k₂⟩, hload, h⟩ := bind_eq_ok.1 h
  refine (KeepsConsole.of_handles (readFilename_handles hread)).trans ?_
  dsimp only at h
  split at h <;> cases h <;> exact loadELF_console hload

/-- Every system call but `SYS_CLOSE` keeps the console. -/
theorem dispatch_console (hid : ctx.id.toNat ≠ SyscallID.SYS_CLOSE) (h : dispatch k ctx = .ok (r, k')) :
    KeepsConsole k k' := by
  unfold dispatch at h
  split at h
  · obtain ⟨current, -, h⟩ := bind_eq_ok.1 h
    obtain ⟨⟨ok, k₁⟩, hterminate, h⟩ := bind_eq_ok.1 h
    dsimp only at h
    split_ifs at h
    cases h
    exact terminate_console hterminate
  · exact handleWrite_console h
  · exact handleRead_console h
  · exact .of_handles (handleThreadCreate_handles h)
  · exact .of_handles (handleThreadExit_handles h)
  · exact .of_handles (handleThreadJoin_handles h)
  · obtain ⟨current, -, h⟩ := bind_eq_ok.1 h
    cases h
    exact .modifyProcess k _ _ fun _ => rfl
  · exact .of_handles (handleMutexLock_handles h)
  · exact .of_handles (handleMutexUnlock_handles h)
  · exact handleOpen_console h
  · exact absurd ‹_› hid
  · obtain ⟨⟨filename, k₁⟩, hread, h⟩ := bind_eq_ok.1 h
    cases h
    exact .of_handles ((readFilename_handles hread).trans (.of_processList rfl))
  · exact .of_handles (handleSbrk_handles h)
  · exact handleCreateProcess_console h
  · exact .of_handles (handleJoinProcess_handles h)
  · cases h

/-- Closing descriptor 0, 1 or 2 takes the console from the process, and closing another one takes
it from nobody. -/
theorem closeFileHandle_console (k : Kernel) (pid pid' : Pid) (fd : Int) :
    (pid' = pid ∧ 0 ≤ fd ∧ fd < 3 → ¬ ((k.closeFileHandle pid fd).2.processList pid').HasConsole) ∧
      (¬ (pid' = pid ∧ 0 ≤ fd ∧ fd < 3) →
        (((k.closeFileHandle pid fd).2.processList pid').HasConsole ↔
          (k.processList pid').HasConsole)) := by
  have hnone : ∀ {p : Process} {i : Nat}, i < 3 → p.fdTable i = none → ¬ p.HasConsole := by
    intro p i hi hclosed hhas
    have hopen := hhas i hi
    rw [hclosed] at hopen
    interval_cases i <;> cases hopen
  unfold closeFileHandle
  cases hget : k.getFileHandle pid fd with
  | none =>
    refine ⟨fun ⟨hpid, hlo, hhi⟩ => ?_, fun _ => Iff.rfl⟩
    subst hpid
    unfold getFileHandle at hget
    rw [if_neg (by simp only [FD_TABLE_SIZE]; omega), Option.map_eq_none_iff] at hget
    exact hnone (by omega) hget
  | some found =>
    obtain ⟨i, handle⟩ := found
    obtain ⟨hlo', rfl, -⟩ := getFileHandle_some hget
    dsimp only
    by_cases hpid : pid' = pid
    · subst hpid
      rw [modifyProcess_self]
      refine ⟨fun ⟨_, hlo, hhi⟩ => hnone (i := fd.toNat) (by omega) ?_, fun hnot => ?_⟩
      · exact Function.update_self _ _ _
      · have hge : ¬ fd < 3 := fun hhi => hnot ⟨rfl, hlo', hhi⟩
        refine forall₂_congr fun i hi => ?_
        dsimp only
        rw [Function.update_of_ne (by omega)]
    · rw [modifyProcess_ne _ _ hpid]
      exact ⟨fun hand => absurd hand.1 hpid, fun _ => Iff.rfl⟩

theorem handleClose_eq (h : handleClose k ctx = .ok (r, k')) :
    ∃ current, k.getCurrentThread = .ok current ∧
      k' = (k.closeFileHandle (k.thread current).parent ctx.arg0.toInt).2 := by
  obtain ⟨current, hcurrent, h⟩ := bind_eq_ok.1 h
  cases h
  exact ⟨current, hcurrent, rfl⟩

end SyscallHandler

namespace Kernel

variable {k k' : Kernel} {pid : Pid}

/-! ### Every run -/

/-- The event closes descriptor 0, 1 or 2 of process `pid`. -/
def Closes (k : Kernel) (pid : Pid) : Event → Prop
  | .syscall t ctx _ => (k.thread t).parent = pid ∧ ctx.ClosesConsole
  | _ => False

theorem deliver_processList (k : Kernel) (r : SyscallResult) :
    (k.deliver r).processList = k.processList := by
  unfold deliver
  split <;> split <;> rfl

theorem servePageFault_console {addr : Addr} {handled : Bool}
    (h : k.servePageFault pid addr = .ok (handled, k')) : KeepsConsole k k' :=
  .of_handles (.of_unpaged (servePageFault_unpaged h))

theorem step_console {e : Event} (h : Step k e k') (pid : Pid) :
    (k.Closes pid e → ¬ (k'.processList pid).HasConsole) ∧
      (¬ k.Closes pid e → ((k'.processList pid).HasConsole ↔ (k.processList pid).HasConsole)) := by
  have hkept : KeepsConsole k k' → ¬ k.Closes pid e → (k.Closes pid e → ¬ (k'.processList pid).HasConsole) ∧
      (¬ k.Closes pid e → ((k'.processList pid).HasConsole ↔ (k.processList pid).HasConsole)) :=
    fun hkeeps hnot => ⟨fun hcloses => absurd hcloses hnot, fun _ => hkeeps.hasConsole_iff pid⟩
  cases h with
  | preempt =>
    refine hkept (.of_processList ?_) id
    rcases k.preempt_cases with heq | ⟨t, -, -, -, heq⟩
    · rw [heq]
    · rw [heq, contextSwitch_eq]
  | rehash pid' table hperm => exact hkept (.modifyProcess k pid' _ fun _ => rfl) id
  | tick hrunning htick =>
    obtain ⟨self, k₁, cpu, hself, hk₁, hcpu, hcase⟩ := tick_cases htick
    have huser : KeepsConsole k (k₁.withMachine cpu).clearTrap := by
      subst hk₁
      have hcount : SameHandles k (k.incrementInstruction self) := .modifyProcess k _ _ fun _ => rfl
      exact .of_handles ((hcount.trans (.withMachine _ cpu)).trans (.of_processList rfl))
    rcases hcase with ⟨-, rfl, rfl⟩ | ⟨addr, handled, -, rfl, hfault⟩ | ⟨id, ctx, r, -, rfl, hsyscall⟩
    · exact hkept (huser.trans (.of_processList rfl)) nofun
    · refine hkept (huser.trans ?_) nofun
      obtain ⟨current, -, hfault⟩ := bind_eq_ok.1 hfault
      obtain ⟨⟨served, k₂⟩, hserve, hfault⟩ := bind_eq_ok.1 hfault
      refine (servePageFault_console hserve).trans ?_
      dsimp only at hfault
      split_ifs at hfault
      · obtain ⟨⟨killed, k₃⟩, hkill, hfault⟩ := bind_eq_ok.1 hfault
        dsimp only at hfault
        split_ifs at hfault
        cases hfault
        exact terminate_console hkill
      · cases hfault
        exact .refl k'
    · have hquiet : Quiet (k.setContext cpu.regs cpu.pc) (k₁.withMachine cpu).clearTrap :=
        (Quiet.tick hk₁ hcpu).trans (clearTrap_quiet _)
      obtain ⟨-, k₂, hdispatch, hrest⟩ := handleSyscall_cases hsyscall
      have hafter : KeepsConsole k₂ k' := by
        have hdeliver : KeepsConsole k₂ (k₂.deliver r) := .of_processList (deliver_processList _ _)
        rcases hrest with ⟨-, rfl⟩ | ⟨-, current, -, hkill⟩
        · exact hdeliver
        · exact hdeliver.trans (terminate_console hkill)
      by_cases hid : ctx.id.toNat = SyscallID.SYS_CLOSE
      · have hclose : SyscallHandler.handleClose (k₁.withMachine cpu).clearTrap ctx = .ok (r, k₂) := by
          unfold SyscallHandler.dispatch at hdispatch
          rw [hid] at hdispatch
          exact hdispatch
        obtain ⟨current, hcurrent, hk₂⟩ := SyscallHandler.handleClose_eq hclose
        cases (hquiet.getCurrentThread.trans hself).symm.trans hcurrent
        have hparent : ((k₁.withMachine cpu).clearTrap.thread self).parent = (k.thread self).parent := by
          rw [hquiet.thread]
          rfl
        rw [hparent] at hk₂
        subst hk₂
        obtain ⟨hcloses, hkeeps⟩ := SyscallHandler.closeFileHandle_console (k₁.withMachine cpu).clearTrap
          (k.thread self).parent pid ctx.arg0.toInt
        refine ⟨fun ⟨hpid, _, hrange⟩ => ?_, fun hnot => ?_⟩
        · rw [hafter.hasConsole_iff]
          exact hcloses ⟨hpid.symm, hrange⟩
        · have hother : ¬ (pid = (k.thread self).parent ∧ 0 ≤ ctx.arg0.toInt ∧ ctx.arg0.toInt < 3) :=
            fun ⟨hpid, hrange⟩ => hnot ⟨hpid.symm, hid, hrange⟩
          rw [hafter.hasConsole_iff, hkeeps hother, huser.hasConsole_iff]
      · refine hkept ((huser.trans (SyscallHandler.dispatch_console hid hdispatch)).trans hafter) ?_
        exact fun hcloses => hid hcloses.2.1

theorem boot_console {host : Host} {filenames : List Name} (h : boot host filenames = .ok k)
    (pid : Pid) : (k.processList pid).HasConsole := by
  obtain ⟨k₁, hload, h⟩ := bind_eq_ok.1 h
  split_ifs at h
  cases h
  have hloaded : ∀ {filenames : List Name} {k k' : Kernel},
      k.loadApplications filenames = .ok k' → KeepsConsole k k' := by
    intro filenames
    induction filenames with
    | nil =>
      intro k k' hload
      cases hload
      exact .refl k
    | cons filename rest ih =>
      intro k k' hload
      obtain ⟨⟨pid, k₂⟩, hload₂, hload⟩ := bind_eq_ok.1 hload
      dsimp only at hload
      split_ifs at hload
      exact (loadELF_console hload₂).trans (ih hload)
  have hfirst : ((init host).processList pid).HasConsole := fun _ _ => rfl
  have hafter := ((hloaded hload).hasConsole_iff pid).2 hfirst
  have henabled : KeepsConsole k₁ { k₁ with cpu := { k₁.cpu with vmEnabled := true } } :=
    .of_processList rfl
  have hpreempt := (step_console (.preempt (k := { k₁ with cpu := { k₁.cpu with vmEnabled := true } })) pid).2 id
  exact hpreempt.2 ((henabled.hasConsole_iff pid).2 hafter)

/-- A step keeps the process of each thread. -/
theorem step_parent {e : Event} {t : TRef} (hsound : k.threads.Sound) (h : Step k e k')
    (ht : t < k.numThreads) : (k'.thread t).parent = (k.thread t).parent ∧ t < k'.numThreads := by
  have hstep := step_threads hsound.fault h
  obtain ⟨line, hplaced⟩ := hsound.placed
  have hparent := (hstep.change hplaced ht).parent_eq
  exact ⟨hparent, ht.trans_le hstep.num_le⟩

/-- The slot has the console as long as none of its processes has closed a part of it. -/
theorem run_console {host : Host} {filenames : List Name} {k₀ : Kernel} {es : List Event}
    (hboot : boot host filenames = .ok k₀) (hrun : Run Step k₀ es k) (pid : Pid) :
    (k.processList pid).HasConsole ↔ ∀ e ∈ es, ¬ k.Closes pid e := by
  let inv : List Event → Kernel → Prop := fun es k =>
    k.threads.Sound ∧ (∀ e ∈ es, ∀ t ctx r, e = .syscall t ctx r → t < k.numThreads) ∧
      ((k.processList pid).HasConsole ↔ ∀ e ∈ es, ¬ k.Closes pid e)
  have hinv : inv es k := by
    refine hrun.induct inv ⟨?_, nofun, fun _ => nofun, fun _ => boot_console hboot pid⟩ ?_
    · exact reachable_sound ⟨host, filenames, k₀, [], hboot, .nil⟩
    · rintro es k e k' ⟨hsound, hlt, hiff⟩ hstep
      have hthreads := step_threads hsound.fault hstep
      obtain ⟨hcloses, hkeeps⟩ := step_console hstep pid
      have hactor : ∀ t ctx r, e = .syscall t ctx r → t < k.numThreads := by
        rintro t ctx r rfl
        exact hthreads.running_of_syscall.2.1
      -- an event says the same after the step
      have hsame : ∀ e', (∀ t ctx r, e' = .syscall t ctx r → t < k.numThreads) →
          (k'.Closes pid e' ↔ k.Closes pid e') := by
        intro e' hlt'
        cases e' with
        | syscall t ctx r =>
          show (k'.thread t).parent = pid ∧ _ ↔ (k.thread t).parent = pid ∧ _
          rw [(step_parent hsound hstep (hlt' t ctx r rfl)).1]
        | _ => exact Iff.rfl
      refine ⟨hthreads.sound hsound, fun e' he' t ctx r heq => ?_, ?_⟩
      · rcases List.mem_append.1 he' with hold | hnew
        · exact (step_parent hsound hstep (hlt e' hold t ctx r heq)).2
        · obtain rfl := List.mem_singleton.1 hnew
          exact (step_parent hsound hstep (hactor t ctx r heq)).2
      · simp only [List.mem_append, List.mem_singleton, or_imp, forall_and, forall_eq]
        rw [hsame e hactor]
        have hpast : (∀ e' ∈ es, ¬ k'.Closes pid e') ↔ ∀ e' ∈ es, ¬ k.Closes pid e' :=
          forall₂_congr fun e' he' => not_congr (hsame e' (hlt e' he'))
        rw [hpast, ← hiff]
        by_cases hclose : k.Closes pid e
        · exact ⟨fun hhas => absurd hhas (hcloses hclose), fun hand => absurd hclose hand.2⟩
        · rw [hkeeps hclose]
          exact ⟨fun hhas => ⟨hhas, hclose⟩, fun hand => hand.1⟩
  exact hinv.2.2

theorem recycle_eq (hk : k.Tracked) (pid : Pid) (name : Name) :
    ∃ pmm, k.recycle pid name = .ok (Loader.freshSlot k pid name [] pmm) := by
  obtain ⟨pmm, hwipe, -⟩ := wipeMemory_wiped hk pid
  exact ⟨pmm, bind_eq_ok.2 ⟨_, hwipe, rfl⟩⟩

/-- **A recycled slot is as good as new, but for the console.** After any run a slot can be recycled,
and it is then a fresh process that is active, if and only if no process that had the slot has closed
descriptor 0, 1 or 2. -/
theorem recycle_fresh {host : Host} {filenames : List Name} {k₀ : Kernel} {es : List Event}
    (hboot : boot host filenames = .ok k₀) (hrun : Run Step k₀ es k) (pid : Pid) (name : Name) :
    ∃ k', k.recycle pid name = .ok k' ∧
      (k'.processList pid = .activated name ↔ ∀ e ∈ es, ¬ k.Closes pid e) := by
  obtain ⟨pmm, hrecycle⟩ := recycle_eq (reachable_tracked ⟨_, _, k₀, es, hboot, hrun⟩) pid name
  refine ⟨_, hrecycle, ?_⟩
  rw [← run_console hboot hrun pid, Loader.freshSlot, modifyProcess_self]
  exact Process.freshProcess_eq_activated

/-- The slot of a process that has been killed. -/
theorem recycle_fresh_segfault : ∃ k k' : Kernel, (k.thread 0).state = .TERMINATED ∧
    k.recycle 0 [0x63] = .ok k' ∧ k'.processList 0 = .activated [0x63] := by
  obtain ⟨k₀, k, k', hboot, hstep, hstep', -, -, hended⟩ := segfault_run
  obtain ⟨k₂, hrecycle, hiff⟩ := recycle_fresh hboot (.snoc (.snoc .nil hstep) hstep') 0 [0x63]
  refine ⟨k', k₂, hended, hrecycle, hiff.2 fun e he => ?_⟩
  simp only [List.nil_append, List.cons_append, List.mem_cons, List.not_mem_nil, or_false] at he
  rcases he with rfl | rfl
  · exact id
  · exact id

/-- A program that closes descriptor 1 and ends. -/
def closesStdout : Host where
  files _ := some (elfFile [0x93, 0x08, 0xA0, 0x00, 0x13, 0x05, 0x10, 0x00, 0x73, 0, 0, 0,
    0x93, 0x08, 0, 0, 0x73, 0, 0, 0])
  console := { stdin := [], answers := [], written := [] }

/-- The next process in its slot has no standard output. -/
theorem recycle_without_stdout : ¬ ∀ (host : Host) (filenames : List Name) (k₀ k k' : Kernel)
    (es : List Event) (pid : Pid) (name : Name), boot host filenames = .ok k₀ → Run Step k₀ es k →
    (k.processList pid).active = false → k.recycle pid name = .ok k' →
    k'.processList pid = .activated name := by
  intro hclaim
  have hdec : returns (simulate closesStdout [[0x61]] 6) (fun k =>
      decide ((k.processList 0).active = false ∧ (k.processList 0).fdTable 1 = none)) = true := by
    decide +kernel
  obtain ⟨k, hk, hdec⟩ := returns_iff.1 hdec
  obtain ⟨hinactive, hclosed⟩ := of_decide_eq_true hdec
  obtain ⟨k₀, es, hboot, hrun⟩ := simulate_run hk
  obtain ⟨pmm, hrecycle⟩ := recycle_eq (reachable_tracked (simulate_reachable hk)) 0 [0x62]
  have hfresh := hclaim _ _ k₀ k _ es 0 [0x62] hboot hrun hinactive hrecycle
  rw [Loader.freshSlot, modifyProcess_self, Process.freshProcess_eq_activated] at hfresh
  have hopen := hfresh 1 (by decide)
  rw [hclosed] at hopen
  cases hopen

end Kernel

end Rv32umos
