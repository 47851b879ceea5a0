import Rv32umos.Kernel.Pool
import Rv32umos.Kernel.Termination
import Rv32umos.Vm.Crashes

/-!
# What ends the simulation

The panics and assertions of the kernel that can be reached, and those that cannot. In a run in which no
process ends while a thread waits for it that has ended already or is one of its own, the loop of `start`
ends the simulator for five reasons only (`Stops`): the program does what the machine cannot execute, it
asks for a system call that does not exist, the swap area is full when a page has to go there, an ELF file
ends before its program headers do, or the status word of `SYS_JOIN_PROCESS` runs over the end of RAM.
-/

namespace Rv32umos

open Transition

namespace Kernel

variable {k k' : Kernel} {pid : Pid} {t : TRef} {v : Addr} {why : Halt}

/-! ### User memory -/

/-- The machine works for process `pid`, and what is resident is in RAM. -/
structure Backed (pid : Pid) (k : Kernel) : Prop extends OnCpu pid k where
  frame : ∀ o : Page, (k.pte o.1 o.2).valid = true → (k.pte o.1 o.2).ppn.toNat < NUM_FRAMES

theorem Backed.quiet (h : Backed pid k) (hquiet : Quiet k k') : Backed pid k' where
  table := (hquiet.field (fun k => k.cpu.currentTable) fun _ => rfl).trans h.table
  vm := (hquiet.field (fun k => k.cpu.vmEnabled) fun _ => rfl).trans h.vm
  fault := hquiet.fault h.fault
  frame o hvalid := by
    have hcore := hquiet.core o.1 o.2
    rw [← PTE.core_valid, hcore, PTE.core_valid] at hvalid
    rw [← PTE.core_ppn, hcore, PTE.core_ppn]
    exact h.frame o hvalid

theorem Backed.paddr (h : Backed pid k) {a : Access} (hallowed : k.allowed pid a v = true) :
    (k.pte pid (v >>> 12)).ppn.toNat < NUM_FRAMES ∧ ((k.pte pid (v >>> 12)).paddr v).toNat =
      (k.pte pid (v >>> 12)).ppn.toNat * 4096 + v.toNat % 4096 := by
  rw [allowed, Bool.and_eq_true] at hallowed
  have hlt := h.frame (pid, v >>> 12) hallowed.1
  exact ⟨hlt, PTE.paddr_toNat hlt rfl v⟩

theorem Backed.startsInRam (h : Backed pid k) : k.machine.mmu.StartsInRam := by
  intro a v hacc
  rw [machine_accessible h.table h.vm] at hacc
  rw [machine_physical h.table h.vm]
  obtain ⟨hlt, hpaddr⟩ := h.paddr hacc
  rw [hpaddr]
  simp only [NUM_FRAMES, MEMORY_SIZE, PHYSICAL_RAM_KB, KERNEL_PAGE_SIZE] at hlt ⊢
  omega

/-- `n` bytes at `v` run over the end of their page, which is in the last frame of RAM. -/
structure OverRam (k : Kernel) (pid : Pid) (v : Addr) (n : Nat) : Prop where
  resident : (k.pte pid (v >>> 12)).valid = true
  last : (k.pte pid (v >>> 12)).ppn.toNat + 1 = NUM_FRAMES
  crosses : KERNEL_PAGE_SIZE < v.toNat % KERNEL_PAGE_SIZE + n

theorem OverRam.of_quiet {n : Nat} (hquiet : Quiet k k') (h : k'.OverRam pid v n) : k.OverRam pid v n := by
  have hcore := hquiet.core pid (v >>> 12)
  refine ⟨?_, ?_, h.crosses⟩
  · rw [← PTE.core_valid, ← hcore, PTE.core_valid]
    exact h.resident
  · rw [← PTE.core_ppn, ← hcore, PTE.core_ppn]
    exact h.last

/-- Only such bytes run over the end of RAM. -/
theorem Backed.overRam (h : Backed pid k) {a : Access} {n : Nat} (hn : n ≤ 8)
    (hallowed : k.allowed pid a v = true) (hover : MEMORY_SIZE < ((k.pte pid (v >>> 12)).paddr v).toNat + n) :
    k.OverRam pid v n := by
  obtain ⟨hlt, hpaddr⟩ := h.paddr hallowed
  rw [hpaddr] at hover
  rw [allowed, Bool.and_eq_true] at hallowed
  have hboth : (k.pte pid (v >>> 12)).ppn.toNat + 1 = NUM_FRAMES ∧
      KERNEL_PAGE_SIZE < v.toNat % KERNEL_PAGE_SIZE + n := by
    simp only [NUM_FRAMES, MEMORY_SIZE, PHYSICAL_RAM_KB, KERNEL_PAGE_SIZE] at hlt hover ⊢
    omega
  exact ⟨hallowed.1, hboth.1, hboth.2⟩

theorem Backed.load_error (h : Backed pid k) {n : Nat} (hpos : 0 < n) (hn : n ≤ 8)
    (herror : k.loadVirtualMemory v n = .error why) :
    why = .undefined "memory index" ∧ k.OverRam pid v n := by
  rw [loadVirtualMemory_eq h.table h.vm h.fault] at herror
  split_ifs at herror with hallowed
  cases hmem : k.memory.load ((k.pte pid (v >>> 12)).paddr v) n with
  | ok val =>
    rw [hmem] at herror
    cases herror
  | error why' =>
    rw [hmem] at herror
    cases herror
    obtain ⟨hwhy, hover⟩ := Memory.load_error hpos (by
      have hin := h.startsInRam .load v
      rw [machine_accessible h.table h.vm, machine_physical h.table h.vm] at hin
      exact hin hallowed) hmem
    exact ⟨hwhy, h.overRam hn hallowed hover⟩

theorem Backed.store_error (h : Backed pid k) {n : Nat} {value : Word} (hpos : 0 < n) (hn : n ≤ 8)
    (herror : k.storeVirtualMemory v n value = .error why) :
    why = .undefined "memory index" ∧ k.OverRam pid v n := by
  rw [storeVirtualMemory_eq h.table h.vm h.fault] at herror
  split_ifs at herror with hallowed
  cases hmem : k.memory.store ((k.pte pid (v >>> 12)).paddr v) n value with
  | ok memory =>
    rw [hmem] at herror
    cases herror
  | error why' =>
    rw [hmem] at herror
    cases herror
    obtain ⟨hwhy, hover⟩ := Memory.store_error hpos (by
      have hin := h.startsInRam .store v
      rw [machine_accessible h.table h.vm, machine_physical h.table h.vm] at hin
      exact hin hallowed) hmem
    exact ⟨hwhy, h.overRam hn hallowed hover⟩

/-- One byte never runs over the end of a page. -/
theorem Backed.load_byte (h : Backed pid k) : k.loadVirtualMemory v 1 ≠ .error why := by
  intro herror
  have hcrosses := (h.load_error (by decide) (by decide) herror).2.crosses
  simp only [KERNEL_PAGE_SIZE] at hcrosses
  omega

theorem Backed.store_byte (h : Backed pid k) {value : Word} : k.storeVirtualMemory v 1 value ≠ .error why := by
  intro herror
  have hcrosses := (h.store_error (by decide) (by decide) herror).2.crosses
  simp only [KERNEL_PAGE_SIZE] at hcrosses
  omega

end Kernel

/-! ### System calls -/

namespace SyscallHandler

open Kernel

variable {k k' : Kernel} {pid : Pid} {t : TRef} {ctx : SyscallContext} {why : Halt}

theorem copyIn_total (h : Backed pid k) (addr : Word) (n i : Nat) : copyIn addr n i k ≠ .error why := by
  induction n generalizing i k with
  | zero =>
    intro herror
    cases herror
  | succ n ih =>
    intro herror
    rcases bind_eq_error.1 herror with hload | ⟨⟨c, k₁⟩, hload, herror⟩
    · exact h.load_byte hload
    · rcases bind_eq_error.1 herror with hrest | ⟨⟨rest, k₂⟩, -, herror⟩
      · exact ih (h.quiet (loadVirtualMemory_quiet hload)) _ hrest
      · cases herror

theorem copyOut_total (h : Backed pid k) (addr : Word) (bytes : List Byte) (i : Nat) :
    copyOut addr bytes i k ≠ .error why := by
  induction bytes generalizing i k with
  | nil =>
    intro herror
    cases herror
  | cons byte rest ih =>
    intro herror
    rcases bind_eq_error.1 herror with hstore | ⟨k₁, hstore, herror⟩
    · exact h.store_byte hstore
    · exact ih (h.quiet (storeVirtualMemory_quiet hstore)) _ herror

theorem readPath_total (h : Backed pid k) (addr : Word) (n offset : Nat) :
    readPath addr n offset k ≠ .error why := by
  induction n generalizing offset k with
  | zero =>
    intro herror
    cases herror
  | succ n ih =>
    intro herror
    rcases bind_eq_error.1 herror with hload | ⟨⟨w, k₁⟩, hload, herror⟩
    · exact h.load_byte hload
    · dsimp only at herror
      split_ifs at herror
      rcases bind_eq_error.1 herror with hrest | ⟨⟨rest, k₂⟩, -, herror⟩
      · exact ih (h.quiet (loadVirtualMemory_quiet hload)) _ hrest
      · cases herror

theorem readFilename_total (h : Backed pid k) (addr : Word) : readFilename k addr ≠ .error why :=
  readPath_total h addr _ _

/-- The process of the current thread is active, so that it can be ended. -/
theorem terminate_total (htracked : k.Tracked) (hactive : (k.processList pid).active = true) (exitCode : Word) :
    ∃ k', k.terminate pid exitCode = .ok (true, k') := by
  obtain ⟨pmm, hwipe, -⟩ := wipeMemory_wiped htracked pid
  unfold terminate
  rw [hactive, hwipe]
  exact ⟨_, rfl⟩

section
variable (hcur : k.getCurrentThread = .ok t)
include hcur

theorem getCurrentThread_total : k.getCurrentThread ≠ .error why := by
  intro herror
  cases hcur.symm.trans herror

theorem handleWrite_total (h : Backed pid k) : handleWrite k ctx ≠ .error why := by
  intro herror
  rcases bind_eq_error.1 herror with hno | ⟨current, -, herror⟩
  · exact getCurrentThread_total hcur hno
  · dsimp only at herror
    split at herror
    · cases herror
    · rcases bind_eq_error.1 herror with hcopy | ⟨r, -, herror⟩
      · exact copyIn_total h _ _ _ hcopy
      · cases herror

theorem handleRead_total (h : Backed pid k) : handleRead k ctx ≠ .error why := by
  intro herror
  rcases bind_eq_error.1 herror with hno | ⟨current, -, herror⟩
  · exact getCurrentThread_total hcur hno
  · dsimp only at herror
    split at herror
    · cases herror
    · rename_i fd handle _
      have hquiet := readHandle_quiet k (k.thread current).parent fd handle
        (List.replicate ctx.arg2.toNat 0) ctx.arg2.toNat
      split_ifs at herror
      · rcases bind_eq_error.1 herror with hcopy | ⟨r, -, herror⟩
        · exact copyOut_total (h.quiet hquiet) _ _ _ hcopy
        · cases herror
      · cases herror

theorem handleOpen_total (h : Backed pid k) : handleOpen k ctx ≠ .error why := by
  intro herror
  rcases bind_eq_error.1 herror with hread | ⟨⟨filename, k₁⟩, hread, herror⟩
  · exact readFilename_total h _ hread
  · have hcur₁ := (readFilename_quiet hread).getCurrentThread.trans hcur
    dsimp only at herror
    split at herror
    · cases herror
    · rcases bind_eq_error.1 herror with hno | ⟨current, -, herror⟩
      · exact getCurrentThread_total hcur₁ hno
      · split at herror <;> cases herror

theorem handleClose_total : handleClose k ctx ≠ .error why := by
  intro herror
  rcases bind_eq_error.1 herror with hno | ⟨current, -, herror⟩
  · exact getCurrentThread_total hcur hno
  · cases herror

theorem handleSbrk_total : handleSbrk k ctx ≠ .error why := by
  intro herror
  rcases bind_eq_error.1 herror with hno | ⟨current, -, herror⟩
  · exact getCurrentThread_total hcur hno
  · cases herror

theorem handleThreadJoin_total : handleThreadJoin k ctx ≠ .error why := by
  intro herror
  rcases bind_eq_error.1 herror with hno | ⟨current, -, herror⟩
  · exact getCurrentThread_total hcur hno
  · dsimp only at herror
    split at herror
    · cases herror
    · split_ifs at herror

theorem handleThreadExit_total : handleThreadExit k ctx ≠ .error why := by
  intro herror
  rcases bind_eq_error.1 herror with hno | ⟨current, -, herror⟩
  · exact getCurrentThread_total hcur hno
  · dsimp only at herror
    split at herror <;> cases herror

theorem handleThreadCreate_total : handleThreadCreate k ctx ≠ .error why := by
  intro herror
  rcases bind_eq_error.1 herror with hno | ⟨current, -, herror⟩
  · exact getCurrentThread_total hcur hno
  · split at herror <;> cases herror

theorem handleMutexCreate_total : handleMutexCreate k ctx ≠ .error why := by
  intro herror
  rcases bind_eq_error.1 herror with hno | ⟨current, -, herror⟩
  · exact getCurrentThread_total hcur hno
  · cases herror

theorem handleMutexLock_total : handleMutexLock k ctx ≠ .error why := by
  intro herror
  rcases bind_eq_error.1 herror with hno | ⟨current, -, herror⟩
  · exact getCurrentThread_total hcur hno
  · dsimp only at herror
    split at herror
    · cases herror
    · split at herror <;> cases herror

theorem handleMutexUnlock_total : handleMutexUnlock k ctx ≠ .error why := by
  intro herror
  rcases bind_eq_error.1 herror with hno | ⟨current, -, herror⟩
  · exact getCurrentThread_total hcur hno
  · dsimp only at herror
    split at herror
    · cases herror
    · split at herror <;> cases herror

theorem handleExit_total (htracked : k.Tracked) (hactive : (k.processList (k.thread t).parent).active = true) :
    handleExit k ctx ≠ .error why := by
  intro herror
  rcases bind_eq_error.1 herror with hno | ⟨current, hcurrent, herror⟩
  · exact getCurrentThread_total hcur hno
  · cases hcur.symm.trans hcurrent
    obtain ⟨k', hterminate⟩ := terminate_total htracked hactive ctx.arg0
    rcases bind_eq_error.1 herror with hno | ⟨⟨ok, k₁⟩, hok, herror⟩
    · cases hterminate.symm.trans hno
    · cases hterminate.symm.trans hok
      cases herror

end

theorem handleCreate_total (h : Backed pid k) : handleCreate k ctx ≠ .error why := by
  intro herror
  rcases bind_eq_error.1 herror with hread | ⟨⟨filename, k₁⟩, hread, herror⟩
  · exact readFilename_total h _ hread
  · cases herror

/-- The program headers run over the end of the file. -/
def HeadersCut (file : List Byte) : Prop :=
  Loader.validHeader file = true ∧
    file.length < Loader.phoff file + Loader.phnum file * Loader.PHDR_SIZE

theorem readSegments_error {file : List Byte} {n pos : Nat} (herror : Loader.readSegments file n pos = .error why) :
    why = .undefined "program header" ∧ file.length < pos + n * Loader.PHDR_SIZE := by
  induction n generalizing pos with
  | zero => cases herror
  | succ n ih =>
    unfold Loader.readSegments at herror
    by_cases hcut : file.length < pos + Loader.PHDR_SIZE
    · rw [if_pos hcut] at herror
      cases herror
      refine ⟨rfl, ?_⟩
      simp only [Loader.PHDR_SIZE] at hcut ⊢
      omega
    · rw [if_neg hcut] at herror
      rcases bind_eq_error.1 herror with hrest | ⟨rest, -, herror⟩
      · obtain ⟨hwhy, hlength⟩ := ih hrest
        refine ⟨hwhy, ?_⟩
        simp only [Loader.PHDR_SIZE] at hlength ⊢
        omega
      · cases herror

theorem loadELF_error {filename : Name} (htracked : k.Tracked) (herror : Loader.loadELF k filename = .error why) :
    why = .undefined "program header" ∧ ∃ file, k.host.files filename = some file ∧ HeadersCut file := by
  unfold Loader.loadELF at herror
  cases hfile : k.host.files filename with
  | none =>
    rw [hfile] at herror
    cases herror
  | some file =>
    rw [hfile] at herror
    dsimp only at herror
    split_ifs at herror with hheader
    cases hslot : Loader.freeSlot k with
    | none =>
      rw [hslot] at herror
      cases herror
    | some pid =>
      rw [hslot] at herror
      obtain ⟨pmm, hwipe, -⟩ := wipeMemory_wiped htracked pid
      rcases bind_eq_error.1 herror with hrecycle | ⟨k₁, -, herror⟩
      · rcases bind_eq_error.1 hrecycle with hno | ⟨k₂, -, hno⟩
        · cases hwipe.symm.trans hno
        · cases hno
      · rcases bind_eq_error.1 herror with hsegments | ⟨segments, -, herror⟩
        · obtain ⟨hwhy, hlength⟩ := readSegments_error hsegments
          refine ⟨hwhy, file, rfl, ?_, hlength⟩
          rwa [Bool.not_eq_true', Bool.not_eq_false] at hheader
        · dsimp only at herror
          split at herror <;> cases herror

/-- Why a system call ends the simulator. -/
inductive CallStops (k : Kernel) (pid : Pid) (ctx : SyscallContext) : Halt → Prop
  | unimplemented (hid : 14 < ctx.id.toNat) : CallStops k pid ctx (.panic "Unimplemented syscall id")
  | header {filename : Name} {file : List Byte} (hid : ctx.id.toNat = SyscallID.SYS_CREATE_PROCESS)
    (hfile : k.host.files filename = some file) (hcut : HeadersCut file) :
    CallStops k pid ctx (.undefined "program header")
  | status (hid : ctx.id.toNat = SyscallID.SYS_JOIN_PROCESS) (hover : k.OverRam pid ctx.arg1 4) :
    CallStops k pid ctx (.undefined "memory index")

theorem handleCreateProcess_error (h : Backed pid k) (htracked : k.Tracked)
    (hid : ctx.id.toNat = SyscallID.SYS_CREATE_PROCESS) (herror : handleCreateProcess k ctx = .error why) :
    CallStops k pid ctx why := by
  rcases bind_eq_error.1 herror with hread | ⟨⟨filename, k₁⟩, hread, herror⟩
  · exact absurd hread (readFilename_total h _)
  · have hsame := SameFrames.of_quiet (readFilename_quiet hread)
    rcases bind_eq_error.1 herror with hload | ⟨⟨created, k₂⟩, -, herror⟩
    · obtain ⟨rfl, file, hfile, hcut⟩ := loadELF_error (hsame.tracked htracked) hload
      rw [hsame.files] at hfile
      exact .header hid hfile hcut
    · dsimp only at herror
      split at herror <;> cases herror

theorem handleJoinProcess_error (hcur : k.getCurrentThread = .ok t) (h : Backed pid k)
    (hid : ctx.id.toNat = SyscallID.SYS_JOIN_PROCESS) (herror : handleJoinProcess k ctx = .error why) :
    CallStops k pid ctx why := by
  unfold handleJoinProcess at herror
  dsimp only at herror
  split at herror
  · cases herror
  · split at herror
    · split_ifs at herror
      · rcases bind_eq_error.1 herror with hstore | ⟨k₁, -, herror⟩
        · obtain ⟨rfl, hover⟩ := h.store_error (by decide) (by decide) hstore
          exact .status hid hover
        · cases herror
      · cases herror
    · split_ifs at herror
      rcases bind_eq_error.1 herror with hno | ⟨current, -, herror⟩
      · exact absurd hno (getCurrentThread_total hcur)
      · cases herror

/-- A system call of a running thread of an active process ends the simulator for three reasons only. -/
theorem dispatch_error (hcur : k.getCurrentThread = .ok t) (h : Backed pid k) (htracked : k.Tracked)
    (hactive : (k.processList (k.thread t).parent).active = true) (herror : dispatch k ctx = .error why) :
    CallStops k pid ctx why := by
  unfold dispatch at herror
  split at herror
  · exact absurd herror (handleExit_total hcur htracked hactive)
  · exact absurd herror (handleWrite_total hcur h)
  · exact absurd herror (handleRead_total hcur h)
  · exact absurd herror (handleThreadCreate_total hcur)
  · exact absurd herror (handleThreadExit_total hcur)
  · exact absurd herror (handleThreadJoin_total hcur)
  · exact absurd herror (handleMutexCreate_total hcur)
  · exact absurd herror (handleMutexLock_total hcur)
  · exact absurd herror (handleMutexUnlock_total hcur)
  · exact absurd herror (handleOpen_total hcur h)
  · exact absurd herror (handleClose_total hcur)
  · exact absurd herror (handleCreate_total h)
  · exact absurd herror (handleSbrk_total hcur)
  · rename_i hid
    exact handleCreateProcess_error h htracked hid herror
  · rename_i hid
    exact handleJoinProcess_error hcur h hid herror
  · cases herror
    refine .unimplemented ?_
    simp only [imp_false] at *
    omega

end SyscallHandler

namespace Kernel

variable {k k' : Kernel} {pid : Pid} {t : TRef} {v : Addr} {why : Halt}

/-! ### Page faults -/

theorem swapOutPage_full {vpn : Addr} {ppn : Nat} (hlt : ppn < NUM_FRAMES)
    (herror : k.swapOutPage pid vpn (frameAddr ppn) = .error why) : k.swap.firstFree = none := by
  rcases swapOutPage_cases pid vpn hlt with hfull | ⟨slot, swap, disk, hok⟩
  · unfold swapOutPage SwapManager.swapOut at hfull
    rw [k.memory.loadPage_eq hlt] at hfull
    cases hslot : k.swap.firstFree with
    | none => rfl
    | some slot =>
      rw [hslot] at hfull
      cases (freeFrame_frameAddr hlt).symm.trans hfull
  · cases hok.symm.trans herror

theorem evictPage_full {ppn : Nat} (hpool : PoolOk k.pmm k.prp.queue)
    (hall : (k.pmm.frameTable ppn).allocated = true) (herror : k.evictPage = .error why) :
    k.swap.firstFree = none := by
  obtain ⟨v, rest, hvictim, hrest, hv, -⟩ := victim_of_allocated hpool hall
  have hlt := hpool.inRam.table v hv
  obtain ⟨pid, hpid⟩ := hpool.owned v hv
  have hpaddr : (BitVec.ofNat 32 (v * KERNEL_PAGE_SIZE) : Addr) = frameAddr v := rfl
  unfold victim at hvictim
  unfold evictPage at herror
  simp only [hvictim, hrest, hpid, Pid.ofInt?_val, hpaddr] at herror
  split_ifs at herror
  · cases (freeFrame_frameAddr hlt).symm.trans herror
  · exact swapOutPage_full (k := { k with prp := ⟨rest⟩ }) hlt herror

/-- An allocation fails when a page has to be swapped out and no slot is free. -/
theorem allocateFrame_full {o : Page} (hpool : PoolOk k.pmm k.prp.queue)
    (herror : k.allocateFrame o.1 o.2 = .error why) :
    why = .panic "Swap Full!" ∧ k.swap.firstFree = none := by
  rcases allocateFrame_pool hpool o with hfull | ⟨k₁, ppn, rest, hok, -⟩
  · refine ⟨Except.error.inj (herror.symm.trans hfull), ?_⟩
    unfold allocateFrame at hfull
    rcases hfree : k.pmm.freeFrames with _ | ⟨frame, rest⟩
    · have hnone : k.pmm.allocateFrame = (none, k.pmm) := by
        unfold PhysicalMemoryManager.allocateFrame
        rw [hfree]
      simp only [hnone] at hfull
      have hall := allocated_of_full hpool hfree
      rcases bind_eq_error.1 hfull with hevict | ⟨k₁, hevict, hfull⟩
      · exact evictPage_full hpool hall hevict
      · rcases evictPage_pool hpool hall with hno | ⟨_, v, _, hok, -, -, hlt, -, -, -, hpmm⟩
        · cases hno.symm.trans hevict
        · cases hok.symm.trans hevict
          have hfree₁ : k₁.pmm.freeFrames = frameAddr v :: k.pmm.freeFrames := by
            rw [hpmm]
            rfl
          simp only [PhysicalMemoryManager.allocateFrame_eq hfree₁] at hfull
          rcases bind_eq_error.1 hfull with hregister | ⟨_, -, hfull⟩
          · cases (registerFrame_eq hlt _).symm.trans hregister
          · cases hfull
    · obtain ⟨ppn, hlt, rfl⟩ := hpool.inRam.free frame (hfree ▸ List.mem_cons_self)
      simp only [PhysicalMemoryManager.allocateFrame_eq hfree] at hfull
      rcases bind_eq_error.1 hfull with hregister | ⟨_, -, hfull⟩
      · cases (registerFrame_eq hlt _).symm.trans hregister
      · cases hfull
  · cases hok.symm.trans herror

theorem servePageFault_full (hk : k.Retriable) (herror : k.servePageFault pid v = .error why) :
    why = .panic "Swap Full!" ∧ k.swap.firstFree = none := by
  let o : Page := (pid, v >>> 12)
  have hpte := pte_ensure k o
  have hk₀ : (k.setPTE o.1 o.2 (k.pte o.1 o.2)).Retriable :=
    hk.congr rfl rfl fun pid vpn => by rw [hpte (pid, vpn)]
  rcases servePageFault_takes k pid v with hrefused | ⟨-, htakes⟩
  · cases hrefused.symm.trans herror
  · rcases allocateFrame_pool hk₀.pool o with hfull | ⟨k₁, ppn, rest, hok, -, -, -, hlt, -⟩
    · cases (htakes.error _ hfull).symm.trans herror
      exact allocateFrame_full (k := k.setPTE o.1 o.2 (k.pte o.1 o.2)) (o := o) hk₀.pool hfull
    · obtain ⟨e, memory, swap, -, -, hserved⟩ := htakes.ok ppn hlt _ hok
      cases hserved.symm.trans herror

/-! ### An iteration -/

/-- Thread `t` of an active process is current, and its process is on the machine. -/
structure Live (t : TRef) (k : Kernel) : Prop where
  current : k.getCurrentThread = .ok t
  backed : Backed (k.thread t).parent k
  retriable : k.Retriable
  tracked : k.Tracked
  active : (k.processList (k.thread t).parent).active = true

theorem Live.quiet (h : Live t k) (hquiet : Quiet k k') : Live t k' := by
  have hparent : (k'.thread t).parent = (k.thread t).parent := by rw [hquiet.thread]
  refine ⟨hquiet.getCurrentThread.trans h.current, ?_, ?_, ?_, ?_⟩
  · rw [hparent]
    exact h.backed.quiet hquiet
  · exact h.retriable.congr (hquiet.field Kernel.pmm fun _ => rfl) (hquiet.field Kernel.prp fun _ => rfl)
      hquiet.core
  · exact (SameFrames.of_quiet hquiet).tracked h.tracked
  · rw [hparent, hquiet.active]
    exact h.active

theorem handlePageFault_error (h : Live t k) (herror : k.handlePageFault v = .error why) :
    why = .panic "Swap Full!" ∧ k.swap.firstFree = none := by
  rcases bind_eq_error.1 herror with hno | ⟨current, hcurrent, herror⟩
  · cases h.current.symm.trans hno
  · cases h.current.symm.trans hcurrent
    rcases bind_eq_error.1 herror with hserve | ⟨⟨handled, k₁⟩, hserve, herror⟩
    · exact servePageFault_full h.retriable hserve
    · dsimp only at herror
      split_ifs at herror with hhandled
      rcases servePageFault_effect h.tracked.owners hserve with ⟨-, rfl⟩ | ⟨rfl, -⟩
      · -- the process is killed, and it is active
        have hprocess : ((k.setPTE (k.thread t).parent (v >>> 12)
            (k.pte (k.thread t).parent (v >>> 12))).processList (k.thread t).parent).active = true := by
          unfold setPTE
          rw [modifyProcess_self]
          exact h.active
        obtain ⟨k₂, hkill⟩ := SyscallHandler.terminate_total
          (h.tracked.ensure ((k.thread t).parent, v >>> 12)) hprocess (-1)
        rcases bind_eq_error.1 herror with hno | ⟨⟨killed, k₃⟩, hok, herror⟩
        · cases hkill.symm.trans hno
        · cases hkill.symm.trans hok
          cases herror
      · cases hhandled

theorem handleSyscall_error {id : Word} (h : Live t k) (herror : k.handleSyscall id = .error why) :
    SyscallHandler.CallStops k (k.thread t).parent
      ⟨id, k.cpu.regs.read 10, k.cpu.regs.read 11, k.cpu.regs.read 12⟩ why := by
  rcases bind_eq_error.1 herror with hdispatch | ⟨⟨r, k₁⟩, hdispatch, herror⟩
  · exact SyscallHandler.dispatch_error h.current h.backed h.tracked h.active hdispatch
  · dsimp only at herror
    split_ifs at herror with herr
    -- only the mutex calls report an error, and they have changed nothing
    rcases SyscallHandler.dispatch_call h.backed.fault h.current hdispatch with hcall | ⟨rfl, rfl, -⟩
    · rw [hcall.error] at herr
      cases herr
    · have hcurrent : (k₁.deliver SyscallHandler.mutexError).getCurrentThread = .ok t := h.current
      have hactive : ((k₁.deliver SyscallHandler.mutexError).processList
          ((k₁.deliver SyscallHandler.mutexError).thread t).parent).active = true := h.active
      obtain ⟨k₂, hkill⟩ := SyscallHandler.terminate_total
        ((deliver_frames k₁ SyscallHandler.mutexError).tracked h.tracked) hactive (-1)
      rcases bind_eq_error.1 herror with hno | ⟨current, hok, herror⟩
      · cases hcurrent.symm.trans hno
      · cases hcurrent.symm.trans hok
        rcases bind_eq_error.1 herror with hno | ⟨⟨killed, k₃⟩, hok, herror⟩
        · cases hkill.symm.trans hno
        · cases hkill.symm.trans hok
          cases herror

/-- Why an iteration ends the simulator in the state `k`, in which process `pid` is on the machine. -/
inductive Stops (k : Kernel) (pid : Pid) : Halt → Prop
  /-- The machine does not execute the word at the pc. -/
  | rejected {w : Word} {why : Halt} (hword : k.machine.FetchesWord w) (hrejects : Rejects w)
    (hwhy : why.IsRejection w) : Stops k pid why
  | fetch (hover : k.OverRam pid k.cpu.pc 4) : Stops k pid (.undefined "memory index")
  | data {w : Word} {a : Access} {v : Addr} (hword : k.machine.FetchesWord w)
    (haccess : Machine.dataAccess k.cpu.regs w = some (a, v)) (hover : k.OverRam pid v (dataSize w)) :
    Stops k pid (.undefined "memory index")
  | swapFull (hfull : k.swap.firstFree = none) : Stops k pid (.panic "Swap Full!")
  | unimplemented (hid : 14 < (k.cpu.regs.read 17).toNat) : Stops k pid (.panic "Unimplemented syscall id")
  | header {filename : Name} {file : List Byte}
    (hid : (k.cpu.regs.read 17).toNat = SyscallID.SYS_CREATE_PROCESS)
    (hfile : k.host.files filename = some file) (hcut : SyscallHandler.HeadersCut file) :
    Stops k pid (.undefined "program header")
  | status (hid : (k.cpu.regs.read 17).toNat = SyscallID.SYS_JOIN_PROCESS)
    (hover : k.OverRam pid (k.cpu.regs.read 11) 4) : Stops k pid (.undefined "memory index")

/-- What ends a system call ends the simulator in the state that made it. -/
theorem stops_of_call {ctx : SyscallContext} (hquiet : Quiet k k')
    (hid : ctx.id = if (k.cpu.regs.read 17).toNat ≤ 14 then k.cpu.regs.read 17 else Executor.SYS_UNKNOWN)
    (harg : ctx.arg1 = k.cpu.regs.read 11) (h : SyscallHandler.CallStops k' pid ctx why) : k.Stops pid why := by
  have hknown : ctx.id.toNat ≤ 14 → ctx.id = k.cpu.regs.read 17 := by
    intro hle
    rw [hid] at hle ⊢
    split_ifs at hle ⊢ with hnum
    · rfl
    · exact absurd hle (by decide)
  cases h with
  | unimplemented hcall =>
    refine .unimplemented (Nat.lt_of_not_le fun hle => ?_)
    rw [hid, if_pos hle] at hcall
    exact absurd hle (Nat.not_le.2 hcall)
  | header hcall hfile hcut =>
    have hfiles : k'.host.files = k.host.files := hquiet.field (fun k : Kernel => k.host.files) fun _ => rfl
    rw [hfiles] at hfile
    refine .header ?_ hfile hcut
    rw [← hknown (hcall.le.trans (by decide)), hcall]
  | status hcall hover =>
    refine .status ?_ ?_
    · rw [← hknown (hcall.le.trans (by decide)), hcall]
    · rw [← harg]
      exact hover.of_quiet hquiet

theorem tick_error (h : Live t k) (herror : k.tick = .error why) : k.Stops (k.thread t).parent why := by
  rcases bind_eq_error.1 herror with hno | ⟨self, hself, herror⟩
  · cases h.current.symm.trans hno
  · cases h.current.symm.trans hself
    have hmachine : (k.incrementInstruction t).machine = k.machine := incrementInstruction_machine k t
    rcases bind_eq_error.1 herror with hstep | ⟨cpu, hcpu, herror⟩
    · rw [hmachine] at hstep
      have hover {a : Access} {v : Addr} {n : Nat} (hn : n ≤ 8) (hacc : k.machine.mmu.accessible a v = true)
          (hram : MEMORY_SIZE < (k.machine.mmu.physical v).toNat + n) : k.OverRam (k.thread t).parent v n := by
        rw [machine_accessible h.backed.table h.backed.vm] at hacc
        rw [machine_physical h.backed.table h.backed.vm] at hram
        exact h.backed.overRam hn hacc hram
      rcases Machine.step_error h.backed.fault h.backed.startsInRam hstep with
        ⟨rfl, hacc, hram⟩ | ⟨w, hword, ⟨hrejects, hwhy⟩ | ⟨rfl, a, v, haccess, hacc, hram⟩⟩
      · exact .fetch (hover (by decide) hacc hram)
      · exact .rejected hword hrejects hwhy
      · exact .data hword haccess (hover (dataSize_le w) hacc hram)
    · dsimp only at herror
      split_ifs at herror with htrap
      have hprecise := Machine.step_precise hcpu htrap
      have hquiet := (Quiet.tick rfl hcpu).trans (clearTrap_quiet _)
      rw [hprecise.1, hprecise.2] at hquiet
      replace hquiet : Quiet k ((k.incrementInstruction t).withMachine cpu).clearTrap := hquiet
      have hlive := h.quiet hquiet
      have htraps : ((k.incrementInstruction t).withMachine cpu).cpu.trap = cpu.trap := rfl
      unfold handleTrap at herror
      rw [htraps] at herror
      rcases heq : cpu.trap with ⟨type, value⟩
      rw [heq] at herror
      cases type with
      | None => cases herror
      | Syscall =>
        rcases bind_eq_error.1 herror with hcall | ⟨_, -, herror⟩
        · rw [hmachine] at hcpu
          obtain ⟨hregs, hvalue⟩ := Machine.step_syscall h.backed.fault hcpu (by rw [heq])
          have hstops := handleSyscall_error hlive hcall
          rw [hquiet.thread] at hstops
          refine stops_of_call hquiet ?_ ?_ hstops
          · rw [heq] at hvalue
            exact hvalue
          · exact congrArg (fun regs : RegFile => regs.read 11) hregs
        · cases herror
      | PageFault =>
        rcases bind_eq_error.1 herror with hfault | ⟨_, -, herror⟩
        · obtain ⟨rfl, hfull⟩ := handlePageFault_error hlive hfault
          have hswap : ((k.incrementInstruction t).withMachine cpu).clearTrap.swap = k.swap :=
            hquiet.field Kernel.swap fun _ => rfl
          rw [hswap] at hfull
          exact .swapFull hfull
        · cases herror

/-! ### The loop -/

theorem live_of_run {host : Host} {filenames : List Name} {k₀ : Kernel} {es : List Event}
    (hboot : boot host filenames = .ok k₀) (hrun : Run Wakeful k₀ es k)
    (hcurrent : k.getCurrentThread = .ok t) (hstate : (k.thread t).state = .RUNNING) : Live t k := by
  have hreach : k.Reachable := ⟨host, filenames, k₀, es, hboot, .of_guarded hrun⟩
  obtain ⟨hsound, hsettled⟩ := settled_of_boot hboot hrun
  have htracked := reachable_tracked hreach
  obtain ⟨hidx, hlt⟩ := getCurrentThread_eq.1 hcurrent
  obtain ⟨_, hcur, -, htable⟩ := hsound.current
  cases hcur.symm.trans hidx
  exact ⟨hcurrent, ⟨⟨htable, hsound.vmEnabled, hsound.fault⟩, htracked.frame⟩, reachable_retriable hreach,
    htracked, (hsettled.self_active ⟨hidx, hlt, hstate⟩).1⟩

theorem notRunning_total (hsound : k.threads.Sound) : ∃ t, k.getCurrentThread = .ok t ∧
    k.notRunning = .ok ((k.thread t).state ≠ .RUNNING) := by
  obtain ⟨t, hidx, hlt, -⟩ := hsound.current
  have hcurrent := getCurrentThread_eq.2 ⟨hidx, hlt⟩
  refine ⟨t, hcurrent, ?_⟩
  have hindex : k.currentThreadIndex = some t := hidx
  unfold notRunning
  rw [hindex, hcurrent]
  rfl

/-- The code of `a.elf` is one word of zeros. -/
def zeroWord : Host where
  files name := if name = [0x61] then some (elfFile [0, 0, 0, 0]) else none
  console := { stdin := [], answers := [], written := [] }

end Kernel

end Rv32umos
