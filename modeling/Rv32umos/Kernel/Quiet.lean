import Rv32umos.Kernel.Run
import Rv32umos.Vm.Mapping
import Rv32umos.Vm.Traps

/-!
# What memory accesses, file calls and `sbrk` leave alone

`Quiet k k'`: the two kernels differ only in the trap of the machine, RAM, the disk's content, the
files, the host's console, and in each process its descriptors, its break, its count of instructions,
and the referenced and dirty bits of its page table. The system calls that only move data are quiet (`handleWrite_quiet`
and the ones after it), and so is every user instruction, apart from the registers and the pc
(`Quiet.step`).
-/

namespace Rv32umos

/-- A process without its page table, its descriptors, its break and its count of instructions. -/
def Process.stripped (p : Process) : Process :=
  { p with pageTable := .empty, fdTable := fun _ => none, programBreak := 0, instructionsExecuted := 0 }

namespace Kernel

/-- The kernel without everything that memory accesses and file calls work on. -/
def stripped (k : Kernel) : Kernel :=
  { k with
    cpu := { k.cpu with trap := {}, fault := false, faultAddr := 0 }
    memory := .zero
    disk := .new
    vfs := .new
    host := { k.host with console := { stdin := [], answers := [], written := [] } }
    processList := fun pid => (k.processList pid).stripped }

structure Quiet (k k' : Kernel) : Prop where
  rest : k'.stripped = k.stripped
  core : ∀ pid vpn, (k'.pte pid vpn).core = (k.pte pid vpn).core
  fault : k.cpu.fault = false → k'.cpu.fault = false

namespace Quiet

variable {k k' k'' : Kernel}

theorem refl (k : Kernel) : Quiet k k := ⟨rfl, fun _ _ => rfl, id⟩

theorem trans (h : Quiet k k') (h' : Quiet k' k'') : Quiet k k'' :=
  ⟨h'.rest.trans h.rest, fun pid vpn => (h'.core pid vpn).trans (h.core pid vpn),
    fun hfault => h'.fault (h.fault hfault)⟩

theorem of_processList (hrest : k'.stripped = k.stripped) (hprocs : k'.processList = k.processList)
    (hfault : k'.cpu.fault = k.cpu.fault) : Quiet k k' :=
  ⟨hrest, fun pid vpn => by rw [pte, pte, hprocs], hfault.trans⟩

theorem process (h : Quiet k k') (pid : Pid) :
    (k'.processList pid).stripped = (k.processList pid).stripped :=
  congrFun (congrArg Kernel.processList h.rest) pid

/-- What can be read off the stripped kernel is the same. -/
theorem field {α : Type} (f : Kernel → α) (h : Quiet k k') (hf : ∀ k, f k.stripped = f k) :
    f k' = f k := by
  rw [← hf k', h.rest, hf k]

theorem thread (h : Quiet k k') : k'.thread = k.thread := h.field Kernel.thread fun _ => rfl

theorem numThreads (h : Quiet k k') : k'.numThreads = k.numThreads :=
  h.field Kernel.numThreads fun _ => rfl

theorem currentThreadIndex (h : Quiet k k') : k'.currentThreadIndex = k.currentThreadIndex :=
  h.field Kernel.currentThreadIndex fun _ => rfl

theorem active (h : Quiet k k') (pid : Pid) :
    (k'.processList pid).active = (k.processList pid).active :=
  h.field (fun k : Kernel => (k.processList pid).active) fun _ => rfl

theorem getCurrentThread (h : Quiet k k') : k'.getCurrentThread = k.getCurrentThread := by
  unfold Kernel.getCurrentThread
  rw [h.currentThreadIndex, h.numThreads]

/-- A change inside a process, outside its page table. -/
theorem modifyProcess (k : Kernel) (pid : Pid) (f : Process → Process)
    (hrest : ∀ p, (f p).stripped = p.stripped) (htable : ∀ p, (f p).pageTable = p.pageTable) :
    Quiet k (k.modifyProcess pid f) := by
  have hprocess : ∀ pid', ((k.modifyProcess pid f).processList pid').stripped =
      (k.processList pid').stripped ∧
      ((k.modifyProcess pid f).processList pid').pageTable = (k.processList pid').pageTable := by
    intro pid'
    by_cases hpid : pid' = pid
    · subst hpid
      rw [modifyProcess_self]
      exact ⟨hrest _, htable _⟩
    · rw [modifyProcess_ne k f hpid]
      exact ⟨rfl, rfl⟩
  refine ⟨?_, fun pid' vpn => ?_, id⟩
  · unfold stripped
    rw [funext fun pid' => (hprocess pid').1]
    rfl
  · rw [pte, pte, (hprocess pid').2]

end Quiet

/-! ### The machine -/

theorem withTable_pte_core {k : Kernel} {cpu : Machine}
    (h : cpu.mmu.mapping = k.machine.mmu.mapping) (pid : Pid) (vpn : Addr) :
    ((k.withTable cpu.mmu.currentTable).pte pid vpn).core = (k.pte pid vpn).core := by
  cases htable : cpu.mmu.currentTable with
  | none => rfl
  | some table =>
    cases hcur : k.cpu.currentTable with
    | none => simp only [withTable, hcur]
    | some cur =>
      simp only [withTable, hcur]
      by_cases hpid : pid = cur
      · subst hpid
        have hmap : (fun vpn => (table.entry vpn).core) =
            fun vpn => ((k.processList pid).pageTable.entry vpn).core := by
          unfold MMU.mapping machine at h
          rw [htable, hcur] at h
          exact Option.some.inj (congrArg Prod.snd h)
        rw [pte, modifyProcess_self]
        exact congrFun hmap vpn
      · rw [pte, modifyProcess_ne k _ hpid]
        rfl

theorem withMachine_pte_core {k : Kernel} {cpu : Machine}
    (h : cpu.mmu.mapping = k.machine.mmu.mapping) (pid : Pid) (vpn : Addr) :
    ((k.withMachine cpu).pte pid vpn).core = (k.pte pid vpn).core :=
  withTable_pte_core h pid vpn

theorem withTable_stripped (k : Kernel) (table : Option PageTable) :
    (k.withTable table).stripped = k.stripped := by
  cases table with
  | none => rfl
  | some table =>
    cases hcur : k.cpu.currentTable with
    | none => simp only [withTable, hcur]
    | some cur =>
      simp only [withTable, hcur]
      have hprocess : ∀ pid, ((k.modifyProcess cur fun p => { p with pageTable := table }).processList
          pid).stripped = (k.processList pid).stripped := by
        intro pid
        by_cases hpid : pid = cur
        · subst hpid
          rw [modifyProcess_self]
          rfl
        · rw [modifyProcess_ne k _ hpid]
      unfold stripped
      rw [funext hprocess]
      rfl

/-- The kernel with other registers and another pc. -/
def setContext (k : Kernel) (regs : RegFile) (pc : Addr) : Kernel :=
  { k with cpu := { k.cpu with regs, pc } }

theorem withTable_cpu (k : Kernel) (table : Option PageTable) : (k.withTable table).cpu = k.cpu := by
  cases table with
  | none => rfl
  | some table =>
    cases hcur : k.cpu.currentTable with
    | none => simp only [withTable, hcur]
    | some cur =>
      simp only [withTable, hcur]
      rfl

theorem withMachine_stripped {k : Kernel} {cpu : Machine}
    (h : cpu.mmu.mapping = k.machine.mmu.mapping) :
    (k.withMachine cpu).stripped = (k.setContext cpu.regs cpu.pc).stripped := by
  have hvm : cpu.mmu.vmEnabled = k.cpu.vmEnabled := congrArg Prod.fst h
  have htable := withTable_stripped k cpu.mmu.currentTable
  have hcpu := withTable_cpu k cpu.mmu.currentTable
  have hset := congrArg (fun k : Kernel => k.setContext cpu.regs cpu.pc) htable
  refine Eq.trans ?_ hset
  unfold withMachine setContext stripped
  dsimp only
  rw [hvm, hcpu]

theorem Quiet.withMachine {k : Kernel} {cpu : Machine}
    (h : cpu.mmu.mapping = k.machine.mmu.mapping) (hfault : cpu.mmu.fault = false) :
    Quiet (k.setContext cpu.regs cpu.pc) (k.withMachine cpu) :=
  ⟨withMachine_stripped h, withMachine_pte_core h, fun _ => hfault⟩

/-- An access that keeps the registers and the pc. -/
theorem Quiet.access {k : Kernel} {cpu : Machine} (h : cpu.mmu.mapping = k.machine.mmu.mapping)
    (hfault : cpu.mmu.fault = false)
    (hcontext : cpu.regs = k.machine.regs ∧ cpu.pc = k.machine.pc) : Quiet k (k.withMachine cpu) := by
  have hquiet := Quiet.withMachine h hfault
  rw [hcontext.1, hcontext.2] at hquiet
  exact hquiet

/-- A user instruction is quiet, apart from the context. -/
theorem Quiet.step {k : Kernel} {cpu : Machine} (h : k.machine.step = .ok cpu) :
    Quiet (k.setContext cpu.regs cpu.pc) (k.withMachine cpu) :=
  .withMachine (Machine.step_mapping h) (Machine.step_fault h)

theorem incrementInstruction_quiet (k : Kernel) (self : TRef) : Quiet k (k.incrementInstruction self) :=
  .modifyProcess k _ _ (fun _ => rfl) fun _ => rfl

/-- An instruction of the main loop is quiet, apart from the context. -/
theorem Quiet.tick {k k₁ : Kernel} {self : TRef} {cpu : Machine} (hk₁ : k₁ = k.incrementInstruction self)
    (h : k₁.machine.step = .ok cpu) :
    Quiet (k.setContext cpu.regs cpu.pc) (k₁.withMachine cpu) := by
  subst hk₁
  have hcount := incrementInstruction_quiet (k.setContext cpu.regs cpu.pc) self
  exact hcount.trans (Quiet.step h)

theorem clearTrap_quiet (k : Kernel) : Quiet k k.clearTrap := .of_processList rfl rfl rfl

variable {k k' : Kernel}

theorem loadVirtualMemory_quiet {v : Addr} {n : Nat} {val : Word}
    (h : k.loadVirtualMemory v n = .ok (val, k')) : Quiet k k' := by
  obtain ⟨⟨w, cpu⟩, hload, h⟩ := bind_eq_ok.1 h
  cases h
  exact .access (Machine.loadVirtualMemory_mapping hload) (Machine.loadVirtualMemory_fault hload)
    (Machine.loadVirtualMemory_context hload)

theorem storeVirtualMemory_quiet {v : Addr} {n : Nat} {val : Word}
    (h : k.storeVirtualMemory v n val = .ok k') : Quiet k k' := by
  obtain ⟨cpu, hstore, h⟩ := bind_eq_ok.1 h
  cases h
  exact .access (Machine.storeVirtualMemory_mapping hstore)
    (Machine.storeVirtualMemory_fault hstore) (Machine.storeVirtualMemory_context hstore)

end Kernel

/-! ### System calls that only move data -/

namespace SyscallHandler

open Kernel

variable {k k' : Kernel} {ctx : SyscallContext} {r : SyscallResult}

theorem copyIn_quiet {addr : Word} {n i : Nat} {bytes : List Byte}
    (h : copyIn addr n i k = .ok (bytes, k')) : Quiet k k' := by
  induction n generalizing i k bytes with
  | zero =>
    cases h
    exact .refl _
  | succ n ih =>
    obtain ⟨⟨c, k₁⟩, hload, h⟩ := bind_eq_ok.1 h
    obtain ⟨⟨rest, k₂⟩, hrest, h⟩ := bind_eq_ok.1 h
    cases h
    exact (loadVirtualMemory_quiet hload).trans (ih hrest)

theorem copyOut_quiet {addr : Word} {bytes : List Byte} {i : Nat}
    (h : copyOut addr bytes i k = .ok k') : Quiet k k' := by
  induction bytes generalizing i k with
  | nil =>
    cases h
    exact .refl _
  | cons byte rest ih =>
    obtain ⟨k₁, hstore, h⟩ := bind_eq_ok.1 h
    exact (storeVirtualMemory_quiet hstore).trans (ih h)

theorem readPath_quiet {addr : Word} {n offset : Nat} {name : Name}
    (h : readPath addr n offset k = .ok (name, k')) : Quiet k k' := by
  induction n generalizing offset k name with
  | zero =>
    cases h
    exact .refl _
  | succ n ih =>
    obtain ⟨⟨w, k₁⟩, hload, h⟩ := bind_eq_ok.1 h
    dsimp only at h
    split_ifs at h
    · cases h
      exact loadVirtualMemory_quiet hload
    · obtain ⟨⟨rest, k₂⟩, hrest, h⟩ := bind_eq_ok.1 h
      cases h
      exact (loadVirtualMemory_quiet hload).trans (ih hrest)

theorem readFilename_quiet {addr : Word} {name : Name}
    (h : readFilename k addr = .ok (name, k')) : Quiet k k' := readPath_quiet h

theorem setFileHandle_quiet (k : Kernel) (pid : Pid) (fd : Nat) (handle : Option FileHandle) :
    Quiet k (k.modifyProcess pid fun p =>
      { p with fdTable := Function.update p.fdTable fd handle }) :=
  .modifyProcess k pid _ (fun _ => rfl) fun _ => rfl

theorem writeHandle_quiet (k : Kernel) (pid : Pid) (fd : Nat) (handle : FileHandle)
    (buffer : List Byte) (count : Nat) :
    Quiet k (writeHandle k pid fd handle buffer count).2 := by
  cases handle with
  | console hostFD => exact .of_processList rfl rfl rfl
  | disk h =>
    have hdisk : Quiet k { k with disk := (h.write k.disk buffer count).2.1 } :=
      .of_processList rfl rfl rfl
    exact hdisk.trans
      (setFileHandle_quiet _ pid fd (some (.disk (h.write k.disk buffer count).2.2)))

theorem readHandle_quiet (k : Kernel) (pid : Pid) (fd : Nat) (handle : FileHandle)
    (buffer : List Byte) (count : Nat) :
    Quiet k (readHandle k pid fd handle buffer count).2.2 := by
  cases handle with
  | console hostFD => exact .of_processList rfl rfl rfl
  | disk h =>
    exact setFileHandle_quiet k pid fd (some (.disk (h.read k.disk buffer count).2.2))

theorem handleWrite_quiet (h : handleWrite k ctx = .ok (r, k')) : Quiet k k' := by
  obtain ⟨current, -, h⟩ := bind_eq_ok.1 h
  dsimp only at h
  split at h
  · cases h
    exact .refl k
  · obtain ⟨⟨buffer, k₁⟩, hcopy, h⟩ := bind_eq_ok.1 h
    cases h
    exact (copyIn_quiet hcopy).trans (writeHandle_quiet _ _ _ _ _ _)

theorem handleRead_quiet (h : handleRead k ctx = .ok (r, k')) : Quiet k k' := by
  obtain ⟨current, -, h⟩ := bind_eq_ok.1 h
  dsimp only at h
  split at h
  · cases h
    exact .refl k
  · rename_i fd handle _
    refine (readHandle_quiet k (k.thread current).parent fd handle
      (List.replicate ctx.arg2.toNat 0) ctx.arg2.toNat).trans ?_
    split_ifs at h
    · obtain ⟨k₁, hcopy, h⟩ := bind_eq_ok.1 h
      cases h
      exact copyOut_quiet hcopy
    · cases h
      exact .refl _

theorem addFileHandle_quiet (k : Kernel) (pid : Pid) (handle : FileHandle) :
    Quiet k (k.addFileHandle pid handle).2 := by
  unfold addFileHandle
  split
  · exact .refl k
  · exact setFileHandle_quiet _ _ _ _

theorem handleOpen_quiet (h : handleOpen k ctx = .ok (r, k')) : Quiet k k' := by
  obtain ⟨⟨filename, k₁⟩, hread, h⟩ := bind_eq_ok.1 h
  refine (readFilename_quiet hread).trans ?_
  dsimp only at h
  split at h
  · cases h
    exact .refl _
  · rename_i handle _
    obtain ⟨current, -, h⟩ := bind_eq_ok.1 h
    have hadd := addFileHandle_quiet k₁ (k₁.thread current).parent (.disk handle)
    split at h <;> cases h <;> simp_all only

theorem closeFileHandle_quiet (k : Kernel) (pid : Pid) (fd : Int) :
    Quiet k (k.closeFileHandle pid fd).2 := by
  unfold closeFileHandle
  split
  · exact .refl k
  · exact setFileHandle_quiet k pid _ none

theorem handleClose_quiet (h : handleClose k ctx = .ok (r, k')) : Quiet k k' := by
  obtain ⟨current, -, h⟩ := bind_eq_ok.1 h
  cases h
  exact closeFileHandle_quiet _ _ _

theorem handleCreate_quiet (h : handleCreate k ctx = .ok (r, k')) : Quiet k k' := by
  obtain ⟨⟨filename, k₁⟩, hread, h⟩ := bind_eq_ok.1 h
  cases h
  exact (readFilename_quiet hread).trans (.of_processList rfl rfl rfl)

theorem sbrk_quiet (k : Kernel) (pid : Pid) (increment : Word) :
    Quiet k (k.sbrk pid increment).2 := by
  unfold sbrk
  dsimp only
  split
  · exact .refl k
  · dsimp only
    exact .modifyProcess k pid _ (fun _ => rfl) fun _ => rfl

theorem handleSbrk_quiet (h : handleSbrk k ctx = .ok (r, k')) : Quiet k k' := by
  obtain ⟨current, -, h⟩ := bind_eq_ok.1 h
  cases h
  exact sbrk_quiet _ _ _

/-- Everything `SYS_JOIN_PROCESS` can do: refuse, reap an exit code, or block the caller. -/
theorem handleJoinProcess_cases (h : handleJoinProcess k ctx = .ok (r, k')) :
    (r = { returnValue := -1 } ∧ k' = k) ∨
    (∃ (pid : Pid) (exitCode : Word) (k₁ : Kernel), Pid.ofInt? ctx.arg0.toInt = some pid ∧
      k.exitCodes pid = some exitCode ∧ r = { returnValue := 1 } ∧ Quiet k k₁ ∧
      k' = { k₁ with exitCodes := Function.update k₁.exitCodes pid none }) ∨
    ∃ (pid : Pid) (current : TRef), Pid.ofInt? ctx.arg0.toInt = some pid ∧
      k.exitCodes pid = none ∧ (k.processList pid).active = true ∧
      k.getCurrentThread = .ok current ∧ r = suspend ∧
      k' = ({ k with
        processWaiters := Function.update k.processWaiters pid
          (k.processWaiters pid ++ [current]) } : Kernel).setState current .BLOCKED := by
  unfold handleJoinProcess at h
  dsimp only at h
  split at h
  · cases h
    exact .inl ⟨rfl, rfl⟩
  · rename_i pid hpid
    split at h
    · rename_i exitCode hexit
      refine .inr (.inl ⟨pid, exitCode, ?_⟩)
      split_ifs at h
      · obtain ⟨k₁, hstore, h⟩ := bind_eq_ok.1 h
        cases h
        exact ⟨k₁, hpid, hexit, rfl, storeVirtualMemory_quiet hstore, rfl⟩
      · cases h
        exact ⟨k, hpid, hexit, rfl, .refl k, rfl⟩
    · rename_i hexit
      split_ifs at h with hactive
      · cases h
        exact .inl ⟨rfl, rfl⟩
      · obtain ⟨current, hcurrent, h⟩ := bind_eq_ok.1 h
        cases h
        refine .inr (.inr ⟨pid, current, hpid, hexit, ?_, hcurrent, rfl, rfl⟩)
        simpa using hactive

end SyscallHandler

end Rv32umos
