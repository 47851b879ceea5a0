import Rv32umos.Vm.Acceptance
import Rv32umos.Vm.Mapping
import Rv32umos.Vm.Traps

/-!
# Traps are precise, and a step can be restarted

`execute_behaves` sorts the words by what their execution does to any machine: it is rejected, it
computes on the registers and the pc, or it is one load, one store or a system call. A step that ends
in a trap has changed nothing but referenced bits (`step_traps`), and steps from machines that differ
in no more than referenced and dirty bits end alike (`step_alike`): so the instruction can be run again
once its page is mapped (`traps_precise`).
-/

namespace Rv32umos

open Rv32im Executor Decoder

/-- The registers after `writeResult`. -/
def resultRegs (regs : RegFile) (instr result : Word) : RegFile :=
  if rd instr = 0 then regs else regs.write (rd instr).toNat result

theorem writeResult_eq (cpu : Machine) (instr result : Word) :
    writeResult cpu instr result = { cpu with regs := resultRegs cpu.regs instr result } := by
  unfold writeResult resultRegs
  split_ifs
  · rfl
  · rfl

namespace Machine

/-- What the execution of a word does, whatever the machine. -/
inductive Behaves (w : Word) : Prop
  | rejects (h : ∀ cpu : Machine, ∃ why, cpu.execute w = .error why)
  | computes (regs : RegFile → Addr → RegFile) (pc : RegFile → Addr → Addr)
      (h : ∀ cpu : Machine, cpu.execute w =
        .ok { cpu with regs := regs cpu.regs cpu.pc, pc := pc cpu.regs cpu.pc })
  | loads (size : Nat) (ext : Word → Word) (hop : opcode w = Opcode.LOAD)
      (h : ∀ cpu : Machine, cpu.execute w = execLoad size ext cpu w)
  | stores (size : Nat) (hop : opcode w = Opcode.STORE)
      (h : ∀ cpu : Machine, cpu.execute w = execStore size cpu w)
  | calls (h : ∀ cpu : Machine, cpu.execute w = .ok (execECALL cpu))

section
variable {w : Word}

/-- The result of a computation goes to a register. -/
theorem Behaves.of_result (f : RegFile → Addr → Word)
    (h : ∀ cpu : Machine, cpu.execute w = .ok (writeResult cpu w (f cpu.regs cpu.pc))) : Behaves w :=
  .computes (fun regs pc => resultRegs regs w (f regs pc)) (fun _ pc => pc) fun cpu => by
    rw [h, writeResult_eq]

theorem Behaves.of_branch (taken : Word → Word → Bool)
    (h : ∀ cpu : Machine, cpu.execute w = .ok (execBranch taken cpu w)) : Behaves w :=
  .computes (fun regs _ => regs)
    (fun regs pc => if taken (regs.read (rs1 w).toNat) (regs.read (rs2 w).toNat) then
      pc - 4 + immB w else pc) fun cpu => by
    rw [h, execBranch]
    split_ifs
    · rfl
    · rfl

theorem Behaves.of_jal (h : ∀ cpu : Machine, cpu.execute w = .ok (execJAL cpu w)) : Behaves w :=
  .computes (fun regs pc => resultRegs regs w (pc + 4)) (fun _ pc => pc + immJ w - 4) fun cpu => by
    rw [h, execJAL, writeResult_eq]

theorem Behaves.of_jalr (h : ∀ cpu : Machine, cpu.execute w = .ok (execJALR cpu w)) : Behaves w :=
  .computes (fun regs pc => resultRegs regs w (pc + 4))
    (fun regs _ => ((regs.read (rs1 w).toNat + immI w) &&& ~~~1#32) - 4) fun cpu => by
    rw [h, execJALR, writeResult_eq]

end

theorem execute_behaves (w : Word) : Behaves w := by
  by_cases hencodes : ∃ o : Operation, o.encode = w
  · obtain ⟨o, rfl⟩ := hencodes
    have hruns := o.runs
    cases o with
    | base i =>
      cases i with
      | lui rd imm => exact .of_result (fun _ _ => immU _) hruns
      | auipc rd imm => exact .of_result (fun _ pc => pc + immU _) hruns
      | opImm op rd rs1 imm =>
        simp only [Operation.executor, immExecutor_eq] at hruns
        exact .of_result (fun regs _ => op.eval (regs.read (Decoder.rs1 _).toNat) (immI _)) hruns
      | shift op rd rs1 shamt =>
        simp only [Operation.executor, shiftExecutor_eq] at hruns
        exact .of_result (fun regs _ => op.eval (regs.read (Decoder.rs1 _).toNat) (shamtI _).toNat) hruns
      | opReg op rd rs1 rs2 =>
        simp only [Operation.executor, regExecutor_eq] at hruns
        exact .of_result (fun regs _ =>
          op.eval (regs.read (Decoder.rs1 _).toNat) (regs.read (Decoder.rs2 _).toNat)) hruns
      | jal rd imm => exact .of_jal hruns
      | jalr rd rs1 imm => exact .of_jalr hruns
      | branch op rs1 rs2 imm =>
        simp only [Operation.executor, branchExecutor_eq] at hruns
        exact .of_branch op.taken hruns
      | load op rd rs1 imm =>
        simp only [Operation.executor, loadExecutor_eq] at hruns
        exact .loads _ _ (opcode_eq (encodeI_fields 0b0000011 rs1 rd op.funct3 imm).1) hruns
      | store op rs1 rs2 imm =>
        simp only [Operation.executor, storeExecutor_eq] at hruns
        exact .stores _ (opcode_eq (encodeR_fields (imm.extractLsb' 5 7) 0b0100011 rs2 rs1
          (imm.extractLsb' 0 5) op.funct3).1) hruns
      | fence rd rs1 imm => exact .computes (fun regs _ => regs) (fun _ pc => pc) hruns
    | fenceI rd rs1 imm => exact .computes (fun regs _ => regs) (fun _ pc => pc) hruns
    | ecall => exact .calls hruns
  · by_cases hread : Misread w
    · rcases hread.runs with hruns | hruns
      · exact .of_jalr hruns
      · exact .calls hruns
    · refine .rejects fun cpu => ?_
      obtain ⟨why, hrejected, -⟩ := Foreign.rejected (not_exists.1 hencodes) hread cpu
      exact ⟨why, hrejected⟩

/-! ### The trap of a step -/

/-- The access to data of a load to another register than x0, or of a store, and its address: rs1 plus
the immediate. -/
def dataAccess (regs : RegFile) (w : Word) : Option (Access × Addr) :=
  if opcode w = Opcode.LOAD ∧ rd w ≠ 0 then
    some (.load, regs.read (rs1 w).toNat + immI w)
  else if opcode w = Opcode.STORE then some (.store, regs.read (rs1 w).toNat + immS w)
  else none

variable {cpu cpu' : Machine} {w : Word}

section
variable (hfault : cpu.mmu.fault = false) (hnone : cpu.hasTrap = false)
include hfault hnone

/-- The trap of an execution: its access to data is not allowed, or it is a system call. -/
theorem execute_traps (h : cpu.execute w = .ok cpu') (htrap : cpu'.hasTrap = true) :
    (∃ a v, dataAccess cpu.regs w = some (a, v) ∧ cpu.mmu.accessible a v = false ∧
      cpu' = cpu.pageFault v) ∨
    ∃ id, cpu' = cpu.setTrap .Syscall id := by
  have hno {p : Prop} {cpu₁ : Machine} (hk : cpu₁ = cpu') (hsame : cpu₁.trap = cpu.trap) : p := by
    rw [← hk, hasTrap, hsame] at htrap
    exact absurd (htrap.symm.trans hnone) (by decide)
  cases execute_behaves w with
  | rejects hruns =>
    obtain ⟨why, hruns⟩ := hruns cpu
    cases hruns.symm.trans h
  | computes regs pc hruns => exact hno (Except.ok.inj ((hruns cpu).symm.trans h)) rfl
  | loads size ext hop hruns =>
    rw [hruns, execLoad] at h
    split_ifs at h with hrd
    · exact hno (Except.ok.inj h) rfl
    · dsimp only at h
      rw [loadVirtualMemory_eq hfault] at h
      split_ifs at h with hacc
      · cases hload : cpu.mmu.memory.load
            (cpu.mmu.physical (cpu.regs.read (rs1 w).toNat + immI w)) size with
        | error why =>
          rw [hload] at h
          cases h
        | ok val =>
          rw [hload] at h
          have hquiet : (cpu.touch .load (cpu.regs.read (rs1 w).toNat + immI w)).hasTrap = false := hnone
          refine hno (Except.ok.inj (Eq.trans (if_neg ?_).symm h)) rfl
          rw [hquiet]
          decide
      · refine .inl ⟨.load, _, if_pos ⟨hop, hrd⟩, Bool.eq_false_of_not_eq_true hacc, ?_⟩
        exact (Except.ok.inj h).symm
  | stores size hop hruns =>
    rw [hruns, execStore] at h
    rw [storeVirtualMemory_eq hfault] at h
    split_ifs at h with hacc
    · cases hstore : cpu.mmu.memory.store
          (cpu.mmu.physical (cpu.regs.read (rs1 w).toNat + immS w)) size
          (cpu.regs.read (rs2 w).toNat) with
      | error why =>
        rw [hstore] at h
        cases h
      | ok memory =>
        rw [hstore] at h
        exact hno (Except.ok.inj h) rfl
    · have hload : ¬ (opcode w = Opcode.LOAD ∧ rd w ≠ 0) := by
        rintro ⟨hload, -⟩
        rw [hop] at hload
        exact absurd hload (by decide)
      refine .inl ⟨.store, _, (if_neg hload).trans (if_pos hop), Bool.eq_false_of_not_eq_true hacc, ?_⟩
      exact (Except.ok.inj h).symm
  | calls hruns =>
    have hcall := Except.ok.inj ((hruns cpu).symm.trans h)
    rw [← hcall, execECALL]
    split_ifs
    · exact .inr ⟨_, rfl⟩
    · exact .inr ⟨_, rfl⟩

end

/-- A step: the fetch, and the execution of the word that it reads. -/
theorem step_eq (hfault : cpu.mmu.fault = false) : cpu.step =
    if cpu.mmu.accessible .fetch cpu.pc then
      cpu.mmu.memory.load (cpu.mmu.physical cpu.pc) 4 >>=
        (cpu.clearTrap.touch .fetch cpu.pc).execute
    else .ok (cpu.clearTrap.pageFault cpu.pc) := by
  have hfetch := fetch_eq (show cpu.clearTrap.mmu.fault = false from hfault)
  by_cases hacc : cpu.mmu.accessible .fetch cpu.pc = true
  · rw [if_pos (show cpu.clearTrap.mmu.accessible .fetch cpu.clearTrap.pc = true from hacc)] at hfetch
    rw [if_pos hacc, step, hfetch]
    show (Except.map _ (cpu.mmu.memory.load (cpu.mmu.physical cpu.pc) 4) >>= _) = _
    cases cpu.mmu.memory.load (cpu.mmu.physical cpu.pc) 4 with
    | error why => rfl
    | ok w => rfl
  · rw [if_neg (show ¬ cpu.clearTrap.mmu.accessible .fetch cpu.clearTrap.pc = true from hacc)] at hfetch
    rw [if_neg hacc, step_of_fetch hfetch, if_pos (pageFault_hasTrap _ _)]
    rfl

/-- A page fault at `v`: the page of the pc must not be fetched from, or the instruction there has an
access to `v` that is not allowed. -/
def FaultsAt (cpu : Machine) (v : Addr) : Prop :=
  (cpu.mmu.accessible .fetch cpu.pc = false ∧ v = cpu.pc) ∨
  (cpu.mmu.accessible .fetch cpu.pc = true ∧ ∃ w a,
    cpu.mmu.memory.load (cpu.mmu.physical cpu.pc) 4 = .ok w ∧
    dataAccess cpu.regs w = some (a, v) ∧ cpu.mmu.accessible a v = false)

/-- A step that traps: nothing but the trap and the referenced bit of the page of the pc. -/
theorem step_traps (hfault : cpu.mmu.fault = false) (h : cpu.step = .ok cpu')
    (htrap : cpu'.hasTrap = true) :
    (∃ v, cpu.FaultsAt v ∧ (cpu' = cpu.clearTrap.pageFault v ∨
      cpu.mmu.accessible .fetch cpu.pc = true ∧
        cpu' = (cpu.clearTrap.touch .fetch cpu.pc).pageFault v)) ∨
    ∃ id, cpu.mmu.accessible .fetch cpu.pc = true ∧
      cpu' = (cpu.clearTrap.touch .fetch cpu.pc).setTrap .Syscall id := by
  rw [step_eq hfault] at h
  split_ifs at h with hacc
  · obtain ⟨w, hload, h⟩ := bind_eq_ok.1 h
    have hfault₁ : (cpu.clearTrap.touch .fetch cpu.pc).mmu.fault = false :=
      (MMU.touch_fault _ _ _).trans hfault
    rcases execute_traps hfault₁ rfl h htrap with ⟨a, v, haccess, hno, rfl⟩ | ⟨id, rfl⟩
    · refine .inl ⟨v, .inr ⟨hacc, w, a, hload, haccess, ?_⟩, .inr ⟨hacc, rfl⟩⟩
      exact (MMU.touch_accessible hacc a v).symm.trans hno
    · exact .inr ⟨id, hacc, rfl⟩
  · cases h
    exact .inl ⟨cpu.pc, .inl ⟨Bool.eq_false_of_not_eq_true hacc, rfl⟩, .inl rfl⟩

end Machine

/-! ### Referenced bits -/

namespace MMU

variable {mmu mmu' : MMU} {a : Access} {v : Addr}

/-- Entries have gained referenced bits, and nothing else of the page table has changed. -/
def OnlyReferenced (mmu mmu' : MMU) : Prop :=
  mmu'.vmEnabled = mmu.vmEnabled ∧ ∃ r : Addr → Bool,
    mmu'.currentTable.map PageTable.find? = mmu.currentTable.map fun table vpn =>
      (table.find? vpn).map fun e => { e with referenced := e.referenced || r vpn }

theorem OnlyReferenced.of_table (hvm : mmu'.vmEnabled = mmu.vmEnabled)
    (htable : mmu'.currentTable = mmu.currentTable) : mmu.OnlyReferenced mmu' := by
  refine ⟨hvm, fun _ => false, ?_⟩
  rw [htable]
  cases mmu.currentTable with
  | none => rfl
  | some table =>
    refine congrArg some (funext fun vpn => ?_)
    dsimp only
    cases table.find? vpn with
    | none => rfl
    | some e =>
      dsimp only [Option.map_some]
      rw [Bool.or_false]

/-- The translation of the pc sets a referenced bit. -/
theorem OnlyReferenced.of_fetch (hacc : mmu.accessible .fetch v = true)
    (hvm : mmu'.vmEnabled = mmu.vmEnabled)
    (htable : mmu'.currentTable = (mmu.touch .fetch v).currentTable) : mmu.OnlyReferenced mmu' := by
  by_cases henabled : mmu.vmEnabled = true
  · refine ⟨hvm, fun vpn => decide (vpn = v >>> 12), ?_⟩
    rw [htable, touch, if_pos henabled]
    unfold accessible walk at hacc
    rw [henabled, Bool.not_true, Bool.false_or] at hacc
    cases hcur : mmu.currentTable with
    | none => rfl
    | some table =>
      refine congrArg some (funext fun vpn => ?_)
      dsimp only
      rw [PageTable.find?_set]
      split_ifs with hvpn
      · rw [hcur, Option.bind_some] at hacc
        cases hfind : table.find? (v >>> 12) with
        | none =>
          rw [hfind] at hacc
          cases hacc
        | some e =>
          rw [hvpn, hfind, PageTable.entry_of_find? hfind, decide_eq_true rfl]
          simp [PTE.touch, Access.isWrite]
      · rw [decide_eq_false hvpn]
        cases table.find? vpn with
        | none => rfl
        | some e =>
          dsimp only [Option.map_some]
          rw [Bool.or_false]
  · refine .of_table hvm (htable.trans ?_)
    rw [touch, if_neg henabled]

/-- A translation for a fetch. -/
theorem translate_referenced (mmu : MMU) (v : Addr) :
    mmu.OnlyReferenced (mmu.translate v false true).2 ∧
      (mmu.translate v false true).2.memory = mmu.memory := by
  rw [show mmu.translate v false true = _ from mmu.translate_eq .fetch v]
  split_ifs with hacc
  · exact ⟨.of_fetch hacc (touch_vmEnabled _ _ _) rfl, touch_memory _ _ _⟩
  · exact ⟨.of_table rfl rfl, rfl⟩

theorem fetch_referenced {val : Word} (h : mmu.fetch v = .ok (val, mmu')) :
    mmu.OnlyReferenced mmu' ∧ mmu'.memory = mmu.memory := by
  unfold fetch at h
  dsimp only at h
  split_ifs at h
  · cases h
    exact translate_referenced mmu v
  · obtain ⟨w, -, h⟩ := bind_eq_ok.1 h
    cases h
    exact translate_referenced mmu v

theorem accessible_of_mapping (h : mmu'.mapping = mmu.mapping) (a : Access) (v : Addr) :
    mmu'.accessible a v = mmu.accessible a v := by
  have hcore : ∀ mmu : MMU, mmu.accessible a v = (!mmu.mapping.1 ||
      mmu.mapping.2.any fun entry : Addr → PTE => (entry (v >>> 12)).valid && (entry (v >>> 12)).allows a) := by
    intro mmu
    unfold accessible walk mapping
    congr 1
    cases mmu.currentTable with
    | none => rfl
    | some table =>
      dsimp only [Option.bind_some, Option.map_some, Option.any_some]
      cases hfind : table.find? (v >>> 12) with
      | none =>
        rw [PageTable.entry, hfind]
        rfl
      | some e =>
        rw [PageTable.entry_of_find? hfind]
        cases a <;> rfl
  rw [hcore, hcore, h]

theorem physical_of_mapping (h : mmu'.mapping = mmu.mapping) (v : Addr) :
    mmu'.physical v = mmu.physical v := by
  have hcore : ∀ mmu : MMU, mmu.physical v = if mmu.mapping.1 then
      (((mmu.mapping.2.map fun entry : Addr → PTE => entry (v >>> 12)).getD {}).ppn <<< 12) ||| (v &&& 0xFFF#32)
      else v := by
    intro mmu
    unfold physical walk mapping
    cases mmu.currentTable with
    | none => rfl
    | some table =>
      dsimp only [Option.bind_some, Option.map_some, Option.getD_some]
      cases hfind : table.find? (v >>> 12) with
      | none =>
        rw [PageTable.entry, hfind]
        rfl
      | some e =>
        rw [PageTable.entry_of_find? hfind]
        rfl
  rw [hcore, hcore, h]

end MMU

/-! ### Running the instruction again -/

/-- What the program can tell of a step: that it has ended the simulator, or the registers, the pc, RAM
and the trap after it. -/
def SameOutcome : Except Halt Machine → Except Halt Machine → Prop
  | .ok cpu, .ok cpu' => cpu'.regs = cpu.regs ∧ cpu'.pc = cpu.pc ∧ cpu'.mmu.memory = cpu.mmu.memory ∧
      cpu'.trap = cpu.trap
  | .error _, .error _ => True
  | _, _ => False

namespace Machine

/-- The machines differ at most in referenced and dirty bits. -/
structure Alike (cpu cpu' : Machine) : Prop where
  regs : cpu'.regs = cpu.regs
  pc : cpu'.pc = cpu.pc
  memory : cpu'.mmu.memory = cpu.mmu.memory
  mapping : cpu'.mmu.mapping = cpu.mmu.mapping
  trap : cpu'.trap = cpu.trap
  fault : cpu.mmu.fault = false
  fault' : cpu'.mmu.fault = false

variable {cpu cpu' : Machine} {w : Word}

namespace Alike

variable (h : cpu.Alike cpu')
include h

theorem accessible (a : Access) (v : Addr) : cpu'.mmu.accessible a v = cpu.mmu.accessible a v :=
  MMU.accessible_of_mapping h.mapping a v

theorem physical (v : Addr) : cpu'.mmu.physical v = cpu.mmu.physical v :=
  MMU.physical_of_mapping h.mapping v

theorem clearTrap : cpu.clearTrap.Alike cpu'.clearTrap :=
  ⟨h.regs, h.pc, h.memory, h.mapping, rfl, h.fault, h.fault'⟩

theorem touch (a : Access) (v : Addr) : (cpu.touch a v).Alike (cpu'.touch a v) where
  regs := h.regs
  pc := h.pc
  memory := by
    show (cpu'.mmu.touch a v).memory = (cpu.mmu.touch a v).memory
    rw [MMU.touch_memory, MMU.touch_memory, h.memory]
  mapping := by
    show (cpu'.mmu.touch a v).mapping = (cpu.mmu.touch a v).mapping
    rw [MMU.touch_mapping, MMU.touch_mapping, h.mapping]
  trap := h.trap
  fault := (MMU.touch_fault _ _ _).trans h.fault
  fault' := (MMU.touch_fault _ _ _).trans h.fault'

theorem pageFault (v : Addr) : SameOutcome (.ok (cpu.pageFault v)) (.ok (cpu'.pageFault v)) :=
  ⟨h.regs, h.pc, h.memory, rfl⟩

theorem load (size : Nat) (ext : Word → Word) (w : Word) :
    SameOutcome (execLoad size ext cpu w) (execLoad size ext cpu' w) := by
  unfold execLoad
  split_ifs with hrd
  · exact ⟨h.regs, h.pc, h.memory, h.trap⟩
  · dsimp only
    rw [loadVirtualMemory_eq h.fault, loadVirtualMemory_eq h.fault', h.accessible, h.physical, h.regs,
      h.memory]
    split_ifs with hacc
    · cases cpu.mmu.memory.load (cpu.mmu.physical (cpu.regs.read (rs1 w).toNat + immI w)) size with
      | error why => trivial
      | ok val =>
        have htouch := h.touch .load (cpu.regs.read (rs1 w).toNat + immI w)
        show SameOutcome (if _ then _ else _) (if _ then _ else _)
        rw [hasTrap, hasTrap, htouch.trap]
        split_ifs
        · exact ⟨h.regs, h.pc, htouch.memory, h.trap⟩
        · refine ⟨?_, h.pc, htouch.memory, h.trap⟩
          show cpu'.regs.write _ _ = cpu.regs.write _ _
          rw [h.regs]
    · exact h.pageFault _

theorem store (size : Nat) (w : Word) :
    SameOutcome (execStore size cpu w) (execStore size cpu' w) := by
  unfold execStore
  rw [storeVirtualMemory_eq h.fault, storeVirtualMemory_eq h.fault', h.accessible, h.physical, h.regs,
    h.memory]
  split_ifs with hacc
  · cases cpu.mmu.memory.store (cpu.mmu.physical (cpu.regs.read (rs1 w).toNat + immS w)) size
      (cpu.regs.read (rs2 w).toNat) with
    | error why => trivial
    | ok memory => exact ⟨rfl, h.pc, rfl, h.trap⟩
  · exact h.pageFault _

theorem execute (w : Word) : SameOutcome (cpu.execute w) (cpu'.execute w) := by
  cases execute_behaves w with
  | rejects hruns =>
    obtain ⟨why, hruns₁⟩ := hruns cpu
    obtain ⟨why', hruns₂⟩ := hruns cpu'
    rw [hruns₁, hruns₂]
    trivial
  | computes regs pc hruns =>
    rw [hruns, hruns, h.regs, h.pc]
    exact ⟨rfl, rfl, h.memory, h.trap⟩
  | loads size ext hop hruns =>
    rw [hruns, hruns]
    exact h.load size ext w
  | stores size hop hruns =>
    rw [hruns, hruns]
    exact h.store size w
  | calls hruns =>
    rw [hruns, hruns, execECALL, execECALL, h.regs]
    split_ifs
    · exact ⟨h.regs, h.pc, h.memory, rfl⟩
    · exact ⟨h.regs, h.pc, h.memory, rfl⟩

end Alike

/-- Machines that differ at most in referenced and dirty bits, and in the trap that the step clears,
end their steps alike. -/
theorem step_alike (h : cpu.clearTrap.Alike cpu'.clearTrap) : SameOutcome cpu.step cpu'.step := by
  have hfault : cpu.mmu.fault = false := h.fault
  have hfault' : cpu'.mmu.fault = false := h.fault'
  have hacc : cpu'.mmu.accessible .fetch cpu'.pc = cpu.mmu.accessible .fetch cpu.pc := by
    rw [show cpu'.pc = cpu.pc from h.pc]
    exact h.accessible .fetch cpu.pc
  have hload : cpu'.mmu.memory.load (cpu'.mmu.physical cpu'.pc) 4 =
      cpu.mmu.memory.load (cpu.mmu.physical cpu.pc) 4 := by
    rw [show cpu'.mmu.memory = cpu.mmu.memory from h.memory, show cpu'.pc = cpu.pc from h.pc]
    exact congrArg (fun paddr => cpu.mmu.memory.load paddr 4) (h.physical cpu.pc)
  rw [step_eq hfault, step_eq hfault', hacc, hload]
  split_ifs
  · cases cpu.mmu.memory.load (cpu.mmu.physical cpu.pc) 4 with
    | error why => trivial
    | ok w =>
      have htouch := h.touch .fetch cpu.pc
      rw [show cpu'.pc = cpu.pc from h.pc]
      exact htouch.execute w
  · rw [show cpu'.pc = cpu.pc from h.pc]
    exact h.pageFault cpu.pc

/-- The machine with a page mapped by the entry `e`, and RAM once its frame has been filled. -/
def mapPage (cpu : Machine) (vpn : Addr) (e : PTE) (memory : Memory) : Machine :=
  { cpu with mmu := { cpu.mmu with
      currentTable := cpu.mmu.currentTable.map fun table => table.set vpn e
      memory } }

theorem mapPage_mapping (h : cpu'.mmu.mapping = cpu.mmu.mapping) (vpn : Addr) (e : PTE)
    (memory : Memory) : (cpu'.mapPage vpn e memory).mmu.mapping = (cpu.mapPage vpn e memory).mmu.mapping := by
  have hset : ∀ cpu : Machine, (cpu.mapPage vpn e memory).mmu.mapping = (cpu.mmu.mapping.1,
      cpu.mmu.mapping.2.map fun entry => Function.update entry vpn e.core) := by
    intro cpu
    unfold mapPage MMU.mapping
    dsimp only
    rw [Option.map_map, Option.map_map]
    refine congrArg (Prod.mk _) (congrFun (congrArg Option.map (funext fun table => funext fun vpn' => ?_)) _)
    dsimp only [Function.comp]
    rw [PageTable.entry_set]
    split_ifs with hvpn
    · rw [hvpn, Function.update_self]
    · rw [Function.update_of_ne hvpn]
  rw [hset, hset, h]

theorem latchFault_mmu (cpu : Machine) : cpu.latchFault.mmu.memory = cpu.mmu.memory ∧
    cpu.latchFault.mmu.vmEnabled = cpu.mmu.vmEnabled ∧
    cpu.latchFault.mmu.currentTable = cpu.mmu.currentTable := by
  unfold latchFault
  split_ifs
  · exact ⟨rfl, rfl, rfl⟩
  · exact ⟨rfl, rfl, rfl⟩

theorem step_referenced (h : cpu.step = .ok cpu') (htrap : cpu'.hasTrap = true) :
    cpu'.mmu.memory = cpu.mmu.memory ∧ cpu.mmu.OnlyReferenced cpu'.mmu := by
  obtain ⟨⟨w, cpu₁⟩, hfetch, h⟩ := bind_eq_ok.1 h
  have hfault₁ : cpu₁.mmu.fault = false := fetch_fault hfetch
  have hfetched : cpu₁.mmu.memory = cpu.mmu.memory ∧ cpu.mmu.OnlyReferenced cpu₁.mmu := by
    obtain ⟨⟨val, mmu⟩, hread, hlatch⟩ := bind_eq_ok.1 hfetch
    cases hlatch
    obtain ⟨⟨hvm, r, htable⟩, hmemory⟩ := MMU.fetch_referenced hread
    obtain ⟨hmemory', hvm', htable'⟩ := latchFault_mmu { cpu.clearTrap with mmu }
    refine ⟨hmemory'.trans hmemory, hvm'.trans hvm, r, ?_⟩
    rw [htable']
    exact htable
  dsimp only at h
  split_ifs at h with htrap₁
  · cases h
    exact hfetched
  · have hnone : cpu₁.hasTrap = false := Bool.eq_false_of_not_eq_true htrap₁
    rcases execute_traps hfault₁ hnone h htrap with ⟨a, v, -, -, rfl⟩ | ⟨id, rfl⟩
    · exact hfetched
    · exact hfetched

/-- A step that ends in a trap has left the registers, the pc and RAM as they were, the fault flag is
clear, and only referenced bits have changed. A page fault is at the pc or at the address of the access
to data, and once any page has been mapped, with any contents, the step ends as from the machine that
had it mapped before. -/
theorem traps_precise (h : cpu.step = .ok cpu') (htrap : cpu'.hasTrap = true) :
    cpu'.regs = cpu.regs ∧ cpu'.pc = cpu.pc ∧ cpu'.mmu.memory = cpu.mmu.memory ∧
    cpu'.mmu.fault = false ∧ cpu.mmu.OnlyReferenced cpu'.mmu ∧
    (cpu.mmu.fault = false →
      (cpu'.trap.type = .PageFault → cpu.FaultsAt cpu'.trap.value) ∧
      ∀ vpn e memory, SameOutcome (cpu.mapPage vpn e memory).step (cpu'.mapPage vpn e memory).step) := by
  obtain ⟨hregs, hpc⟩ := step_precise h htrap
  have hfault' := step_fault h
  have hmapping := step_mapping h
  have hagain (hfault : cpu.mmu.fault = false) (vpn : Addr) (e : PTE) (memory : Memory) :
      SameOutcome (cpu.mapPage vpn e memory).step (cpu'.mapPage vpn e memory).step :=
    step_alike ⟨hregs, hpc, rfl, mapPage_mapping hmapping vpn e memory, rfl, hfault, hfault'⟩
  obtain ⟨hmemory, hreferenced⟩ := step_referenced h htrap
  refine ⟨hregs, hpc, hmemory, hfault', hreferenced, fun hfault => ⟨fun htype => ?_, hagain hfault⟩⟩
  rcases step_traps hfault h htrap with ⟨v, hfaults, hcase⟩ | ⟨id, -, rfl⟩
  · rcases hcase with rfl | ⟨-, rfl⟩
    · exact hfaults
    · exact hfaults
  · cases htype

/-- A machine about to execute `lw x5, 8(x6)` with x6 in a page that is not mapped. -/
def faultingLoadMachine : Machine :=
  { loadWordMachine with mmu := { loadWordMachine.mmu with
      currentTable := some (PageTable.empty.set 0 { ppn := 3, valid := true, canExecute := true }) } }

/-- The load traps, and goes through once its page is mapped. -/
theorem traps_precise_load : ∃ cpu, faultingLoadMachine.step = .ok cpu ∧
    cpu.regs = faultingLoadMachine.regs ∧ faultingLoadMachine.FaultsAt 0x1FF8 ∧
    SameOutcome
      (faultingLoadMachine.mapPage 1 { ppn := 15, valid := true, canRead := true }
        faultingLoadMachine.mmu.memory).step
      (cpu.mapPage 1 { ppn := 15, valid := true, canRead := true }
        faultingLoadMachine.mmu.memory).step := by
  have hdec : returns faultingLoadMachine.step (fun cpu =>
      decide (cpu.trap = ⟨.PageFault, 0x1FF8⟩)) = true := by decide
  obtain ⟨cpu, hstep, hdec⟩ := returns_iff.1 hdec
  have htrap : cpu.trap = ⟨.PageFault, 0x1FF8⟩ := of_decide_eq_true hdec
  have hhas : cpu.hasTrap = true := by
    rw [hasTrap, htrap]
    decide
  obtain ⟨hregs, -, -, -, -, hagain⟩ := traps_precise hstep hhas
  obtain ⟨hvalue, hsame⟩ := hagain rfl
  rw [htrap] at hvalue
  exact ⟨cpu, hstep, hregs, hvalue rfl, hsame _ _ _⟩

end Machine

end Rv32umos
