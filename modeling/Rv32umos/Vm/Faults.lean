import Rv32umos.Vm.Acceptance
import Rv32umos.Vm.Traps

/-!
# When a step raises a page fault

An instruction must trap when the page of the pc is not executable, when it loads from a page that
is not readable, or when it stores to a page that is not writable (`MustTrap`). The loads test `rd`
before they access memory, so that a load to x0 never traps (`SkippedLoad`).
-/

namespace Rv32umos

open Rv32im Executor Decoder Bytes

namespace Machine

/-- The effective address of a load or a store. -/
def effective (cpu : Machine) (rs1 : Reg) (imm : BitVec 12) : Addr :=
  cpu.regs.read rs1.toNat + imm.signExtend 32

/-- The instruction at the pc: the word that the frame of its page holds. -/
def Fetches (cpu : Machine) (i : Instr) : Prop :=
  cpu.mmu.memory.load (cpu.mmu.physical cpu.pc) 4 = .ok (encode i)

/-- The access of the instruction is to a missing or invalid page, or to one without the permission. -/
inductive MustTrap (cpu : Machine) : Prop where
  | fetch (h : cpu.mmu.accessible .fetch cpu.pc = false)
  | load (op : LoadOp) (rd rs1 : Reg) (imm : BitVec 12) (hfetches : cpu.Fetches (.load op rd rs1 imm))
      (h : cpu.mmu.accessible .load (cpu.effective rs1 imm) = false)
  | store (op : StoreOp) (rs1 rs2 : Reg) (imm : BitVec 12)
      (hfetches : cpu.Fetches (.store op rs1 rs2 imm))
      (h : cpu.mmu.accessible .store (cpu.effective rs1 imm) = false)

/-- A load to x0 from a page that is missing, invalid or not readable. -/
def SkippedLoad (cpu : Machine) : Prop :=
  cpu.mmu.accessible .fetch cpu.pc = true ∧ ∃ op rs1 imm, cpu.Fetches (.load op 0 rs1 imm) ∧
    cpu.mmu.accessible .load (cpu.effective rs1 imm) = false

end Machine

/-- The machine is returned, with a page fault. -/
def Raises (r : Except Halt Machine) : Prop := ∃ cpu, r = .ok cpu ∧ cpu.trap.type = .PageFault

theorem raises_ok {cpu : Machine} : Raises (.ok cpu) ↔ cpu.trap.type = .PageFault := by
  constructor
  · rintro ⟨_, ⟨⟩, h⟩
    exact h
  · exact fun h => ⟨cpu, rfl, h⟩

theorem not_raises_error {why : Halt} : ¬ Raises (.error why) := by
  rintro ⟨_, ⟨⟩, -⟩

/-! ### The executors -/

section
variable {cpu : Machine} {w : Word} {size : Nat}

theorem not_raises_of_trap {cpu' : Machine} (hnone : cpu.trap.type = .None) (h : cpu'.trap = cpu.trap) :
    ¬ Raises (.ok cpu') := by
  rw [raises_ok, h, hnone]
  decide

theorem not_raises_execECALL : ¬ Raises (.ok (execECALL cpu)) := by
  rw [raises_ok]
  unfold execECALL
  dsimp only
  split
  · exact TrapType.noConfusion
  · exact TrapType.noConfusion

variable (hfault : cpu.mmu.fault = false) (hnone : cpu.trap.type = .None)
include hfault hnone

theorem raises_execLoad {ext : Word → Word} : Raises (execLoad size ext cpu w) ↔
    rd w ≠ 0 ∧ cpu.mmu.accessible .load (cpu.regs.read (rs1 w).toNat + immI w) = false := by
  unfold execLoad
  by_cases hrd : rd w = 0
  · rw [if_pos hrd]
    exact iff_of_false (not_raises_of_trap hnone rfl) fun h => h.1 hrd
  · rw [if_neg hrd]
    dsimp only
    rw [Machine.loadVirtualMemory_eq hfault]
    by_cases hacc : cpu.mmu.accessible .load (cpu.regs.read (rs1 w).toNat + immI w) = true
    · refine iff_of_false ?_ fun h => Bool.false_ne_true (h.2.symm.trans hacc)
      rw [if_pos hacc]
      cases cpu.mmu.memory.load (cpu.mmu.physical (cpu.regs.read (rs1 w).toNat + immI w)) size with
      | error why => exact not_raises_error
      | ok value =>
        have hno : (cpu.touch .load (cpu.regs.read (rs1 w).toNat + immI w)).hasTrap = false := by
          show (cpu.trap.type != .None) = false
          rw [hnone]
          rfl
        show ¬ Raises (if _ then _ else _)
        rw [hno, if_neg Bool.false_ne_true]
        exact not_raises_of_trap hnone rfl
    · rw [if_neg hacc]
      exact iff_of_true (raises_ok.2 rfl) ⟨hrd, by simpa using hacc⟩

theorem raises_execStore : Raises (execStore size cpu w) ↔
    cpu.mmu.accessible .store (cpu.regs.read (rs1 w).toNat + immS w) = false := by
  unfold execStore
  dsimp only
  rw [Machine.storeVirtualMemory_eq hfault]
  by_cases hacc : cpu.mmu.accessible .store (cpu.regs.read (rs1 w).toNat + immS w) = true
  · refine iff_of_false ?_ fun h => Bool.false_ne_true (h.symm.trans hacc)
    rw [if_pos hacc]
    cases cpu.mmu.memory.store (cpu.mmu.physical (cpu.regs.read (rs1 w).toNat + immS w)) size
      (cpu.regs.read (rs2 w).toNat) with
    | error why => exact not_raises_error
    | ok memory => exact not_raises_of_trap hnone rfl
  · rw [if_neg hacc]
    exact iff_of_true (raises_ok.2 rfl) (by simpa using hacc)

theorem raises_load (op : LoadOp) (rd rs1 : Reg) (imm : BitVec 12) :
    Raises (cpu.execute (encode (.load op rd rs1 imm))) ↔
      rd ≠ 0 ∧ cpu.mmu.accessible .load (cpu.effective rs1 imm) = false := by
  obtain ⟨hop, hrd, h3, hrs1, himm⟩ := encodeI_fields 0b0000011 rs1 rd op.funct3 imm
  have hword : encode (.load op rd rs1 imm) = encodeI imm rs1 op.funct3 rd 0b0000011 := rfl
  rw [hword, execute_load cpu op hop h3, loadExecutor_eq, raises_execLoad hfault hnone, rd_eq hrd,
    rs1_eq hrs1, immI_eq himm, toNat_reg, Ne, setWidth_eq_zero_iff]
  rfl

theorem raises_store (op : StoreOp) (rs1 rs2 : Reg) (imm : BitVec 12) :
    Raises (cpu.execute (encode (.store op rs1 rs2 imm))) ↔
      cpu.mmu.accessible .store (cpu.effective rs1 imm) = false := by
  obtain ⟨hop, hlow, h3, hrs1, -, hhigh⟩ :=
    encodeR_fields (imm.extractLsb' 5 7) 0b0100011 rs2 rs1 (imm.extractLsb' 0 5) op.funct3
  have hword : encode (.store op rs1 rs2 imm) =
      encodeR (imm.extractLsb' 5 7) rs2 rs1 op.funct3 (imm.extractLsb' 0 5) 0b0100011 := rfl
  rw [hword, execute_store cpu op hop h3, storeExecutor_eq, raises_execStore hfault hnone,
    rs1_eq hrs1, immS_eq hlow hhigh, toNat_reg]
  rfl

omit hfault in
/-- Only loads and stores raise a page fault. -/
theorem raises_cases (h : Raises (cpu.execute w)) :
    (∃ op rd rs1 imm, w = encode (.load op rd rs1 imm)) ∨
    (∃ op rs1 rs2 imm, w = encode (.store op rs1 rs2 imm)) := by
  by_cases hencodes : ∃ o : Operation, o.encode = w
  · obtain ⟨o, rfl⟩ := hencodes
    rw [o.runs] at h
    have hresult (w v : Word) : ¬ Raises (.ok (writeResult cpu w v)) :=
      not_raises_of_trap hnone (writeResult_trap _ _ _)
    have hno {p : Prop} (hno : ¬ Raises (o.executor cpu o.encode)) : p := absurd h hno
    cases o with
    | base i =>
      cases i with
      | lui => exact hno (hresult _ _)
      | auipc => exact hno (hresult _ _)
      | opImm op =>
        rw [Operation.executor, immExecutor_eq] at h
        exact absurd h (hresult _ _)
      | shift op =>
        rw [Operation.executor, shiftExecutor_eq] at h
        exact absurd h (hresult _ _)
      | opReg op =>
        rw [Operation.executor, regExecutor_eq] at h
        exact absurd h (hresult _ _)
      | jal => exact hno (not_raises_of_trap hnone (writeResult_trap _ _ _))
      | jalr => exact hno (not_raises_of_trap hnone (writeResult_trap _ _ _))
      | branch op =>
        rw [Operation.executor, branchExecutor_eq] at h
        exact absurd h (not_raises_of_trap hnone (execBranch_trap _ _ _))
      | load op rd rs1 imm => exact .inl ⟨op, rd, rs1, imm, rfl⟩
      | store op rs1 rs2 imm => exact .inr ⟨op, rs1, rs2, imm, rfl⟩
      | fence => exact hno (not_raises_of_trap hnone rfl)
    | fenceI => exact hno (not_raises_of_trap hnone rfl)
    | ecall => exact hno not_raises_execECALL
  · exfalso
    by_cases hread : Misread w
    · rcases hread.runs with hruns | hruns
      · rw [hruns] at h
        exact absurd h (not_raises_of_trap hnone (writeResult_trap _ _ _))
      · rw [hruns] at h
        exact not_raises_execECALL h
    · obtain ⟨why, hrejected, -⟩ := Foreign.rejected (not_exists.1 hencodes) hread cpu
      rw [hrejected] at h
      exact not_raises_error h

end

/-! ### The step -/

namespace Machine

variable {cpu : Machine}

/-- A fault flag that is already set makes the step trap. -/
theorem raises_of_fault (hfault : cpu.mmu.fault = true) : Raises cpu.step := by
  obtain ⟨value, cpu₁, hfetch, htrap⟩ :=
    fetch_of_fault (show cpu.clearTrap.mmu.fault = true from hfault)
  rw [step_of_fetch hfetch, if_pos htrap, raises_ok]
  obtain ⟨⟨word, mmu⟩, -, hlatch⟩ := bind_eq_ok.1 hfetch
  cases hlatch
  unfold latchFault at htrap ⊢
  split_ifs at htrap ⊢
  · rfl
  · cases htrap

theorem Fetches.unique {i j : Instr} (hi : cpu.Fetches i) (hj : cpu.Fetches j) : encode i = encode j :=
  Except.ok.inj (hi.symm.trans hj)

/-- The step, with the fault flag clear: a page fault is a fetch, a load to another register than x0,
or a store that the page table does not allow. -/
theorem raises_step (hfault : cpu.mmu.fault = false) : Raises cpu.step ↔
    cpu.mmu.accessible .fetch cpu.pc = false ∨
    (∃ op rd rs1 imm, cpu.Fetches (.load op rd rs1 imm) ∧ rd ≠ 0 ∧
      cpu.mmu.accessible .load (cpu.effective rs1 imm) = false) ∨
    ∃ op rs1 rs2 imm, cpu.Fetches (.store op rs1 rs2 imm) ∧
      cpu.mmu.accessible .store (cpu.effective rs1 imm) = false := by
  have hfetch := fetch_eq (show cpu.clearTrap.mmu.fault = false from hfault)
  by_cases hacc : cpu.mmu.accessible .fetch cpu.pc = true
  · let cpu₁ := cpu.clearTrap.touch .fetch cpu.pc
    have hfault₁ : cpu₁.mmu.fault = false := (MMU.touch_fault _ _ _).trans hfault
    have hsame (a : Access) (v : Addr) : cpu₁.mmu.accessible a v = cpu.mmu.accessible a v :=
      MMU.touch_accessible hacc a v
    rw [if_pos (show cpu.clearTrap.mmu.accessible .fetch cpu.clearTrap.pc = true from hacc)] at hfetch
    simp only [hacc, Bool.true_eq_false, false_or]
    cases hword : cpu.mmu.memory.load (cpu.mmu.physical cpu.pc) 4 with
    | error why =>
      refine iff_of_false ?_ ?_
      · have hstep : cpu.step = .error why := by
          rw [step, hfetch]
          show (Except.map _ (cpu.mmu.memory.load (cpu.mmu.physical cpu.pc) 4) >>= _) = _
          rw [hword]
          rfl
        rw [hstep]
        exact not_raises_error
      · rintro (⟨op, rd, rs1, imm, hfetches, -⟩ | ⟨op, rs1, rs2, imm, hfetches, -⟩)
        · cases hword.symm.trans hfetches
        · cases hword.symm.trans hfetches
    | ok w =>
      have hstep : cpu.step = cpu₁.execute w := by
        have hok : cpu.clearTrap.fetch = .ok (w, cpu₁) := by
          rw [hfetch]
          show Except.map _ (cpu.mmu.memory.load (cpu.mmu.physical cpu.pc) 4) = _
          rw [hword]
          rfl
        rw [step_of_fetch hok]
        rfl
      rw [hstep]
      constructor
      · intro hraises
        rcases raises_cases rfl hraises with ⟨op, rd, rs1, imm, rfl⟩ | ⟨op, rs1, rs2, imm, rfl⟩
        · obtain ⟨hrd, hno⟩ := (raises_load hfault₁ rfl op rd rs1 imm).1 hraises
          exact .inl ⟨op, rd, rs1, imm, hword, hrd, (hsame _ _).symm.trans hno⟩
        · have hno := (raises_store hfault₁ rfl op rs1 rs2 imm).1 hraises
          exact .inr ⟨op, rs1, rs2, imm, hword, (hsame _ _).symm.trans hno⟩
      · rintro (⟨op, rd, rs1, imm, hfetches, hrd, hno⟩ | ⟨op, rs1, rs2, imm, hfetches, hno⟩)
        · rw [Except.ok.inj (hword.symm.trans hfetches)]
          exact (raises_load hfault₁ rfl op rd rs1 imm).2 ⟨hrd, (hsame _ _).trans hno⟩
        · rw [Except.ok.inj (hword.symm.trans hfetches)]
          exact (raises_store hfault₁ rfl op rs1 rs2 imm).2 ((hsame _ _).trans hno)
  · refine iff_of_true ?_ (.inl (by simpa using hacc))
    rw [if_neg (show ¬ cpu.clearTrap.mmu.accessible .fetch cpu.clearTrap.pc = true from hacc)] at hfetch
    rw [step_of_fetch hfetch, if_pos (pageFault_hasTrap _ _), raises_ok]
    rfl

/-- A step raises a page fault exactly when its access must trap, if and only if it is not a load to x0
that the page table does not allow (and, should the MMU's fault flag be set before the step, the
access must trap). -/
theorem pageFault_exact_iff (cpu : Machine) : (Raises cpu.step ↔ cpu.MustTrap) ↔
    (cpu.mmu.fault = false → ¬ cpu.SkippedLoad) ∧ (cpu.mmu.fault = true → cpu.MustTrap) := by
  rcases hfault : cpu.mmu.fault with _ | _
  · simp only [Bool.false_eq_true, false_imp_iff, and_true, true_imp_iff]
    rw [raises_step hfault]
    constructor
    · rintro hexact ⟨hacc, op, rs1, imm, hfetches, hno⟩
      rcases hexact.2 (.load op 0 rs1 imm hfetches hno) with h | ⟨op', rd, rs1', imm', hfetches', hrd, -⟩ |
        ⟨op', rs1', rs2, imm', hfetches', -⟩
      · exact Bool.false_ne_true (h.symm.trans hacc)
      · -- the two encodings agree in `rd`
        have hword := hfetches'.unique hfetches
        have hrd' := rd_eq (encodeI_fields 0b0000011 rs1' rd op'.funct3 imm').2.1
        have hzero := rd_eq (encodeI_fields 0b0000011 rs1 0 op.funct3 imm).2.1
        refine hrd ((setWidth_eq_zero_iff rd).1 (hrd'.symm.trans ?_))
        exact (congrArg Decoder.rd hword).trans hzero
      · have hword := hfetches'.unique hfetches
        have hop := opcode_eq (Operation.hasField_opcode (.base (.load op 0 rs1 imm)))
        rw [← show encode (.store op' rs1' rs2 imm') = (Operation.base (.load op 0 rs1 imm)).encode from
          hword] at hop
        cases Operation.opcode_of (.base (.store op' rs1' rs2 imm')) hop
    · intro hskip
      constructor
      · rintro (h | ⟨op, rd, rs1, imm, hfetches, -, h⟩ | ⟨op, rs1, rs2, imm, hfetches, h⟩)
        · exact .fetch h
        · exact .load op rd rs1 imm hfetches h
        · exact .store op rs1 rs2 imm hfetches h
      · intro hmust
        by_cases hacc : cpu.mmu.accessible .fetch cpu.pc = true
        · cases hmust with
          | fetch h => exact .inl h
          | load op rd rs1 imm hfetches h =>
            refine .inr (.inl ⟨op, rd, rs1, imm, hfetches, ?_, h⟩)
            rintro rfl
            exact hskip ⟨hacc, op, rs1, imm, hfetches, h⟩
          | store op rs1 rs2 imm hfetches h => exact .inr (.inr ⟨op, rs1, rs2, imm, hfetches, h⟩)
        · exact .inl (by simpa using hacc)
  · simp only [Bool.true_eq_false, false_imp_iff, true_and, true_imp_iff]
    exact iff_of_eq (by rw [iff_true_left (raises_of_fault hfault)])

/-- A machine about to execute `lw x0, 8(x6)` with x6 in a page that is not mapped. -/
def skippedLoadMachine : Machine where
  regs := ⟨fun r => if r = 6 then 0x1FF0 else 0⟩
  mmu :=
    { memory := ⟨fun a => if a < 0x3004 then byteAt (encode (.load .lw 0 6 8)) (a - 0x3000) else 7⟩
      currentTable := some (PageTable.empty.set 0 { ppn := 3, valid := true, canExecute := true })
      vmEnabled := true, fault := false, faultAddr := 0 }
  pc := 0
  trap := {}

/-- The load to x0 runs through. -/
theorem load_x0_no_trap : ¬ ∀ (cpu : Machine) (i : Instr), cpu.mmu.vmEnabled = true →
    cpu.mmu.fault = false → cpu.pc.toNat % 4096 + 4 ≤ 4096 → cpu.Fetches i → InPage cpu i →
    (Raises cpu.step ↔ cpu.MustTrap) := by
  intro hall
  have hpage : InPage skippedLoadMachine (.load .lw 0 6 8) := by
    rintro ea n ⟨⟩
    decide
  have hmust : skippedLoadMachine.MustTrap := .load .lw 0 6 8 rfl (by decide)
  obtain ⟨cpu, hstep, htrap⟩ :=
    (hall skippedLoadMachine (.load .lw 0 6 8) rfl rfl (by decide) rfl hpage).2 hmust
  have hnone : skippedLoadMachine.step.toOption.map (fun cpu => cpu.trap.type) = some .None := by decide
  rw [hstep] at hnone
  cases htrap.symm.trans (Option.some.inj hnone)

end Machine

end Rv32umos
