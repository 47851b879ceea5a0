import Rv32umos.Vm.Refinement

/-!
# What the decoder accepts

Every word, put back together from its fields, is the encoding of these fields (`encodeR_slices`,
...). With it, each branch of `Machine::execute` that runs an executor is compared with the
encodings: the word is one of that very instruction, or the branch has left a field unread
(`Misread`: the funct3 of JALR, the registers of ECALL). All other words are rejected.
-/

namespace Rv32umos

open Rv32im Executor Decoder

/-- An operation of the machine: an instruction of RV32IM, FENCE.I, or ECALL. -/
inductive Operation where
  | base (i : Instr)
  | fenceI (rd rs1 : Reg) (imm : BitVec 12)
  | ecall

namespace Operation

def encode : Operation → Word
  | base i => Rv32im.encode i
  | fenceI rd rs1 imm => encodeI imm rs1 1 rd 0b0001111
  | ecall => 0x00000073

/-- The executor of the operation; fences are no-ops. -/
def executor : Operation → Machine → Word → Except Halt Machine
  | base (.lui _ _), cpu, w => .ok (execLUI cpu w)
  | base (.auipc _ _), cpu, w => .ok (execAUIPC cpu w)
  | base (.opImm op _ _ _), cpu, w => .ok (immExecutor op cpu w)
  | base (.shift op _ _ _), cpu, w => .ok (shiftExecutor op cpu w)
  | base (.opReg op _ _ _), cpu, w => .ok (regExecutor op cpu w)
  | base (.jal _ _), cpu, w => .ok (execJAL cpu w)
  | base (.jalr _ _ _), cpu, w => .ok (execJALR cpu w)
  | base (.branch op _ _ _), cpu, w => .ok (branchExecutor op cpu w)
  | base (.load op _ _ _), cpu, w => loadExecutor op cpu w
  | base (.store op _ _ _), cpu, w => storeExecutor op cpu w
  | base (.fence _ _ _), cpu, _ => .ok cpu
  | fenceI _ _ _, cpu, _ => .ok cpu
  | ecall, cpu, _ => .ok (execECALL cpu)

end Operation

/-- `Machine::execute` ends in `illegal` or in the `default` of its outer switch. -/
def Halt.IsRejection (w : Word) : Halt → Prop
  | .illegal w' _ => w' = w
  | .unknownOpcode op => op = opcode w
  | _ => False

/-- The word is rejected, in whatever state. -/
def Rejects (w : Word) : Prop := ∀ cpu : Machine, ∃ why, cpu.execute w = .error why ∧ why.IsRejection w

/-- The word is accepted exactly when it is the encoding of an operation, and then it runs the executor
of that very operation. -/
structure Correct (w : Word) : Prop where
  accepted : ¬ Rejects w ↔ ∃ o : Operation, o.encode = w
  runs : ∀ o : Operation, o.encode = w → ∀ cpu : Machine, cpu.execute w = o.executor cpu w

/-- A JALR with a funct3 other than 0, or an ECALL with a register in it. -/
def Misread (w : Word) : Prop :=
  (opcode w = Opcode.JALR ∧ func3 w ≠ 0) ∨
  (opcode w = Opcode.SYSTEM ∧ func3 w = Func3.ECALL_EBREAK ∧ immI w = 0 ∧ (rd w ≠ 0 ∨ rs1 w ≠ 0))

/-! ### Words from their fields -/

theorem hasField_slice (w : Word) (pos n : Nat) : HasField w pos (w.extractLsb' pos n) := by
  intro i hi
  rw [BitVec.getLsbD_extractLsb']
  simp [hi]

theorem setWidth_inj {n m : Nat} (h : n ≤ m) {x y : BitVec n} (heq : x.setWidth m = y.setWidth m) :
    x = y := by
  have hback := congrArg (BitVec.setWidth n) heq
  rwa [BitVec.setWidth_setWidth_of_le _ h, BitVec.setWidth_setWidth_of_le _ h, BitVec.setWidth_eq,
    BitVec.setWidth_eq] at hback

theorem signExtend_eq_zero {n m : Nat} (h : n ≤ m) {x : BitVec n} (hext : x.signExtend m = 0) : x = 0 := by
  apply BitVec.eq_of_getLsbD_eq
  intro i hi
  have hbit := congrArg (fun y : BitVec m => y.getLsbD i) hext
  have him : i < m := by omega
  simp only [BitVec.getLsbD_signExtend, hi, him, decide_true, Bool.true_and, if_true] at hbit
  rw [hbit, BitVec.ofNat_eq_ofNat, BitVec.ofNat_eq_ofNat, BitVec.getLsbD_zero, BitVec.getLsbD_zero]

section
variable (w : Word)

theorem encodeR_slices : encodeR (w.extractLsb' 25 7) (w.extractLsb' 20 5) (w.extractLsb' 15 5)
    (w.extractLsb' 12 3) (w.extractLsb' 7 5) (w.extractLsb' 0 7) = w := by
  apply BitVec.eq_of_getLsbD_eq
  intro i hi
  unfold encodeR
  simp (disch := omega) only [BitVec.getLsbD_or, getLsbD_field, BitVec.getLsbD_extractLsb']
  interval_cases i <;> simp

theorem encodeI_slices : encodeI (w.extractLsb' 20 12) (w.extractLsb' 15 5) (w.extractLsb' 12 3)
    (w.extractLsb' 7 5) (w.extractLsb' 0 7) = w := by
  apply BitVec.eq_of_getLsbD_eq
  intro i hi
  unfold encodeI
  simp (disch := omega) only [BitVec.getLsbD_or, getLsbD_field, BitVec.getLsbD_extractLsb']
  interval_cases i <;> simp

theorem encodeU_slices : encodeU (w.extractLsb' 12 20) (w.extractLsb' 7 5) (w.extractLsb' 0 7) = w := by
  apply BitVec.eq_of_getLsbD_eq
  intro i hi
  unfold encodeU
  simp (disch := omega) only [BitVec.getLsbD_or, getLsbD_field, BitVec.getLsbD_extractLsb']
  interval_cases i <;> simp

/-- The immediate of a store. -/
def sliceS : BitVec 12 := w.extractLsb' 25 7 ++ w.extractLsb' 7 5

theorem encodeS_slices : encodeS (sliceS w) (w.extractLsb' 20 5) (w.extractLsb' 15 5)
    (w.extractLsb' 12 3) (w.extractLsb' 0 7) = w := by
  have hhigh : (sliceS w).extractLsb' 5 7 = w.extractLsb' 25 7 := BitVec.extractLsb'_append_eq_left
  have hlow : (sliceS w).extractLsb' 0 5 = w.extractLsb' 7 5 := BitVec.extractLsb'_append_eq_right
  rw [encodeS, hhigh, hlow]
  exact encodeR_slices w

/-- The offset of a branch, without its bit 0. -/
def sliceB : BitVec 12 :=
  w.extractLsb' 31 1 ++ (w.extractLsb' 7 1 ++ (w.extractLsb' 25 6 ++ w.extractLsb' 8 4))

theorem encodeB_slices : encodeB (sliceB w) (w.extractLsb' 20 5) (w.extractLsb' 15 5)
    (w.extractLsb' 12 3) (w.extractLsb' 0 7) = w := by
  apply BitVec.eq_of_getLsbD_eq
  intro i hi
  unfold encodeB sliceB
  simp (disch := omega) only [BitVec.getLsbD_or, getLsbD_field, BitVec.getLsbD_extractLsb',
    BitVec.getLsbD_append]
  interval_cases i <;> simp

/-- The offset of a jump, without its bit 0. -/
def sliceJ : BitVec 20 :=
  w.extractLsb' 31 1 ++ (w.extractLsb' 12 8 ++ (w.extractLsb' 20 1 ++ w.extractLsb' 21 10))

theorem encodeJ_slices : encodeJ (sliceJ w) (w.extractLsb' 7 5) (w.extractLsb' 0 7) = w := by
  apply BitVec.eq_of_getLsbD_eq
  intro i hi
  unfold encodeJ sliceJ
  simp (disch := omega) only [BitVec.getLsbD_or, getLsbD_field, BitVec.getLsbD_extractLsb',
    BitVec.getLsbD_append]
  interval_cases i <;> simp

end

variable {w : Word}

theorem opcode_slice {x : BitVec 7} (h : opcode w = x.setWidth 8) : w.extractLsb' 0 7 = x :=
  setWidth_inj (by decide) ((opcode_eq (hasField_slice w 0 7)).symm.trans h)

theorem func3_slice {x : BitVec 3} (h : func3 w = x.setWidth 8) : w.extractLsb' 12 3 = x :=
  setWidth_inj (by decide) ((func3_eq (hasField_slice w 12 3)).symm.trans h)

theorem func7_slice {x : BitVec 7} (h : func7 w = x.setWidth 8) : w.extractLsb' 25 7 = x :=
  setWidth_inj (by decide) ((func7_eq (hasField_slice w 25 7)).symm.trans h)

/-! ### The branches of `execute` -/

theorem encodes_reg (op : RegOp) (hop : opcode w = Opcode.R_Type) (h3 : func3 w = op.funct3.setWidth 8)
    (h7 : func7 w = op.funct7.setWidth 8) : ∃ o : Operation, o.encode = w := by
  have h := encodeR_slices w
  rw [opcode_slice (x := 0b0110011) hop, func3_slice h3, func7_slice h7] at h
  exact ⟨.base (.opReg op _ _ _), h⟩

theorem encodes_imm (op : ImmOp) (hop : opcode w = Opcode.I_Type) (h3 : func3 w = op.funct3.setWidth 8) :
    ∃ o : Operation, o.encode = w := by
  have h := encodeI_slices w
  rw [opcode_slice (x := 0b0010011) hop, func3_slice h3] at h
  exact ⟨.base (.opImm op _ _ _), h⟩

theorem encodes_shift (op : ShiftOp) (hop : opcode w = Opcode.I_Type)
    (h3 : func3 w = op.funct3.setWidth 8) (h7 : func7 w = op.funct7.setWidth 8) :
    ∃ o : Operation, o.encode = w := by
  have h := encodeR_slices w
  rw [opcode_slice (x := 0b0010011) hop, func3_slice h3, func7_slice h7] at h
  exact ⟨.base (.shift op _ _ _), h⟩

theorem encodes_load (op : LoadOp) (hop : opcode w = Opcode.LOAD) (h3 : func3 w = op.funct3.setWidth 8) :
    ∃ o : Operation, o.encode = w := by
  have h := encodeI_slices w
  rw [opcode_slice (x := 0b0000011) hop, func3_slice h3] at h
  exact ⟨.base (.load op _ _ _), h⟩

theorem encodes_store (op : StoreOp) (hop : opcode w = Opcode.STORE)
    (h3 : func3 w = op.funct3.setWidth 8) : ∃ o : Operation, o.encode = w := by
  have h := encodeS_slices w
  rw [opcode_slice (x := 0b0100011) hop, func3_slice h3] at h
  exact ⟨.base (.store op _ _ _), h⟩

theorem encodes_branch (op : BranchOp) (hop : opcode w = Opcode.B_Type)
    (h3 : func3 w = op.funct3.setWidth 8) : ∃ o : Operation, o.encode = w := by
  have h := encodeB_slices w
  rw [opcode_slice (x := 0b1100011) hop, func3_slice h3] at h
  exact ⟨.base (.branch op _ _ _), h⟩

theorem encodes_lui (hop : opcode w = Opcode.LUI) : ∃ o : Operation, o.encode = w := by
  have h := encodeU_slices w
  rw [opcode_slice (x := 0b0110111) hop] at h
  exact ⟨.base (.lui _ _), h⟩

theorem encodes_auipc (hop : opcode w = Opcode.AUIPC) : ∃ o : Operation, o.encode = w := by
  have h := encodeU_slices w
  rw [opcode_slice (x := 0b0010111) hop] at h
  exact ⟨.base (.auipc _ _), h⟩

theorem encodes_jal (hop : opcode w = Opcode.JAL) : ∃ o : Operation, o.encode = w := by
  have h := encodeJ_slices w
  rw [opcode_slice (x := 0b1101111) hop] at h
  exact ⟨.base (.jal _ _), h⟩

theorem encodes_jalr (hop : opcode w = Opcode.JALR) (h3 : func3 w = 0) :
    ∃ o : Operation, o.encode = w := by
  have h := encodeI_slices w
  rw [opcode_slice (x := 0b1100111) hop, func3_slice (x := 0) h3] at h
  exact ⟨.base (.jalr _ _ _), h⟩

theorem encodes_fence (hop : opcode w = Opcode.MISC_MEM) (h3 : func3 w = Func3.FENCE) :
    ∃ o : Operation, o.encode = w := by
  have h := encodeI_slices w
  rw [opcode_slice (x := 0b0001111) hop, func3_slice (x := 0) h3] at h
  exact ⟨.base (.fence _ _ _), h⟩

theorem encodes_fenceI (hop : opcode w = Opcode.MISC_MEM) (h3 : func3 w = Func3.FENCE_I) :
    ∃ o : Operation, o.encode = w := by
  have h := encodeI_slices w
  rw [opcode_slice (x := 0b0001111) hop, func3_slice (x := 1) h3] at h
  exact ⟨.fenceI _ _ _, h⟩

/-- The only word with these fields is 0x00000073. -/
theorem encodes_ecall (hop : opcode w = Opcode.SYSTEM) (h3 : func3 w = Func3.ECALL_EBREAK)
    (himm : immI w = 0) (hregs : rd w = 0 ∧ rs1 w = 0) : ∃ o : Operation, o.encode = w := by
  have hrd : w.extractLsb' 7 5 = 0 :=
    setWidth_inj (show 5 ≤ 32 by decide) ((rd_eq (hasField_slice w 7 5)).symm.trans hregs.1)
  have hrs1 : w.extractLsb' 15 5 = 0 :=
    setWidth_inj (show 5 ≤ 32 by decide) ((rs1_eq (hasField_slice w 15 5)).symm.trans hregs.2)
  have himm' : w.extractLsb' 20 12 = 0 :=
    signExtend_eq_zero (by decide) ((immI_eq (hasField_slice w 20 12)).symm.trans himm)
  have h := encodeI_slices w
  rw [opcode_slice (x := 0b1110011) hop, func3_slice (x := 0) h3, hrd, hrs1, himm'] at h
  exact ⟨.ecall, h⟩

/-- A word that encodes nothing. -/
def Foreign (w : Word) : Prop := ∀ o : Operation, o.encode ≠ w

theorem Foreign.no (h : Foreign w) {p : Prop} (hencodes : ∃ o : Operation, o.encode = w) : p := by
  obtain ⟨o, ho⟩ := hencodes
  exact absurd ho (h o)

/-- A word that encodes nothing is rejected, unless a branch of `execute` misreads it. -/
theorem Foreign.rejected (hno : Foreign w) (hread : ¬ Misread w) : Rejects w := by
  intro cpu
  unfold Machine.execute
  dsimp only
  split
  · next hop =>
    -- register operations
    split
    · next h7 =>
      split
      · next h3 => exact hno.no (encodes_reg .mul hop h3 h7)
      · next h3 => exact hno.no (encodes_reg .mulh hop h3 h7)
      · next h3 => exact hno.no (encodes_reg .mulhsu hop h3 h7)
      · next h3 => exact hno.no (encodes_reg .mulhu hop h3 h7)
      · next h3 => exact hno.no (encodes_reg .div hop h3 h7)
      · next h3 => exact hno.no (encodes_reg .divu hop h3 h7)
      · next h3 => exact hno.no (encodes_reg .rem hop h3 h7)
      · next h3 => exact hno.no (encodes_reg .remu hop h3 h7)
      · exact ⟨_, rfl, rfl⟩
    · have hbase : ∀ op : RegOp, op.funct7 = 0 → func3 w = op.funct3.setWidth 8 → func7 w = 0 →
          ∃ o : Operation, o.encode = w := by
        intro op hop7 h3 h7
        refine encodes_reg op hop h3 ?_
        rw [hop7]
        exact h7
      split
      · next h3 =>
        split
        · next h7 => exact hno.no (hbase .add rfl h3 h7)
        · next h7 => exact hno.no (encodes_reg .sub hop h3 h7)
        · exact ⟨_, rfl, rfl⟩
      · next h3 =>
        split
        · exact ⟨_, rfl, rfl⟩
        · next h7 => exact hno.no (hbase .sll rfl h3 (not_not.1 h7))
      · next h3 =>
        split
        · exact ⟨_, rfl, rfl⟩
        · next h7 => exact hno.no (hbase .slt rfl h3 (not_not.1 h7))
      · next h3 =>
        split
        · exact ⟨_, rfl, rfl⟩
        · next h7 => exact hno.no (hbase .sltu rfl h3 (not_not.1 h7))
      · next h3 =>
        split
        · exact ⟨_, rfl, rfl⟩
        · next h7 => exact hno.no (hbase .xor rfl h3 (not_not.1 h7))
      · next h3 =>
        split
        · next h7 => exact hno.no (hbase .srl rfl h3 h7)
        · next h7 => exact hno.no (encodes_reg .sra hop h3 h7)
        · exact ⟨_, rfl, rfl⟩
      · next h3 =>
        split
        · exact ⟨_, rfl, rfl⟩
        · next h7 => exact hno.no (hbase .or rfl h3 (not_not.1 h7))
      · next h3 =>
        split
        · exact ⟨_, rfl, rfl⟩
        · next h7 => exact hno.no (hbase .and rfl h3 (not_not.1 h7))
      · exact ⟨_, rfl, rfl⟩
  · next hop =>
    -- immediates and immediate shifts
    split
    · next h3 => exact hno.no (encodes_imm .addi hop h3)
    · next h3 =>
      split
      · exact ⟨_, rfl, rfl⟩
      · next h7 => exact hno.no (encodes_shift .slli hop h3 (not_not.1 h7))
    · next h3 => exact hno.no (encodes_imm .slti hop h3)
    · next h3 => exact hno.no (encodes_imm .sltiu hop h3)
    · next h3 => exact hno.no (encodes_imm .xori hop h3)
    · next h3 =>
      split
      · next h7 => exact hno.no (encodes_shift .srli hop h3 h7)
      · next h7 => exact hno.no (encodes_shift .srai hop h3 h7)
      · exact ⟨_, rfl, rfl⟩
    · next h3 => exact hno.no (encodes_imm .ori hop h3)
    · next h3 => exact hno.no (encodes_imm .andi hop h3)
    · exact ⟨_, rfl, rfl⟩
  · next hop =>
    split
    · next h3 => exact hno.no (encodes_store .sb hop h3)
    · next h3 => exact hno.no (encodes_store .sh hop h3)
    · next h3 => exact hno.no (encodes_store .sw hop h3)
    · exact ⟨_, rfl, rfl⟩
  · next hop =>
    split
    · next h3 => exact hno.no (encodes_branch .beq hop h3)
    · next h3 => exact hno.no (encodes_branch .bne hop h3)
    · next h3 => exact hno.no (encodes_branch .blt hop h3)
    · next h3 => exact hno.no (encodes_branch .bge hop h3)
    · next h3 => exact hno.no (encodes_branch .bltu hop h3)
    · next h3 => exact hno.no (encodes_branch .bgeu hop h3)
    · exact ⟨_, rfl, rfl⟩
  · next hop =>
    split
    · next h3 => exact hno.no (encodes_load .lb hop h3)
    · next h3 => exact hno.no (encodes_load .lh hop h3)
    · next h3 => exact hno.no (encodes_load .lw hop h3)
    · next h3 => exact hno.no (encodes_load .lbu hop h3)
    · next h3 => exact hno.no (encodes_load .lhu hop h3)
    · exact ⟨_, rfl, rfl⟩
  · next hop => exact hno.no (encodes_lui hop)
  · next hop => exact hno.no (encodes_auipc hop)
  · next hop => exact hno.no (encodes_jal hop)
  · next hop =>
    refine hno.no (encodes_jalr hop ?_)
    by_contra h3
    exact hread (.inl ⟨hop, h3⟩)
  · next hop =>
    split
    · next h3 =>
      split
      · next himm =>
        refine hno.no (encodes_ecall hop h3 himm ?_)
        by_contra hregs
        exact hread (.inr ⟨hop, h3, himm, not_and_or.1 hregs⟩)
      · exact ⟨_, rfl, rfl⟩
    · exact ⟨_, rfl, rfl⟩
  · next hop =>
    split
    · next h3 => exact hno.no (encodes_fence hop h3)
    · next h3 => exact hno.no (encodes_fenceI hop h3)
    · exact ⟨_, rfl, rfl⟩
  · exact ⟨_, rfl, rfl⟩

/-! ### The encodings -/

theorem Operation.runs (o : Operation) (cpu : Machine) : cpu.execute o.encode = o.executor cpu o.encode := by
  cases o with
  | base i =>
    cases i with
    | lui rd imm => exact execute_lui cpu (encodeU_fields 0b0110111 rd imm).1
    | auipc rd imm => exact execute_auipc cpu (encodeU_fields 0b0010111 rd imm).1
    | opImm op rd rs1 imm =>
      obtain ⟨hop, -, h3, -⟩ := encodeI_fields 0b0010011 rs1 rd op.funct3 imm
      exact execute_imm cpu op hop h3
    | shift op rd rs1 shamt =>
      obtain ⟨hop, -, h3, -, -, h7⟩ := encodeR_fields op.funct7 0b0010011 shamt rs1 rd op.funct3
      exact execute_shift cpu op hop h3 h7
    | opReg op rd rs1 rs2 =>
      obtain ⟨hop, -, h3, -, -, h7⟩ := encodeR_fields op.funct7 0b0110011 rs2 rs1 rd op.funct3
      exact execute_reg cpu op hop h3 h7
    | jal rd imm => exact execute_jal cpu (encodeJ_fields 0b1101111 rd imm).1
    | jalr rd rs1 imm => exact execute_jalr cpu (encodeI_fields 0b1100111 rs1 rd 0 imm).1
    | branch op rs1 rs2 imm =>
      obtain ⟨hop, -, -, h3, -⟩ := encodeB_fields 0b1100011 rs2 rs1 op.funct3 imm
      exact execute_branch cpu op hop h3
    | load op rd rs1 imm =>
      obtain ⟨hop, -, h3, -⟩ := encodeI_fields 0b0000011 rs1 rd op.funct3 imm
      exact execute_load cpu op hop h3
    | store op rs1 rs2 imm =>
      obtain ⟨hop, -, h3, -⟩ :=
        encodeR_fields (imm.extractLsb' 5 7) 0b0100011 rs2 rs1 (imm.extractLsb' 0 5) op.funct3
      exact execute_store cpu op hop h3
    | fence rd rs1 imm =>
      obtain ⟨hop, -, h3, -⟩ := encodeI_fields 0b0001111 rs1 rd 0 imm
      exact execute_fence cpu hop h3
  | fenceI rd rs1 imm =>
    obtain ⟨hop, -, h3, -⟩ := encodeI_fields 0b0001111 rs1 rd 1 imm
    simp only [encode, executor, Machine.execute, opcode_eq hop, func3_eq h3]
    rfl
  | ecall => rfl

/-- A machine whose MMU has no page table. -/
def unmapped : Machine :=
  { regs := .reset
    mmu := { memory := .zero, currentTable := none, vmEnabled := true, fault := false, faultAddr := 0 }
    pc := 0
    trap := {} }

theorem loadVirtualMemory_unmapped (v : Addr) (n : Nat) :
    ∃ r, unmapped.loadVirtualMemory v n = .ok r := ⟨_, rfl⟩

theorem storeVirtualMemory_unmapped (v : Addr) (n : Nat) (val : Word) :
    ∃ cpu, unmapped.storeVirtualMemory v n val = .ok cpu := ⟨_, rfl⟩

/-- No executor rejects. -/
theorem Operation.returns (o : Operation) (w : Word) : ∃ cpu, o.executor unmapped w = .ok cpu := by
  have hload : ∀ size ext, ∃ cpu, execLoad size ext unmapped w = .ok cpu := by
    intro size ext
    unfold execLoad
    split
    · exact ⟨_, rfl⟩
    · obtain ⟨⟨val, cpu⟩, hload⟩ :=
        loadVirtualMemory_unmapped (unmapped.regs.read (rs1 w).toNat + immI w) size
      by_cases htrap : cpu.hasTrap = true
      · exact ⟨cpu, bind_eq_ok.2 ⟨_, hload, if_pos htrap⟩⟩
      · exact ⟨_, bind_eq_ok.2 ⟨_, hload, if_neg htrap⟩⟩
  cases o with
  | base i =>
    cases i with
    | load op =>
      rw [executor, loadExecutor_eq]
      exact hload _ _
    | store op =>
      rw [executor, storeExecutor_eq]
      exact storeVirtualMemory_unmapped _ _ _
    | _ => exact ⟨_, rfl⟩
  | fenceI => exact ⟨_, rfl⟩
  | ecall => exact ⟨_, rfl⟩

theorem not_rejects_of_encodes (h : ∃ o : Operation, o.encode = w) : ¬ Rejects w := by
  obtain ⟨o, rfl⟩ := h
  intro hrejects
  obtain ⟨cpu, hreturns⟩ := o.returns o.encode
  obtain ⟨why, hrejected, -⟩ := hrejects unmapped
  cases ((o.runs unmapped).trans hreturns).symm.trans hrejected

/-- What a misread word runs. -/
theorem Misread.runs (h : Misread w) :
    (∀ cpu : Machine, cpu.execute w = .ok (execJALR cpu w)) ∨
    ∀ cpu : Machine, cpu.execute w = .ok (execECALL cpu) := by
  rcases h with ⟨hop, -⟩ | ⟨hop, h3, himm, -⟩
  · left
    intro cpu
    simp only [Machine.execute, hop]
    rfl
  · right
    intro cpu
    simp only [Machine.execute, hop, h3, himm, if_true]
    rfl

theorem Misread.accepted (h : Misread w) : ¬ Rejects w := by
  intro hrejects
  obtain ⟨why, hrejected, -⟩ := hrejects unmapped
  rcases h.runs with hruns | hruns
  · cases (hruns unmapped).symm.trans hrejected
  · cases (hruns unmapped).symm.trans hrejected

namespace Operation

def opcode : Operation → BitVec 7
  | base (.lui _ _) => 0b0110111
  | base (.auipc _ _) => 0b0010111
  | base (.opImm _ _ _ _) | base (.shift _ _ _ _) => 0b0010011
  | base (.opReg _ _ _ _) => 0b0110011
  | base (.jal _ _) => 0b1101111
  | base (.jalr _ _ _) => 0b1100111
  | base (.branch _ _ _ _) => 0b1100011
  | base (.load _ _ _ _) => 0b0000011
  | base (.store _ _ _ _) => 0b0100011
  | base (.fence _ _ _) | fenceI _ _ _ => 0b0001111
  | ecall => 0b1110011

theorem hasField_opcode (o : Operation) : HasField o.encode 0 o.opcode := by
  cases o with
  | base i =>
    cases i with
    | lui rd imm => exact (encodeU_fields _ rd imm).1
    | auipc rd imm => exact (encodeU_fields _ rd imm).1
    | opImm op rd rs1 imm => exact (encodeI_fields _ rs1 rd _ imm).1
    | shift op rd rs1 shamt => exact (encodeR_fields _ _ shamt rs1 rd _).1
    | opReg op rd rs1 rs2 => exact (encodeR_fields _ _ rs2 rs1 rd _).1
    | jal rd imm => exact (encodeJ_fields _ rd imm).1
    | jalr rd rs1 imm => exact (encodeI_fields _ rs1 rd _ imm).1
    | branch op rs1 rs2 imm => exact (encodeB_fields _ rs2 rs1 _ imm).1
    | load op rd rs1 imm => exact (encodeI_fields _ rs1 rd _ imm).1
    | store op rs1 rs2 imm => exact (encodeR_fields _ _ rs2 rs1 _ _).1
    | fence rd rs1 imm => exact (encodeI_fields _ rs1 rd _ imm).1
  | fenceI rd rs1 imm => exact (encodeI_fields _ rs1 rd _ imm).1
  | ecall =>
    intro i hi
    interval_cases i <;> rfl

theorem opcode_of (o : Operation) {x : BitVec 7} (h : Decoder.opcode o.encode = x.setWidth 8) :
    o.opcode = x :=
  setWidth_inj (by decide) ((opcode_eq o.hasField_opcode).symm.trans h)

end Operation

/-- What `execute` misreads is the encoding of nothing. -/
theorem Misread.foreign (h : Misread w) : Foreign w := by
  rintro o rfl
  rcases h with ⟨hop, h3⟩ | ⟨hop, -, -, hregs⟩
  · -- the only operation with this opcode has funct3 = 0
    have h := o.opcode_of (x := 0b1100111) hop
    cases o with
    | base i =>
      cases i with
      | jalr rd rs1 imm => exact h3 (func3_eq (encodeI_fields 0b1100111 rs1 rd 0 imm).2.2.1)
      | _ => cases h
    | fenceI rd rs1 imm => cases h
    | ecall => cases h
  · -- the only operation with this opcode is the word of ECALL
    have h := o.opcode_of (x := 0b1110011) hop
    cases o with
    | base i => cases i <;> cases h
    | fenceI rd rs1 imm => cases h
    | ecall => exact hregs.elim (fun h => h rfl) (fun h => h rfl)

/-- `execute` accepts a word exactly when it encodes an operation, and runs that very one, if and only
if the word is not misread. -/
theorem decoder_exact_iff (w : Word) : Correct w ↔ ¬ Misread w := by
  constructor
  · intro hcorrect hmisread
    obtain ⟨o, ho⟩ := hcorrect.accepted.1 hmisread.accepted
    exact hmisread.foreign o ho
  · intro hread
    refine ⟨⟨fun haccepted => ?_, not_rejects_of_encodes⟩, ?_⟩
    · by_contra hno
      exact haccepted (Foreign.rejected (not_exists.1 hno) hread)
    · rintro o rfl cpu
      exact o.runs cpu

/-- A JALR with funct3 = 1 is executed as JALR. -/
theorem jalr_misread : ¬ ∀ w, Correct w := by
  intro hall
  have hmisread : Misread 0x00001067 := .inl ⟨by decide, by decide⟩
  obtain ⟨o, ho⟩ := (hall 0x00001067).accepted.1 hmisread.accepted
  exact hmisread.foreign o ho

end Rv32umos
