import Mathlib.Tactic

/-!
# The RV32IM instruction set

Instructions with their operands (`Instr`), their standard 32-bit encodings (`encode`), and what
each does to the registers, the pc and memory (`exec`), after the RISC-V unprivileged
specification. Signed operations are written over the integers the words stand for.

Memory is a function from locations of any type; `loc` gives the location an effective address
names, byte by byte. With `loc` the identity this is the specification's flat memory; with `loc` an
address translation it is what a hart sees through its page table.
-/

namespace Rv32im

abbrev Word := BitVec 32
abbrev Reg := BitVec 5

inductive ImmOp where
  | addi | slti | sltiu | xori | ori | andi
  deriving DecidableEq, Repr

inductive ShiftOp where
  | slli | srli | srai
  deriving DecidableEq, Repr

inductive RegOp where
  | add | sub | sll | slt | sltu | xor | srl | sra | or | and
  | mul | mulh | mulhsu | mulhu | div | divu | rem | remu
  deriving DecidableEq, Repr

inductive LoadOp where
  | lb | lh | lw | lbu | lhu
  deriving DecidableEq, Repr

inductive StoreOp where
  | sb | sh | sw
  deriving DecidableEq, Repr

inductive BranchOp where
  | beq | bne | blt | bge | bltu | bgeu
  deriving DecidableEq, Repr

/-- An instruction. The offset of a jump or a branch is given without its lowest bit, which is 0;
`fence` keeps the fields the base specification reserves. -/
inductive Instr where
  | lui (rd : Reg) (imm : BitVec 20)
  | auipc (rd : Reg) (imm : BitVec 20)
  | opImm (op : ImmOp) (rd rs1 : Reg) (imm : BitVec 12)
  | shift (op : ShiftOp) (rd rs1 : Reg) (shamt : BitVec 5)
  | opReg (op : RegOp) (rd rs1 rs2 : Reg)
  | jal (rd : Reg) (imm : BitVec 20)
  | jalr (rd rs1 : Reg) (imm : BitVec 12)
  | branch (op : BranchOp) (rs1 rs2 : Reg) (imm : BitVec 12)
  | load (op : LoadOp) (rd rs1 : Reg) (imm : BitVec 12)
  | store (op : StoreOp) (rs1 rs2 : Reg) (imm : BitVec 12)
  | fence (rd rs1 : Reg) (imm : BitVec 12)
  deriving DecidableEq, Repr

/-! ### Encodings -/

/-- A field of an encoding: `x` at bit position `pos`. -/
def field {n : Nat} (x : BitVec n) (pos : Nat) : Word := x.setWidth 32 <<< pos

theorem getLsbD_field {n : Nat} (x : BitVec n) (pos i : Nat) (hi : i < 32) :
    (field x pos).getLsbD i = (decide (pos ≤ i) && x.getLsbD (i - pos)) := by
  simp only [field, BitVec.getLsbD_shiftLeft, BitVec.getLsbD_setWidth, hi, decide_true,
    Bool.true_and]
  by_cases h : pos ≤ i
  · have h1 : ¬ i < pos := by omega
    have h2 : i - pos < 32 := by omega
    simp [h, h1, h2]
  · have h1 : i < pos := by omega
    simp [h, h1]

def encodeR (funct7 : BitVec 7) (rs2 rs1 : Reg) (funct3 : BitVec 3) (rd : Reg)
    (opcode : BitVec 7) : Word :=
  field funct7 25 ||| field rs2 20 ||| field rs1 15 ||| field funct3 12 ||| field rd 7 |||
    field opcode 0

def encodeI (imm : BitVec 12) (rs1 : Reg) (funct3 : BitVec 3) (rd : Reg)
    (opcode : BitVec 7) : Word :=
  field imm 20 ||| field rs1 15 ||| field funct3 12 ||| field rd 7 ||| field opcode 0

def encodeS (imm : BitVec 12) (rs2 rs1 : Reg) (funct3 : BitVec 3) (opcode : BitVec 7) : Word :=
  encodeR (imm.extractLsb' 5 7) rs2 rs1 funct3 (imm.extractLsb' 0 5) opcode

/-- `imm` holds bits 12 to 1 of the offset: bit `k` of the offset is bit `k - 1` of `imm`. -/
def encodeB (imm : BitVec 12) (rs2 rs1 : Reg) (funct3 : BitVec 3) (opcode : BitVec 7) : Word :=
  field (imm.extractLsb' 11 1) 31 ||| field (imm.extractLsb' 4 6) 25 ||| field rs2 20 |||
    field rs1 15 ||| field funct3 12 ||| field (imm.extractLsb' 0 4) 8 |||
    field (imm.extractLsb' 10 1) 7 ||| field opcode 0

def encodeU (imm : BitVec 20) (rd : Reg) (opcode : BitVec 7) : Word :=
  field imm 12 ||| field rd 7 ||| field opcode 0

/-- `imm` holds bits 20 to 1 of the offset. -/
def encodeJ (imm : BitVec 20) (rd : Reg) (opcode : BitVec 7) : Word :=
  field (imm.extractLsb' 19 1) 31 ||| field (imm.extractLsb' 0 10) 21 |||
    field (imm.extractLsb' 10 1) 20 ||| field (imm.extractLsb' 11 8) 12 ||| field rd 7 |||
    field opcode 0

def ImmOp.funct3 : ImmOp → BitVec 3
  | .addi => 0 | .slti => 2 | .sltiu => 3 | .xori => 4 | .ori => 6 | .andi => 7

def ShiftOp.funct3 : ShiftOp → BitVec 3
  | .slli => 1 | .srli => 5 | .srai => 5

def ShiftOp.funct7 : ShiftOp → BitVec 7
  | .slli => 0 | .srli => 0 | .srai => 0x20

def RegOp.funct3 : RegOp → BitVec 3
  | .add => 0 | .sub => 0 | .sll => 1 | .slt => 2 | .sltu => 3 | .xor => 4 | .srl => 5 | .sra => 5
  | .or => 6 | .and => 7
  | .mul => 0 | .mulh => 1 | .mulhsu => 2 | .mulhu => 3 | .div => 4 | .divu => 5 | .rem => 6
  | .remu => 7

def RegOp.funct7 : RegOp → BitVec 7
  | .sub | .sra => 0x20
  | .add | .sll | .slt | .sltu | .xor | .srl | .or | .and => 0
  | .mul | .mulh | .mulhsu | .mulhu | .div | .divu | .rem | .remu => 1

def LoadOp.funct3 : LoadOp → BitVec 3
  | .lb => 0 | .lh => 1 | .lw => 2 | .lbu => 4 | .lhu => 5

def StoreOp.funct3 : StoreOp → BitVec 3
  | .sb => 0 | .sh => 1 | .sw => 2

def BranchOp.funct3 : BranchOp → BitVec 3
  | .beq => 0 | .bne => 1 | .blt => 4 | .bge => 5 | .bltu => 6 | .bgeu => 7

/-- The standard encoding. -/
def encode : Instr → Word
  | .lui rd imm => encodeU imm rd 0b0110111
  | .auipc rd imm => encodeU imm rd 0b0010111
  | .opImm op rd rs1 imm => encodeI imm rs1 op.funct3 rd 0b0010011
  | .shift op rd rs1 shamt => encodeR op.funct7 shamt rs1 op.funct3 rd 0b0010011
  | .opReg op rd rs1 rs2 => encodeR op.funct7 rs2 rs1 op.funct3 rd 0b0110011
  | .jal rd imm => encodeJ imm rd 0b1101111
  | .jalr rd rs1 imm => encodeI imm rs1 0 rd 0b1100111
  | .branch op rs1 rs2 imm => encodeB imm rs2 rs1 op.funct3 0b1100011
  | .load op rd rs1 imm => encodeI imm rs1 op.funct3 rd 0b0000011
  | .store op rs1 rs2 imm => encodeS imm rs2 rs1 op.funct3 0b0100011
  | .fence rd rs1 imm => encodeI imm rs1 0 rd 0b0001111

/-- The bits of `w` from position `pos` on are `x`. -/
def HasField {n : Nat} (w : Word) (pos : Nat) (x : BitVec n) : Prop :=
  ∀ i < n, w.getLsbD (pos + i) = x.getLsbD i

section
variable (funct7 opcode : BitVec 7) (rs2 rs1 rd : Reg) (funct3 : BitVec 3) (imm : BitVec 12)
  (imm20 : BitVec 20)

theorem encodeR_fields : HasField (encodeR funct7 rs2 rs1 funct3 rd opcode) 0 opcode ∧
    HasField (encodeR funct7 rs2 rs1 funct3 rd opcode) 7 rd ∧
    HasField (encodeR funct7 rs2 rs1 funct3 rd opcode) 12 funct3 ∧
    HasField (encodeR funct7 rs2 rs1 funct3 rd opcode) 15 rs1 ∧
    HasField (encodeR funct7 rs2 rs1 funct3 rd opcode) 20 rs2 ∧
    HasField (encodeR funct7 rs2 rs1 funct3 rd opcode) 25 funct7 := by
  refine ⟨?_, ?_, ?_, ?_, ?_, ?_⟩ <;> intro i hi <;> unfold encodeR <;>
    simp (disch := omega) only [BitVec.getLsbD_or, getLsbD_field] <;> interval_cases i <;> simp

theorem encodeI_fields : HasField (encodeI imm rs1 funct3 rd opcode) 0 opcode ∧
    HasField (encodeI imm rs1 funct3 rd opcode) 7 rd ∧
    HasField (encodeI imm rs1 funct3 rd opcode) 12 funct3 ∧
    HasField (encodeI imm rs1 funct3 rd opcode) 15 rs1 ∧
    HasField (encodeI imm rs1 funct3 rd opcode) 20 imm := by
  refine ⟨?_, ?_, ?_, ?_, ?_⟩ <;> intro i hi <;> unfold encodeI <;>
    simp (disch := omega) only [BitVec.getLsbD_or, getLsbD_field] <;> interval_cases i <;> simp

theorem encodeB_fields : HasField (encodeB imm rs2 rs1 funct3 opcode) 0 opcode ∧
    HasField (encodeB imm rs2 rs1 funct3 opcode) 7 (imm.extractLsb' 10 1) ∧
    HasField (encodeB imm rs2 rs1 funct3 opcode) 8 (imm.extractLsb' 0 4) ∧
    HasField (encodeB imm rs2 rs1 funct3 opcode) 12 funct3 ∧
    HasField (encodeB imm rs2 rs1 funct3 opcode) 15 rs1 ∧
    HasField (encodeB imm rs2 rs1 funct3 opcode) 20 rs2 ∧
    HasField (encodeB imm rs2 rs1 funct3 opcode) 25 (imm.extractLsb' 4 6) ∧
    HasField (encodeB imm rs2 rs1 funct3 opcode) 31 (imm.extractLsb' 11 1) := by
  refine ⟨?_, ?_, ?_, ?_, ?_, ?_, ?_, ?_⟩ <;> intro i hi <;> unfold encodeB <;>
    simp (disch := omega) only [BitVec.getLsbD_or, getLsbD_field] <;> interval_cases i <;> simp

theorem encodeU_fields : HasField (encodeU imm20 rd opcode) 0 opcode ∧
    HasField (encodeU imm20 rd opcode) 7 rd ∧ HasField (encodeU imm20 rd opcode) 12 imm20 := by
  refine ⟨?_, ?_, ?_⟩ <;> intro i hi <;> unfold encodeU <;>
    simp (disch := omega) only [BitVec.getLsbD_or, getLsbD_field] <;> interval_cases i <;> simp

theorem encodeJ_fields : HasField (encodeJ imm20 rd opcode) 0 opcode ∧
    HasField (encodeJ imm20 rd opcode) 7 rd ∧
    HasField (encodeJ imm20 rd opcode) 12 (imm20.extractLsb' 11 8) ∧
    HasField (encodeJ imm20 rd opcode) 20 (imm20.extractLsb' 10 1) ∧
    HasField (encodeJ imm20 rd opcode) 21 (imm20.extractLsb' 0 10) ∧
    HasField (encodeJ imm20 rd opcode) 31 (imm20.extractLsb' 19 1) := by
  refine ⟨?_, ?_, ?_, ?_, ?_, ?_⟩ <;> intro i hi <;> unfold encodeJ <;>
    simp (disch := omega) only [BitVec.getLsbD_or, getLsbD_field] <;> interval_cases i <;> simp

end

/-! ### Meaning -/

/-- The architectural state; `mem` is a function from locations. -/
structure State (L : Type) where
  regs : Reg → Word
  pc : Word
  mem : L → BitVec 8

/-- The word an integer stands for, modulo `2 ^ 32`. -/
abbrev ofInt (z : Int) : Word := BitVec.ofInt 32 z

/-- The offset of a jump or a branch: bit 0 is 0, the rest is sign-extended. -/
def offset {n : Nat} (imm : BitVec n) : Word := ofInt (2 * imm.toInt)

def ImmOp.eval : ImmOp → Word → Word → Word
  | .addi, x, i => x + i
  | .slti, x, i => if x.toInt < i.toInt then 1 else 0
  | .sltiu, x, i => if x.toNat < i.toNat then 1 else 0
  | .xori, x, i => x ^^^ i
  | .ori, x, i => x ||| i
  | .andi, x, i => x &&& i

def ShiftOp.eval : ShiftOp → Word → Nat → Word
  | .slli, x, n => BitVec.ofNat 32 (x.toNat * 2 ^ n)
  | .srli, x, n => BitVec.ofNat 32 (x.toNat / 2 ^ n)
  | .srai, x, n => ofInt (x.toInt / 2 ^ n)

def RegOp.eval : RegOp → Word → Word → Word
  | .add, x, y => x + y
  | .sub, x, y => x - y
  | .sll, x, y => ShiftOp.slli.eval x (y.toNat % 32)
  | .slt, x, y => if x.toInt < y.toInt then 1 else 0
  | .sltu, x, y => if x.toNat < y.toNat then 1 else 0
  | .xor, x, y => x ^^^ y
  | .srl, x, y => ShiftOp.srli.eval x (y.toNat % 32)
  | .sra, x, y => ShiftOp.srai.eval x (y.toNat % 32)
  | .or, x, y => x ||| y
  | .and, x, y => x &&& y
  | .mul, x, y => ofInt (x.toInt * y.toInt)
  | .mulh, x, y => ofInt (x.toInt * y.toInt / 2 ^ 32)
  | .mulhsu, x, y => ofInt (x.toInt * y.toNat / 2 ^ 32)
  | .mulhu, x, y => ofInt (x.toNat * y.toNat / 2 ^ 32)
  | .div, x, y => if y = 0 then ofInt (-1) else ofInt (x.toInt.tdiv y.toInt)
  | .divu, x, y => if y = 0 then ofInt (2 ^ 32 - 1) else BitVec.ofNat 32 (x.toNat / y.toNat)
  | .rem, x, y => if y = 0 then x else ofInt (x.toInt.tmod y.toInt)
  | .remu, x, y => if y = 0 then x else BitVec.ofNat 32 (x.toNat % y.toNat)

def BranchOp.taken : BranchOp → Word → Word → Bool
  | .beq, x, y => x == y
  | .bne, x, y => x != y
  | .blt, x, y => x.toInt < y.toInt
  | .bge, x, y => y.toInt ≤ x.toInt
  | .bltu, x, y => x.toNat < y.toNat
  | .bgeu, x, y => y.toNat ≤ x.toNat

/-- The number of bytes an access reads or writes. -/
def LoadOp.size : LoadOp → Nat
  | .lb | .lbu => 1
  | .lh | .lhu => 2
  | .lw => 4

def StoreOp.size : StoreOp → Nat
  | .sb => 1
  | .sh => 2
  | .sw => 4

theorem LoadOp.size_pos (op : LoadOp) : 0 < op.size := by cases op <;> decide

theorem StoreOp.size_pos (op : StoreOp) : 0 < op.size := by cases op <;> decide

section
variable {L : Type}

/-- x0 reads as 0. -/
def State.get (s : State L) (r : Reg) : Word := if r = 0 then 0 else s.regs r

/-- x0 is never written. -/
def State.set (s : State L) (r : Reg) (v : Word) : State L :=
  if r = 0 then s else { s with regs := Function.update s.regs r v }

def State.next (s : State L) : State L := { s with pc := s.pc + 4 }

/-- The value of a load: little-endian bytes, zero- or sign-extended. -/
def LoadOp.eval (op : LoadOp) (byte : Nat → BitVec 8) : Word :=
  match op with
  | .lb => (byte 0).signExtend 32
  | .lh => (byte 1 ++ byte 0).signExtend 32
  | .lw => byte 3 ++ byte 2 ++ byte 1 ++ byte 0
  | .lbu => (byte 0).setWidth 32
  | .lhu => (byte 1 ++ byte 0).setWidth 32

variable [DecidableEq L] (loc : Word → L)

/-- Bytes `0 .. n - 1` of `v`, lowest first, to the locations of `addr`, `addr + 1`, ... -/
def storeBytes (addr v : Word) : Nat → (L → BitVec 8) → L → BitVec 8
  | 0, mem => mem
  | n + 1, mem => Function.update (storeBytes addr v n mem) (loc (addr + BitVec.ofNat 32 n))
      (v.extractLsb' (8 * n) 8)

/-- The effective address and the size of the data access of an instruction, if it has one. -/
def Instr.access (i : Instr) (s : State L) : Option (Word × Nat) :=
  match i with
  | .load op _ rs1 imm => some (s.get rs1 + imm.signExtend 32, op.size)
  | .store op rs1 _ imm => some (s.get rs1 + imm.signExtend 32, op.size)
  | _ => none

/-- One instruction. -/
def exec (i : Instr) (s : State L) : State L :=
  match i with
  | .lui rd imm => (s.set rd (imm ++ 0#12)).next
  | .auipc rd imm => (s.set rd (s.pc + (imm ++ 0#12))).next
  | .opImm op rd rs1 imm => (s.set rd (op.eval (s.get rs1) (imm.signExtend 32))).next
  | .shift op rd rs1 shamt => (s.set rd (op.eval (s.get rs1) shamt.toNat)).next
  | .opReg op rd rs1 rs2 => (s.set rd (op.eval (s.get rs1) (s.get rs2))).next
  | .jal rd imm => { s.set rd (s.pc + 4) with pc := s.pc + offset imm }
  | .jalr rd rs1 imm =>
    { s.set rd (s.pc + 4) with pc := (s.get rs1 + imm.signExtend 32) &&& ~~~1#32 }
  | .branch op rs1 rs2 imm =>
    if op.taken (s.get rs1) (s.get rs2) then { s with pc := s.pc + offset imm } else s.next
  | .load op rd rs1 imm =>
    (s.set rd (op.eval fun i => s.mem (loc (s.get rs1 + imm.signExtend 32 + BitVec.ofNat 32 i)))).next
  | .store op rs1 rs2 imm =>
    { s.next with
      mem := storeBytes loc (s.get rs1 + imm.signExtend 32) (s.get rs2) op.size s.mem }
  | .fence _ _ _ => s.next

end

/-! ### Memories that look the same -/

theorem LoadOp.eval_congr (op : LoadOp) {byte byte' : Nat → BitVec 8}
    (h : ∀ j < op.size, byte' j = byte j) : op.eval byte' = op.eval byte := by
  cases op with
  | lb => simp only [LoadOp.eval, h 0 (by decide)]
  | lh => simp only [LoadOp.eval, h 0 (by decide), h 1 (by decide)]
  | lw => simp only [LoadOp.eval, h 0 (by decide), h 1 (by decide), h 2 (by decide), h 3 (by decide)]
  | lbu => simp only [LoadOp.eval, h 0 (by decide)]
  | lhu => simp only [LoadOp.eval, h 0 (by decide), h 1 (by decide)]

section
variable {L L' : Type} [DecidableEq L] [DecidableEq L'] {loc : Word → L} {loc' : Word → L'}

/-- The registers and the pc after an instruction depend on the bytes that it loads only. -/
theorem exec_congr (i : Instr) {s : State L} {s' : State L'} (hregs : s'.regs = s.regs) (hpc : s'.pc = s.pc)
    (hmem : ∀ op rd rs1 imm, i = .load op rd rs1 imm → rd ≠ 0 → ∀ j < op.size,
      s'.mem (loc' (s.get rs1 + imm.signExtend 32 + BitVec.ofNat 32 j)) =
        s.mem (loc (s.get rs1 + imm.signExtend 32 + BitVec.ofNat 32 j))) :
    (exec loc' i s').regs = (exec loc i s).regs ∧ (exec loc' i s').pc = (exec loc i s).pc := by
  have hget : ∀ r, s'.get r = s.get r := fun r => by rw [State.get, State.get, hregs]
  have hset : ∀ r v, (s'.set r v).regs = (s.set r v).regs ∧ (s'.set r v).pc = (s.set r v).pc := by
    intro r v
    unfold State.set
    split
    · exact ⟨hregs, hpc⟩
    · exact ⟨congrArg (fun regs => Function.update regs r v) hregs, hpc⟩
  have hnext : ∀ r v, (s'.set r v).next.regs = (s.set r v).next.regs ∧
      (s'.set r v).next.pc = (s.set r v).next.pc :=
    fun r v => ⟨(hset r v).1, congrArg (· + 4) (hset r v).2⟩
  cases i with
  | lui rd imm => exact hnext _ _
  | auipc rd imm =>
    rw [exec, exec, hpc]
    exact hnext _ _
  | opImm op rd rs1 imm =>
    rw [exec, exec, hget]
    exact hnext _ _
  | shift op rd rs1 shamt =>
    rw [exec, exec, hget]
    exact hnext _ _
  | opReg op rd rs1 rs2 =>
    rw [exec, exec, hget, hget]
    exact hnext _ _
  | jal rd imm =>
    rw [exec, exec, hpc]
    exact ⟨(hset _ _).1, rfl⟩
  | jalr rd rs1 imm =>
    rw [exec, exec, hpc, hget]
    exact ⟨(hset _ _).1, rfl⟩
  | branch op rs1 rs2 imm =>
    rw [exec, exec, hget, hget]
    split
    · exact ⟨hregs, congrArg (· + offset imm) hpc⟩
    · exact ⟨hregs, congrArg (· + 4) hpc⟩
  | load op rd rs1 imm =>
    rw [exec, exec, hget]
    by_cases hrd : rd = 0
    · simp only [State.set, if_pos hrd]
      exact ⟨hregs, congrArg (· + 4) hpc⟩
    · rw [op.eval_congr (hmem op rd rs1 imm rfl hrd)]
      exact hnext _ _
  | store op rs1 rs2 imm => exact ⟨hregs, congrArg (· + 4) hpc⟩
  | fence rd rs1 imm => exact ⟨hregs, congrArg (· + 4) hpc⟩

end

end Rv32im
