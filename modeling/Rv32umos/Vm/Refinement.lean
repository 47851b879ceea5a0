import Rv32umos.Vm.Executor
import Rv32umos.Vm.Decode
import Rv32umos.Vm.MemoryFacts

/-!
# The CPU refines RV32IM

`arch` reads the architectural state off a machine: registers, pc, and RAM, which the instruction
set reaches through the address translation `loc`. `step_refines`: a step that fetches the encoding
of an RV32IM instruction and takes no trap, followed by `advancePC`, is that instruction of
`Rv32im.exec`.

One lemma for each shape of executor says what it does to `arch` (`arch_execReg`, `arch_execLoad`,
...), one for each operation family that the value computed is the one of the instruction set
(`eval_imm`, `eval_reg`, ...); `arch_execute` puts them together over the instructions.
-/

namespace Rv32umos

open Rv32im Bytes Executor Decoder

/-- The architectural state of a machine. -/
def arch (cpu : Machine) : Rv32im.State Nat where
  regs r := cpu.regs.read r.toNat
  pc := cpu.pc
  mem := cpu.mmu.memory.byte

/-- The place in RAM of a virtual address. -/
def loc (mmu : MMU) (v : Addr) : Nat := (mmu.physical v).toNat

/-! ### Values -/

theorem boolWord_decide (p : Prop) [Decidable p] : boolWord (decide p) = if p then 1 else 0 := by
  unfold boolWord
  by_cases h : p <;> simp [h]

theorem signedLt_eq (x y : Word) : signedLt x y = decide (x.toInt < y.toInt) := rfl

theorem shiftLeft_eq (x : Word) (n : Nat) : x <<< n = ShiftOp.slli.eval x n := by
  apply BitVec.eq_of_toNat_eq
  simp [ShiftOp.eval, BitVec.toNat_shiftLeft, Nat.shiftLeft_eq]

theorem shiftRight_eq (x : Word) (n : Nat) : x >>> n = ShiftOp.srli.eval x n := by
  apply BitVec.eq_of_toNat_eq
  simp only [ShiftOp.eval, BitVec.toNat_ushiftRight, Nat.shiftRight_eq_div_pow, BitVec.toNat_ofNat]
  rw [Nat.mod_eq_of_lt (Nat.lt_of_le_of_lt (Nat.div_le_self _ _) x.isLt)]

theorem sshiftRight_eq (x : Word) (n : Nat) : x.sshiftRight n = ShiftOp.srai.eval x n := by
  have h : x.toInt >>> n = x.toInt / 2 ^ n := by
    rw [Int.shiftRight_eq_div_pow]
    norm_cast
  rw [ShiftOp.eval, ofInt, ← h, ← BitVec.toInt_sshiftRight, BitVec.ofInt_toInt]

theorem shamtR_toNat (y : Word) : (shamtR y).toNat = y.toNat % 32 := by
  have h : shamtR y = y &&& 31#32 := by
    unfold shamtR Utils.extractBits
    simp
  rw [h, BitVec.toNat_and]
  exact Nat.and_two_pow_sub_one_eq_mod y.toNat 5

/-- Bits 63 to 32 of a product, read off its low 64 bits. -/
theorem high_half (p : Int) :
    ((BitVec.ofInt 64 p >>> 32).setWidth 32 : Word) = BitVec.ofInt 32 (p / 2 ^ 32) := by
  apply BitVec.eq_of_toNat_eq
  simp only [BitVec.toNat_setWidth, BitVec.toNat_ushiftRight, BitVec.toNat_ofInt,
    Nat.shiftRight_eq_div_pow]
  omega

theorem setWidth_sshiftRight (x : BitVec 64) :
    ((x.sshiftRight 32).setWidth 32 : Word) = (x >>> 32).setWidth 32 := by
  apply BitVec.eq_of_getLsbD_eq
  intro i hi
  have h : 32 + i < 64 := by omega
  simp [hi, BitVec.getLsbD_sshiftRight, h]
  omega

theorem setWidth_eq_ofInt (x : Word) : x.setWidth 64 = BitVec.ofInt 64 x.toNat := by
  rw [BitVec.ofInt_natCast]
  apply BitVec.eq_of_toNat_eq
  rw [BitVec.toNat_setWidth, BitVec.toNat_ofNat]

theorem mul_eq (x y : Word) : x * y = RegOp.mul.eval x y := by
  simp only [RegOp.eval, ofInt, BitVec.ofInt_mul, BitVec.ofInt_toInt]

theorem mulh_eq (x y : Word) :
    ((x.signExtend 64 * y.signExtend 64).sshiftRight 32).setWidth 32 = RegOp.mulh.eval x y := by
  rw [setWidth_sshiftRight, BitVec.signExtend, BitVec.signExtend, ← BitVec.ofInt_mul, high_half]
  rfl

theorem mulhsu_eq (x y : Word) :
    ((x.signExtend 64 * y.setWidth 64).sshiftRight 32).setWidth 32 = RegOp.mulhsu.eval x y := by
  rw [setWidth_sshiftRight, BitVec.signExtend, setWidth_eq_ofInt, ← BitVec.ofInt_mul, high_half]
  rfl

theorem mulhu_eq (x y : Word) :
    ((x.setWidth 64 * y.setWidth 64) >>> 32).setWidth 32 = RegOp.mulhu.eval x y := by
  rw [setWidth_eq_ofInt, setWidth_eq_ofInt, ← BitVec.ofInt_mul, high_half]
  rfl

theorem div_eq (x y : Word) :
    (if y = 0 then -1 else if x = BitVec.intMin 32 ∧ y = -1 then x else x.sdiv y) =
      RegOp.div.eval x y := by
  simp only [RegOp.eval]
  split_ifs with h0 hov
  · rfl
  · obtain ⟨rfl, rfl⟩ := hov
    decide
  · apply BitVec.eq_of_toInt_eq
    rw [BitVec.toInt_sdiv, BitVec.toInt_ofInt]

theorem rem_eq (x y : Word) :
    (if y = 0 then x else if x = BitVec.intMin 32 ∧ y = -1 then 0 else x.srem y) =
      RegOp.rem.eval x y := by
  simp only [RegOp.eval]
  split_ifs with h0 hov
  · rfl
  · obtain ⟨rfl, rfl⟩ := hov
    decide
  · rw [← BitVec.toInt_srem, ofInt, BitVec.ofInt_toInt]

theorem divu_eq (x y : Word) :
    (if y = 0 then 0xFFFFFFFF else x / y) = RegOp.divu.eval x y := by
  simp only [RegOp.eval]
  split_ifs with h0
  · rfl
  · apply BitVec.eq_of_toNat_eq
    have hx := x.isLt
    have hle := Nat.div_le_self x.toNat y.toNat
    rw [BitVec.toNat_udiv, BitVec.toNat_ofNat, Nat.mod_eq_of_lt (by omega)]

theorem remu_eq (x y : Word) : (if y = 0 then x else x % y) = RegOp.remu.eval x y := by
  simp only [RegOp.eval]
  split_ifs with h0
  · rfl
  · apply BitVec.eq_of_toNat_eq
    have hx := x.isLt
    have hle := Nat.mod_le x.toNat y.toNat
    rw [BitVec.toNat_umod, BitVec.toNat_ofNat]
    exact (Nat.mod_eq_of_lt (by omega)).symm

theorem slt_eq (x y : Word) : boolWord (signedLt x y) = if x.toInt < y.toInt then 1 else 0 := by
  rw [signedLt_eq, boolWord_decide]

theorem sltu_eq (x y : Word) : boolWord (x < y) = if x.toNat < y.toNat then 1 else 0 :=
  boolWord_decide _

theorem sll_eq (x y : Word) : x <<< (shamtR y).toNat = RegOp.sll.eval x y := by
  rw [shiftLeft_eq, shamtR_toNat]
  rfl

theorem srl_eq (x y : Word) : x >>> (shamtR y).toNat = RegOp.srl.eval x y := by
  rw [shiftRight_eq, shamtR_toNat]
  rfl

theorem sra_eq (x y : Word) : x.sshiftRight (shamtR y).toNat = RegOp.sra.eval x y := by
  rw [sshiftRight_eq, shamtR_toNat]
  rfl

theorem bge_eq (x y : Word) : (!signedLt x y) = BranchOp.bge.taken x y := by
  simp only [signedLt_eq, BranchOp.taken, ← decide_not, Int.not_lt]

/-! ### Dispatch -/

def immExecutor : ImmOp → Machine → Word → Machine
  | .addi => execADDI
  | .slti => execSLTI
  | .sltiu => execSLTIU
  | .xori => execXORI
  | .ori => execORI
  | .andi => execANDI

def shiftExecutor : ShiftOp → Machine → Word → Machine
  | .slli => execSLLI
  | .srli => execSRLI
  | .srai => execSRAI

def regExecutor : RegOp → Machine → Word → Machine
  | .add => execADD
  | .sub => execSUB
  | .sll => execSLL
  | .slt => execSLT
  | .sltu => execSLTU
  | .xor => execXOR
  | .srl => execSRL
  | .sra => execSRA
  | .or => execOR
  | .and => execAND
  | .mul => execMUL
  | .mulh => execMULH
  | .mulhsu => execMULHSU
  | .mulhu => execMULHU
  | .div => execDIV
  | .divu => execDIVU
  | .rem => execREM
  | .remu => execREMU

def loadExecutor : LoadOp → Machine → Word → Except Halt Machine
  | .lb => execLB
  | .lh => execLH
  | .lw => execLW
  | .lbu => execLBU
  | .lhu => execLHU

def storeExecutor : StoreOp → Machine → Word → Except Halt Machine
  | .sb => execSB
  | .sh => execSH
  | .sw => execSW

def branchExecutor : BranchOp → Machine → Word → Machine
  | .beq => execBEQ
  | .bne => execBNE
  | .blt => execBLT
  | .bge => execBGE
  | .bltu => execBLTU
  | .bgeu => execBGEU

theorem immExecutor_eq (op : ImmOp) : immExecutor op = execImm op.eval := by
  cases op with
  | slti => exact congrArg execImm (funext₂ slt_eq)
  | sltiu => exact congrArg execImm (funext₂ sltu_eq)
  | _ => rfl

theorem shiftExecutor_eq (op : ShiftOp) : shiftExecutor op = execShiftImm op.eval := by
  cases op with
  | slli => exact congrArg execShiftImm (funext₂ shiftLeft_eq)
  | srli => exact congrArg execShiftImm (funext₂ shiftRight_eq)
  | srai => exact congrArg execShiftImm (funext₂ sshiftRight_eq)

theorem regExecutor_eq (op : RegOp) : regExecutor op = execReg op.eval := by
  cases op with
  | add | sub | xor | or | and => rfl
  | sll => exact congrArg execReg (funext₂ sll_eq)
  | srl => exact congrArg execReg (funext₂ srl_eq)
  | sra => exact congrArg execReg (funext₂ sra_eq)
  | slt => exact congrArg execReg (funext₂ slt_eq)
  | sltu => exact congrArg execReg (funext₂ sltu_eq)
  | mul => exact congrArg execReg (funext₂ mul_eq)
  | mulh => exact congrArg execReg (funext₂ mulh_eq)
  | mulhsu => exact congrArg execReg (funext₂ mulhsu_eq)
  | mulhu => exact congrArg execReg (funext₂ mulhu_eq)
  | div => exact congrArg execReg (funext₂ div_eq)
  | divu => exact congrArg execReg (funext₂ divu_eq)
  | rem => exact congrArg execReg (funext₂ rem_eq)
  | remu => exact congrArg execReg (funext₂ remu_eq)

theorem branchExecutor_eq (op : BranchOp) : branchExecutor op = execBranch op.taken := by
  cases op with
  | beq | bne | blt | bltu => rfl
  | bge => exact congrArg execBranch (funext₂ bge_eq)
  | bgeu => rfl

section
variable {w : Word} (cpu : Machine)

theorem execute_imm (op : ImmOp) (hop : HasField w 0 0b0010011#7) (h3 : HasField w 12 op.funct3) :
    cpu.execute w = .ok (immExecutor op cpu w) := by
  cases op <;> simp only [Machine.execute, opcode_eq hop, func3_eq h3, ImmOp.funct3] <;> rfl

theorem execute_shift (op : ShiftOp) (hop : HasField w 0 0b0010011#7)
    (h3 : HasField w 12 op.funct3) (h7 : HasField w 25 op.funct7) :
    cpu.execute w = .ok (shiftExecutor op cpu w) := by
  cases op <;>
    simp only [Machine.execute, opcode_eq hop, func3_eq h3, func7_eq h7, ShiftOp.funct3,
      ShiftOp.funct7] <;> rfl

theorem execute_reg (op : RegOp) (hop : HasField w 0 0b0110011#7)
    (h3 : HasField w 12 op.funct3) (h7 : HasField w 25 op.funct7) :
    cpu.execute w = .ok (regExecutor op cpu w) := by
  cases op <;>
    simp only [Machine.execute, opcode_eq hop, func3_eq h3, func7_eq h7, RegOp.funct3,
      RegOp.funct7] <;> rfl

theorem execute_load (op : LoadOp) (hop : HasField w 0 0b0000011#7)
    (h3 : HasField w 12 op.funct3) : cpu.execute w = loadExecutor op cpu w := by
  cases op <;> simp only [Machine.execute, opcode_eq hop, func3_eq h3, LoadOp.funct3] <;> rfl

theorem execute_store (op : StoreOp) (hop : HasField w 0 0b0100011#7)
    (h3 : HasField w 12 op.funct3) : cpu.execute w = storeExecutor op cpu w := by
  cases op <;> simp only [Machine.execute, opcode_eq hop, func3_eq h3, StoreOp.funct3] <;> rfl

theorem execute_branch (op : BranchOp) (hop : HasField w 0 0b1100011#7)
    (h3 : HasField w 12 op.funct3) : cpu.execute w = .ok (branchExecutor op cpu w) := by
  cases op <;> simp only [Machine.execute, opcode_eq hop, func3_eq h3, BranchOp.funct3] <;> rfl

theorem execute_lui (hop : HasField w 0 0b0110111#7) : cpu.execute w = .ok (execLUI cpu w) := by
  simp only [Machine.execute, opcode_eq hop]
  rfl

theorem execute_auipc (hop : HasField w 0 0b0010111#7) :
    cpu.execute w = .ok (execAUIPC cpu w) := by
  simp only [Machine.execute, opcode_eq hop]
  rfl

theorem execute_jal (hop : HasField w 0 0b1101111#7) : cpu.execute w = .ok (execJAL cpu w) := by
  simp only [Machine.execute, opcode_eq hop]
  rfl

theorem execute_jalr (hop : HasField w 0 0b1100111#7) : cpu.execute w = .ok (execJALR cpu w) := by
  simp only [Machine.execute, opcode_eq hop]
  rfl

theorem execute_fence (hop : HasField w 0 0b0001111#7) (h3 : HasField w 12 0#3) :
    cpu.execute w = .ok cpu :=
  Machine.execute_misc_mem (opcode_eq hop) (func3_eq h3)

end

/-! ### What each shape of executor does to the architectural state -/

section
variable {cpu cpu' : Machine} {w : Word} {rd rs1 rs2 : Reg} (h0 : cpu.regs.read 0 = 0)

theorem toNat_reg (r : Reg) : ((r.setWidth 32 : Word)).toNat = r.toNat := by
  rw [BitVec.toNat_setWidth, Nat.mod_eq_of_lt (by omega)]

theorem setWidth_eq_zero_iff (r : Reg) : (r.setWidth 32 : Word) = 0 ↔ r = 0 := by
  rw [← BitVec.toNat_inj, ← BitVec.toNat_inj, toNat_reg]
  rfl

include h0 in
theorem arch_get (r : Reg) : (arch cpu).get r = cpu.regs.read r.toNat := by
  unfold State.get arch
  split_ifs with hr
  · rw [hr]
    exact h0.symm
  · rfl

theorem arch_writeReg (hrd : rd ≠ 0) (v : Word) :
    arch (cpu.writeReg rd.toNat v) = (arch cpu).set rd v := by
  have hne : rd.toNat ≠ 0 := fun h => hrd (BitVec.eq_of_toNat_eq h)
  rw [State.set, if_neg hrd]
  refine congrArg (fun f => ({ regs := f, pc := cpu.pc, mem := cpu.mmu.memory.byte } : State Nat)) ?_
  funext r
  by_cases hr : r = rd
  · subst hr
    rw [Function.update_self]
    exact RegFile.read_write_self _ hne v
  · have hne' : r.toNat ≠ rd.toNat := fun h => hr (BitVec.eq_of_toNat_eq h)
    rw [Function.update_of_ne hr]
    exact RegFile.read_write_ne _ hne' v

theorem arch_writeResult (hrd : Decoder.rd w = rd.setWidth 32) (v : Word) :
    arch (writeResult cpu w v) = (arch cpu).set rd v := by
  unfold writeResult
  rw [hrd, toNat_reg]
  by_cases hr : rd = 0
  · rw [if_pos ((setWidth_eq_zero_iff rd).2 hr), State.set, if_pos hr]
  · rw [if_neg (mt (setWidth_eq_zero_iff rd).1 hr), arch_writeReg hr]

theorem arch_advancePC (cpu : Machine) : arch cpu.advancePC = (arch cpu).next := rfl

/-- The pc convention: a target minus 4, then `advancePC`. -/
theorem arch_jump (cpu : Machine) (target : Addr) :
    arch { cpu with pc := target - 4 }.advancePC = { arch cpu with pc := target } := by
  simp only [arch, Machine.advancePC, BitVec.sub_add_cancel]

include h0 in
theorem arch_execImm {f : Word → Word → Word} {imm : Word} (hrd : Decoder.rd w = rd.setWidth 32)
    (hrs1 : Decoder.rs1 w = rs1.setWidth 32) (himm : immI w = imm) :
    arch (execImm f cpu w) = (arch cpu).set rd (f ((arch cpu).get rs1) imm) := by
  rw [execImm, hrs1, toNat_reg, himm, arch_get h0, arch_writeResult hrd]

include h0 in
theorem arch_execShiftImm {f : Word → Nat → Word} {shamt : BitVec 5}
    (hrd : Decoder.rd w = rd.setWidth 32) (hrs1 : Decoder.rs1 w = rs1.setWidth 32)
    (hshamt : shamtI w = shamt.setWidth 32) :
    arch (execShiftImm f cpu w) = (arch cpu).set rd (f ((arch cpu).get rs1) shamt.toNat) := by
  rw [execShiftImm, hrs1, hshamt, toNat_reg, toNat_reg, arch_get h0, arch_writeResult hrd]

include h0 in
theorem arch_execReg {f : Word → Word → Word} (hrd : Decoder.rd w = rd.setWidth 32)
    (hrs1 : Decoder.rs1 w = rs1.setWidth 32) (hrs2 : Decoder.rs2 w = rs2.setWidth 32) :
    arch (execReg f cpu w) =
      (arch cpu).set rd (f ((arch cpu).get rs1) ((arch cpu).get rs2)) := by
  rw [execReg, hrs1, hrs2, toNat_reg, toNat_reg, arch_get h0, arch_get h0, arch_writeResult hrd]

include h0 in
theorem arch_execBranch {taken : Word → Word → Bool} {target : Word}
    (hrs1 : Decoder.rs1 w = rs1.setWidth 32) (hrs2 : Decoder.rs2 w = rs2.setWidth 32)
    (himm : immB w = target) :
    arch (execBranch taken cpu w).advancePC =
      if taken ((arch cpu).get rs1) ((arch cpu).get rs2) then
        { arch cpu with pc := (arch cpu).pc + target }
      else (arch cpu).next := by
  rw [execBranch, hrs1, hrs2, toNat_reg, toNat_reg, himm, arch_get h0, arch_get h0]
  have hpc : cpu.pc - 4 + target + 4 = cpu.pc + target := by bv_omega
  split_ifs
  · simp only [arch, Machine.advancePC, hpc]
  · rfl

end

/-! ### Loads and stores -/

def loadExt : LoadOp → Word → Word
  | .lb => fun val => (val.setWidth 8).signExtend 32
  | .lh => fun val => (val.setWidth 16).signExtend 32
  | .lw => fun val => val
  | .lbu => fun val => val &&& 0xFF
  | .lhu => fun val => val &&& 0xFFFF

theorem loadExecutor_eq (op : LoadOp) : loadExecutor op = execLoad op.size (loadExt op) := by
  cases op <;> rfl

theorem storeExecutor_eq (op : StoreOp) : storeExecutor op = execStore op.size := by
  cases op <;> rfl

theorem assemble_one (f : Nat → Bytes.Byte) : assemble f 1 = (f 0).setWidth 32 := by
  simp [assemble]

theorem assemble_two (f : Nat → Bytes.Byte) : assemble f 2 = (f 1 ++ f 0).setWidth 32 := by
  apply BitVec.eq_of_getLsbD_eq
  intro i hi
  simp only [assemble, BitVec.getLsbD_or, BitVec.getLsbD_shiftLeft, BitVec.getLsbD_setWidth,
    BitVec.getLsbD_append]
  interval_cases i <;> simp

theorem assemble_four (f : Nat → Bytes.Byte) : assemble f 4 = f 3 ++ f 2 ++ f 1 ++ f 0 := by
  apply BitVec.eq_of_getLsbD_eq
  intro i hi
  simp only [assemble, BitVec.getLsbD_or, BitVec.getLsbD_shiftLeft, BitVec.getLsbD_setWidth,
    BitVec.getLsbD_append]
  interval_cases i <;> simp

theorem setWidth_and_ff (x : BitVec 8) : (x.setWidth 32 : Word) &&& 0xFF = x.setWidth 32 := by
  apply BitVec.eq_of_toNat_eq
  rw [BitVec.toNat_and, BitVec.toNat_setWidth, Nat.mod_eq_of_lt (by omega)]
  exact (Nat.and_two_pow_sub_one_eq_mod x.toNat 8).trans (Nat.mod_eq_of_lt x.isLt)

theorem setWidth_and_ffff (x : BitVec 16) : (x.setWidth 32 : Word) &&& 0xFFFF = x.setWidth 32 := by
  apply BitVec.eq_of_toNat_eq
  rw [BitVec.toNat_and, BitVec.toNat_setWidth, Nat.mod_eq_of_lt (by omega)]
  exact (Nat.and_two_pow_sub_one_eq_mod x.toNat 16).trans (Nat.mod_eq_of_lt x.isLt)

theorem loadExt_assemble (op : LoadOp) (f : Nat → Bytes.Byte) :
    loadExt op (assemble f op.size) = op.eval f := by
  cases op with
  | lb => simp only [loadExt, LoadOp.size, LoadOp.eval, assemble_one,
      BitVec.setWidth_setWidth_of_le _ (show 8 ≤ 32 by decide), BitVec.setWidth_eq]
  | lh => simp only [loadExt, LoadOp.size, LoadOp.eval, assemble_two,
      BitVec.setWidth_setWidth_of_le _ (show 16 ≤ 32 by decide), BitVec.setWidth_eq]
  | lw => exact assemble_four f
  | lbu => exact (congrArg (· &&& 0xFF#32) (assemble_one f)).trans (setWidth_and_ff _)
  | lhu => exact (congrArg (· &&& 0xFFFF#32) (assemble_two f)).trans (setWidth_and_ffff _)

theorem loc_add {mmu : MMU} {v : Addr} {i : Nat} (h : v.toNat % 4096 + i < 4096) :
    loc mmu (v + BitVec.ofNat 32 i) = loc mmu v + i := MMU.physical_add h

/-- A store inside one page overlays consecutive bytes of RAM. -/
theorem storeBytes_eq {mmu : MMU} {v : Addr} (value : Word) {n : Nat}
    (h : v.toNat % 4096 + n ≤ 4096) (mem : Nat → Bytes.Byte) :
    storeBytes (loc mmu) v value n mem = overlay mem (loc mmu v) n (byteAt value) := by
  induction n with
  | zero => rw [overlay_zero]; rfl
  | succ n ih =>
    rw [storeBytes, ih (by omega), loc_add (by omega)]
    exact update_overlay mem (loc mmu v) n (byteAt value)

/-- The bytes of an access that translation allows are bytes of RAM. -/
def InRam (mmu : MMU) (a : Access) (v : Addr) (n : Nat) : Prop :=
  mmu.accessible a v = true → ∀ k < n, loc mmu (v + BitVec.ofNat 32 k) < MEMORY_SIZE

theorem InRam.fits {mmu : MMU} {a : Access} {v : Addr} {n : Nat} (h : InRam mmu a v n)
    (hacc : mmu.accessible a v = true) (hn : 0 < n) (hpage : v.toNat % 4096 + n ≤ 4096) :
    (mmu.physical v).toNat + n ≤ MEMORY_SIZE := by
  have hlast := h hacc (n - 1) (by omega)
  rw [loc_add (by omega), loc] at hlast
  omega

section
variable {cpu cpu' : Machine} {v : Addr} {size : Nat} {value : Word}
  (hfault : cpu.mmu.fault = false) (hsize : 0 < size) (hpage : v.toNat % 4096 + size ≤ 4096)
include hfault hsize hpage

theorem loadVirtualMemory_ok (h : cpu.loadVirtualMemory v size = .ok (value, cpu')) :
    (cpu.mmu.accessible .load v = true ∧ cpu' = cpu.touch .load v ∧
      value = assemble (fun i => cpu.mmu.memory.byte (loc cpu.mmu (v + BitVec.ofNat 32 i))) size) ∨
    cpu' = cpu.pageFault v := by
  rw [Machine.loadVirtualMemory_eq hfault] at h
  by_cases hacc : cpu.mmu.accessible .load v = true
  · rw [if_pos hacc] at h
    cases hload : cpu.mmu.memory.load (cpu.mmu.physical v) size with
    | error e => rw [hload] at h; cases h
    | ok val =>
      rw [hload] at h
      cases h
      refine .inl ⟨hacc, rfl, (Memory.load_ok hsize hload).2.trans (assemble_congr fun i hi => ?_)⟩
      rw [loc_add (by omega)]
      rfl
  · rw [if_neg hacc] at h
    cases h
    exact .inr rfl

theorem loadVirtualMemory_returns (hram : InRam cpu.mmu .load v size) :
    ∃ r, cpu.loadVirtualMemory v size = .ok r := by
  rw [Machine.loadVirtualMemory_eq hfault]
  by_cases hacc : cpu.mmu.accessible .load v = true
  · rw [if_pos hacc, Memory.load_of_fits _ hsize (hram.fits hacc hsize hpage)]
    exact ⟨_, rfl⟩
  · rw [if_neg hacc]
    exact ⟨_, rfl⟩

theorem storeVirtualMemory_ok (h : cpu.storeVirtualMemory v size value = .ok cpu') :
    (cpu.regs = cpu'.regs ∧ arch cpu' =
      { arch cpu with mem := storeBytes (loc cpu.mmu) v value size (arch cpu).mem }) ∨
    cpu' = cpu.pageFault v := by
  rw [Machine.storeVirtualMemory_eq hfault] at h
  by_cases hacc : cpu.mmu.accessible .store v = true
  · rw [if_pos hacc] at h
    cases hstore : cpu.mmu.memory.store (cpu.mmu.physical v) size value with
    | error e => rw [hstore] at h; cases h
    | ok memory =>
      rw [hstore] at h
      cases h
      obtain ⟨-, rfl⟩ := Memory.store_ok hsize hstore
      rw [storeBytes_eq value hpage]
      exact .inl ⟨rfl, rfl⟩
  · rw [if_neg hacc] at h
    cases h
    exact .inr rfl

theorem storeVirtualMemory_returns (value : Word) (hram : InRam cpu.mmu .store v size) :
    ∃ r, cpu.storeVirtualMemory v size value = .ok r := by
  rw [Machine.storeVirtualMemory_eq hfault]
  by_cases hacc : cpu.mmu.accessible .store v = true
  · rw [if_pos hacc, Memory.store_of_fits _ hsize value (hram.fits hacc hsize hpage)]
    exact ⟨_, rfl⟩
  · rw [if_neg hacc]
    exact ⟨_, rfl⟩

omit hsize hpage in
theorem fetch_ok (hpc : cpu.pc.toNat % 4 = 0) (h : cpu.fetch = .ok (value, cpu')) :
    (cpu.mmu.accessible .fetch cpu.pc = true ∧ cpu' = cpu.touch .fetch cpu.pc ∧
      value = assemble
        (fun i => cpu.mmu.memory.byte (loc cpu.mmu (cpu.pc + BitVec.ofNat 32 i))) 4) ∨
    cpu' = cpu.pageFault cpu.pc := by
  rw [Machine.fetch_eq hfault] at h
  by_cases hacc : cpu.mmu.accessible .fetch cpu.pc = true
  · rw [if_pos hacc] at h
    cases hload : cpu.mmu.memory.load (cpu.mmu.physical cpu.pc) 4 with
    | error e => rw [hload] at h; cases h
    | ok val =>
      rw [hload] at h
      cases h
      refine .inl ⟨hacc, rfl,
        (Memory.load_ok (by decide) hload).2.trans (assemble_congr fun i hi => ?_)⟩
      rw [loc_add (by omega)]
      rfl
  · rw [if_neg hacc] at h
    cases h
    exact .inr rfl

omit hsize hpage in
theorem fetch_returns (hpc : cpu.pc.toNat % 4 = 0) (hram : InRam cpu.mmu .fetch cpu.pc 4) :
    ∃ r, cpu.fetch = .ok r := by
  rw [Machine.fetch_eq hfault]
  by_cases hacc : cpu.mmu.accessible .fetch cpu.pc = true
  · rw [if_pos hacc, Memory.load_of_fits _ (by decide) (hram.fits hacc (by decide) (by omega))]
    exact ⟨_, rfl⟩
  · rw [if_neg hacc]
    exact ⟨_, rfl⟩

end

/-- A fault flag left set by an earlier access makes every fetch trap. -/
theorem fetch_of_fault {cpu : Machine} (hfault : cpu.mmu.fault = true) :
    ∃ value cpu', cpu.fetch = .ok (value, cpu') ∧ cpu'.hasTrap = true := by
  have htr := MMU.translate_eq cpu.mmu .fetch cpu.pc
  simp only [Access.isWrite, Access.isExec] at htr
  have hset : (cpu.mmu.translate cpu.pc false true).2.fault = true := by
    rw [htr]
    split_ifs
    · rw [MMU.touch_fault, hfault]
    · rfl
  refine ⟨0, { cpu with mmu := (cpu.mmu.translate cpu.pc false true).2 }.latchFault, ?_, ?_⟩
  · simp only [Machine.fetch, MMU.fetch, hset, if_true]
    rfl
  · simp only [Machine.latchFault, MMU.hasFault, hset, if_true]
    rfl

section
variable {cpu cpu' : Machine} {w : Word} {rd rs1 rs2 : Reg} {imm : Word} {size : Nat}
  (h0 : cpu.regs.read 0 = 0) (hfault : cpu.mmu.fault = false) (hsize : 0 < size)
  (hrs1 : Decoder.rs1 w = rs1.setWidth 32)
  (hpage : ((arch cpu).get rs1 + imm).toNat % 4096 + size ≤ 4096)

theorem writeReg_read_zero (cpu : Machine) (r : Nat) (v : Word) :
    (cpu.writeReg r v).regs.read 0 = cpu.regs.read 0 := by
  by_cases hr : r = 0
  · rw [hr]; rfl
  · exact RegFile.read_write_ne _ (Ne.symm hr) v

theorem writeResult_read_zero (cpu : Machine) (w v : Word) :
    (writeResult cpu w v).regs.read 0 = cpu.regs.read 0 := by
  unfold writeResult
  split
  · rfl
  · exact writeReg_read_zero cpu _ v

theorem pageFault_hasTrap (cpu : Machine) (v : Addr) : (cpu.pageFault v).hasTrap = true := rfl

theorem State.set_pc {L : Type} (s : State L) (r : Reg) (v : Word) : (s.set r v).pc = s.pc := by
  unfold State.set; split <;> rfl

include h0 hfault hsize hrs1 hpage

theorem arch_execLoad {ext : Word → Word} (htrap : cpu.hasTrap = false)
    (hrd : Decoder.rd w = rd.setWidth 32) (himm : immI w = imm)
    (h : execLoad size ext cpu w = .ok cpu') (htrap' : cpu'.hasTrap = false) :
    arch cpu' = (arch cpu).set rd (ext (assemble (fun i => (arch cpu).mem
      (loc cpu.mmu ((arch cpu).get rs1 + imm + BitVec.ofNat 32 i))) size)) ∧
    cpu'.regs.read 0 = 0 := by
  unfold execLoad at h
  rw [hrd, hrs1, himm, toNat_reg, toNat_reg] at h
  rw [arch_get h0] at hpage ⊢
  by_cases hr : rd = 0
  · rw [if_pos ((setWidth_eq_zero_iff rd).2 hr)] at h
    cases h
    exact ⟨(if_pos hr).symm, h0⟩
  · rw [if_neg (mt (setWidth_eq_zero_iff rd).1 hr)] at h
    obtain ⟨⟨value, cpu₁⟩, hload, h⟩ := bind_eq_ok.1 h
    rcases loadVirtualMemory_ok hfault hsize hpage hload with ⟨-, rfl, rfl⟩ | rfl
    · have hno : (cpu.touch .load (cpu.regs.read rs1.toNat + imm)).hasTrap = false := htrap
      simp only [hno, if_neg Bool.false_ne_true] at h
      cases h
      refine ⟨(arch_writeReg hr _).trans ?_, (writeReg_read_zero _ _ _).trans h0⟩
      simp only [arch, Machine.touch, MMU.touch_memory]
    · simp only [pageFault_hasTrap, if_true] at h
      cases h
      cases htrap'

theorem arch_execStore (hrs2 : Decoder.rs2 w = rs2.setWidth 32) (himm : immS w = imm)
    (h : execStore size cpu w = .ok cpu') (htrap' : cpu'.hasTrap = false) :
    arch cpu' = { arch cpu with
      mem := storeBytes (loc cpu.mmu) ((arch cpu).get rs1 + imm) ((arch cpu).get rs2) size
        (arch cpu).mem } ∧
    cpu'.regs.read 0 = 0 := by
  unfold execStore at h
  simp only [hrs1, hrs2, himm, toNat_reg] at h
  rw [arch_get h0] at hpage
  rw [arch_get h0, arch_get h0]
  rcases storeVirtualMemory_ok hfault hsize hpage h with ⟨hregs, harch⟩ | rfl
  · exact ⟨harch, hregs ▸ h0⟩
  · cases htrap'

end

/-! ### One instruction -/

/-- The data access of `i`, if it has one, lies inside one page. -/
def InPage (cpu : Machine) (i : Instr) : Prop :=
  ∀ ea n, i.access (arch cpu) = some (ea, n) → ea.toNat % 4096 + n ≤ 4096

/-- The data access of `i`, where translation allows it, reaches RAM only. -/
def DataInRam (cpu : Machine) (i : Instr) : Prop :=
  ∀ ea n, i.access (arch cpu) = some (ea, n) →
    InRam cpu.mmu .load ea n ∧ InRam cpu.mmu .store ea n

section
variable {cpu cpu' : Machine} (i : Instr) (h0 : cpu.regs.read 0 = 0)
  (hfault : cpu.mmu.fault = false) (hpage : InPage cpu i)
include h0 hfault hpage

theorem execute_refines (htrap : cpu.hasTrap = false) (h : cpu.execute (encode i) = .ok cpu')
    (htrap' : cpu'.hasTrap = false) :
    arch cpu'.advancePC = exec (loc cpu.mmu) i (arch cpu) ∧ cpu'.regs.read 0 = 0 := by
  cases i with
  | lui rd imm =>
    obtain ⟨hop, hrd, himm⟩ := encodeU_fields 0b0110111 rd imm
    cases (execute_lui cpu hop).symm.trans h
    refine ⟨?_, (writeResult_read_zero _ _ _).trans h0⟩
    rw [arch_advancePC, execLUI, arch_writeResult (rd_eq hrd), immU_eq himm, exec]
  | auipc rd imm =>
    obtain ⟨hop, hrd, himm⟩ := encodeU_fields 0b0010111 rd imm
    cases (execute_auipc cpu hop).symm.trans h
    refine ⟨?_, (writeResult_read_zero _ _ _).trans h0⟩
    rw [arch_advancePC, execAUIPC, arch_writeResult (rd_eq hrd), immU_eq himm, exec]
    rfl
  | opImm op rd rs1 imm =>
    obtain ⟨hop, hrd, hf3, hrs1, himm⟩ := encodeI_fields 0b0010011 rs1 rd op.funct3 imm
    cases (execute_imm cpu op hop hf3).symm.trans h
    rw [immExecutor_eq]
    refine ⟨?_, (writeResult_read_zero _ _ _).trans h0⟩
    rw [arch_advancePC, arch_execImm h0 (rd_eq hrd) (rs1_eq hrs1) (immI_eq himm), exec]
  | shift op rd rs1 shamt =>
    obtain ⟨hop, hrd, hf3, hrs1, hshamt, hf7⟩ :=
      encodeR_fields op.funct7 0b0010011 shamt rs1 rd op.funct3
    cases (execute_shift cpu op hop hf3 hf7).symm.trans h
    rw [shiftExecutor_eq]
    refine ⟨?_, (writeResult_read_zero _ _ _).trans h0⟩
    rw [arch_advancePC, arch_execShiftImm h0 (rd_eq hrd) (rs1_eq hrs1) (rs2_eq hshamt), exec]
  | opReg op rd rs1 rs2 =>
    obtain ⟨hop, hrd, hf3, hrs1, hrs2, hf7⟩ :=
      encodeR_fields op.funct7 0b0110011 rs2 rs1 rd op.funct3
    cases (execute_reg cpu op hop hf3 hf7).symm.trans h
    rw [regExecutor_eq]
    refine ⟨?_, (writeResult_read_zero _ _ _).trans h0⟩
    rw [arch_advancePC, arch_execReg h0 (rd_eq hrd) (rs1_eq hrs1) (rs2_eq hrs2), exec]
  | jal rd imm =>
    obtain ⟨hop, hrd, h12, h11, hlow, h20⟩ := encodeJ_fields 0b1101111 rd imm
    cases (execute_jal cpu hop).symm.trans h
    refine ⟨?_, (writeResult_read_zero _ _ _).trans h0⟩
    rw [execJAL, immJ_eq h12 h11 hlow h20, arch_jump, arch_writeResult (rd_eq hrd), exec]
    rfl
  | jalr rd rs1 imm =>
    obtain ⟨hop, hrd, -, hrs1, himm⟩ := encodeI_fields 0b1100111 rs1 rd 0 imm
    cases (execute_jalr cpu hop).symm.trans h
    refine ⟨?_, (writeResult_read_zero _ _ _).trans h0⟩
    rw [execJALR, rs1_eq hrs1, immI_eq himm, arch_jump, arch_writeResult (rd_eq hrd), toNat_reg,
      exec, arch_get h0]
    rfl
  | branch op rs1 rs2 imm =>
    obtain ⟨hop, h11, hlow, hf3, hrs1, hrs2, hmid, h12⟩ :=
      encodeB_fields 0b1100011 rs2 rs1 op.funct3 imm
    cases (execute_branch cpu op hop hf3).symm.trans h
    rw [branchExecutor_eq]
    refine ⟨arch_execBranch h0 (rs1_eq hrs1) (rs2_eq hrs2) (immB_eq h11 hlow hmid h12), ?_⟩
    unfold execBranch
    split
    · exact h0
    · exact h0
  | load op rd rs1 imm =>
    obtain ⟨hop, hrd, hf3, hrs1, himm⟩ := encodeI_fields 0b0000011 rs1 rd op.funct3 imm
    have hload := (execute_load cpu op hop hf3).symm.trans h
    rw [loadExecutor_eq] at hload
    obtain ⟨harch, hzero⟩ := arch_execLoad h0 hfault op.size_pos (rs1_eq hrs1)
      (hpage _ _ rfl) htrap (rd_eq hrd) (immI_eq himm) hload htrap'
    refine ⟨?_, hzero⟩
    rw [arch_advancePC, harch, loadExt_assemble, exec]
  | store op rs1 rs2 imm =>
    obtain ⟨hop, hlow, hf3, hrs1, hrs2, hhigh⟩ :=
      encodeR_fields (imm.extractLsb' 5 7) 0b0100011 rs2 rs1 (imm.extractLsb' 0 5) op.funct3
    have hstore := (execute_store cpu op hop hf3).symm.trans h
    rw [storeExecutor_eq] at hstore
    obtain ⟨harch, hzero⟩ := arch_execStore h0 hfault op.size_pos (rs1_eq hrs1)
      (hpage _ _ rfl) (rs2_eq hrs2) (immS_eq hlow hhigh) hstore htrap'
    refine ⟨?_, hzero⟩
    rw [arch_advancePC, harch, exec]
    rfl
  | fence rd rs1 imm =>
    obtain ⟨hop, -, hf3, -, -⟩ := encodeI_fields 0b0001111 rs1 rd 0 imm
    cases (execute_fence cpu hop hf3).symm.trans h
    exact ⟨rfl, h0⟩

theorem execute_returns (hram : DataInRam cpu i) : ∃ cpu', cpu.execute (encode i) = .ok cpu' := by
  cases i with
  | lui rd imm => exact ⟨_, execute_lui cpu (encodeU_fields 0b0110111 rd imm).1⟩
  | auipc rd imm => exact ⟨_, execute_auipc cpu (encodeU_fields 0b0010111 rd imm).1⟩
  | opImm op rd rs1 imm =>
    obtain ⟨hop, -, hf3, -, -⟩ := encodeI_fields 0b0010011 rs1 rd op.funct3 imm
    exact ⟨_, execute_imm cpu op hop hf3⟩
  | shift op rd rs1 shamt =>
    obtain ⟨hop, -, hf3, -, -, hf7⟩ := encodeR_fields op.funct7 0b0010011 shamt rs1 rd op.funct3
    exact ⟨_, execute_shift cpu op hop hf3 hf7⟩
  | opReg op rd rs1 rs2 =>
    obtain ⟨hop, -, hf3, -, -, hf7⟩ := encodeR_fields op.funct7 0b0110011 rs2 rs1 rd op.funct3
    exact ⟨_, execute_reg cpu op hop hf3 hf7⟩
  | jal rd imm => exact ⟨_, execute_jal cpu (encodeJ_fields 0b1101111 rd imm).1⟩
  | jalr rd rs1 imm => exact ⟨_, execute_jalr cpu (encodeI_fields 0b1100111 rs1 rd 0 imm).1⟩
  | branch op rs1 rs2 imm =>
    obtain ⟨hop, -, -, hf3, -⟩ := encodeB_fields 0b1100011 rs2 rs1 op.funct3 imm
    exact ⟨_, execute_branch cpu op hop hf3⟩
  | load op rd rs1 imm =>
    obtain ⟨hop, -, hf3, hrs1, himm⟩ := encodeI_fields 0b0000011 rs1 rd op.funct3 imm
    rw [encode, execute_load cpu op hop hf3, loadExecutor_eq, execLoad, rs1_eq hrs1,
      immI_eq himm, toNat_reg, ← arch_get h0]
    obtain ⟨⟨value, cpu₁⟩, hload⟩ :=
      loadVirtualMemory_returns hfault op.size_pos (hpage _ _ rfl) (hram _ _ rfl).1
    simp only [hload]
    split_ifs
    · exact ⟨_, rfl⟩
    · by_cases htrap₁ : cpu₁.hasTrap = true
      · exact ⟨cpu₁, if_pos htrap₁⟩
      · exact ⟨_, if_neg htrap₁⟩
  | store op rs1 rs2 imm =>
    obtain ⟨hop, hlow, hf3, hrs1, -, hhigh⟩ :=
      encodeR_fields (imm.extractLsb' 5 7) 0b0100011 rs2 rs1 (imm.extractLsb' 0 5) op.funct3
    rw [encode, encodeS, execute_store cpu op hop hf3, storeExecutor_eq, execStore, rs1_eq hrs1,
      immS_eq hlow hhigh, toNat_reg, ← arch_get h0]
    exact storeVirtualMemory_returns hfault op.size_pos (hpage _ _ rfl) _ (hram _ _ rfl).2
  | fence rd rs1 imm =>
    obtain ⟨hop, -, hf3, -, -⟩ := encodeI_fields 0b0001111 rs1 rd 0 imm
    exact ⟨_, execute_fence cpu hop hf3⟩

end

/-- The word that the four bytes at the pc hold. -/
def fetched (cpu : Machine) : Word :=
  assemble (fun i => cpu.mmu.memory.byte (loc cpu.mmu (cpu.pc + BitVec.ofNat 32 i))) 4

theorem step_of_fetch {cpu cpu₁ : Machine} {value : Word}
    (h : cpu.clearTrap.fetch = .ok (value, cpu₁)) :
    cpu.step = if cpu₁.hasTrap then .ok cpu₁ else cpu₁.execute value := by
  rw [Machine.step, h]
  rfl

theorem arch_touch (cpu : Machine) (a : Access) (v : Addr) : arch (cpu.touch a v) = arch cpu := by
  simp only [arch, Machine.touch, MMU.touch_memory]

section
variable {cpu : Machine} {a : Access} {v : Addr} (hacc : cpu.mmu.accessible a v = true)
include hacc

theorem loc_touch : loc (cpu.touch a v).mmu = loc cpu.mmu :=
  funext fun w => congrArg BitVec.toNat (MMU.touch_physical hacc w)

theorem dataInRam_touch {i : Instr} (h : DataInRam cpu i) : DataInRam (cpu.touch a v) i := by
  intro ea n haccess
  rw [arch_touch] at haccess
  unfold InRam
  rw [loc_touch hacc]
  obtain ⟨hload, hstore⟩ := h ea n haccess
  refine ⟨fun h => hload ?_, fun h => hstore ?_⟩
  · rwa [← MMU.touch_accessible hacc]
  · rwa [← MMU.touch_accessible hacc]

end

/-- The CPU refines RV32IM: a step that takes no trap, followed by `advancePC`, is one instruction
of the specification, and x0 stays 0. The second part says that the step returns, when what
translation allows lies in RAM. -/
theorem step_refines (cpu : Machine) (i : Instr) (h0 : cpu.regs.read 0 = 0)
    (hpc : cpu.pc.toNat % 4 = 0) (hfetch : fetched cpu = encode i) (hpage : InPage cpu i) :
    (∀ cpu', cpu.step = .ok cpu' → cpu'.hasTrap = false →
      arch cpu'.advancePC = exec (loc cpu.mmu) i (arch cpu) ∧ cpu'.regs.read 0 = 0) ∧
    (InRam cpu.mmu .fetch cpu.pc 4 → DataInRam cpu i → ∃ cpu', cpu.step = .ok cpu') := by
  rcases hfault : cpu.mmu.fault with _ | _
  · -- the fetch translates the pc; the executed machine differs in page table bits only
    let cpu₀ := cpu.clearTrap
    let cpu₁ := cpu₀.touch .fetch cpu.pc
    have hclear : cpu₀.mmu.fault = false := hfault
    have hfault₁ : cpu₁.mmu.fault = false := (MMU.touch_fault _ _ _).trans hfault
    have harch₁ : arch cpu₁ = arch cpu := arch_touch cpu₀ .fetch cpu.pc
    have hpage₁ : InPage cpu₁ i := fun ea n haccess => hpage ea n (harch₁ ▸ haccess)
    have h0₁ : cpu₁.regs.read 0 = 0 := h0
    constructor
    · intro cpu' hstep htrap'
      obtain ⟨⟨value, cpu₂⟩, hfetch₂, -⟩ := bind_eq_ok.1 hstep
      rw [step_of_fetch hfetch₂] at hstep
      rcases fetch_ok hclear hpc hfetch₂ with ⟨hacc, rfl, rfl⟩ | rfl
      · have hexec : cpu₁.execute (fetched cpu) = .ok cpu' := hstep
        rw [hfetch] at hexec
        obtain ⟨harch, hzero⟩ := execute_refines i h0₁ hfault₁ hpage₁ rfl hexec htrap'
        have hloc : loc cpu₁.mmu = loc cpu.mmu := loc_touch hacc
        rw [harch₁, hloc] at harch
        exact ⟨harch, hzero⟩
      · cases hstep
        cases htrap'
    · intro hramPc hramData
      obtain ⟨⟨value, cpu₂⟩, hfetch₂⟩ := fetch_returns hclear hpc hramPc
      rw [step_of_fetch hfetch₂]
      rcases fetch_ok hclear hpc hfetch₂ with ⟨hacc, rfl, rfl⟩ | rfl
      · obtain ⟨cpu', hexec⟩ :=
          execute_returns i h0₁ hfault₁ hpage₁ (dataInRam_touch hacc hramData)
        rw [← hfetch] at hexec
        exact ⟨cpu', hexec⟩
      · exact ⟨_, rfl⟩
  · have hfault₀ : cpu.clearTrap.mmu.fault = true := hfault
    obtain ⟨value, cpu₁, hfetch₁, htrap₁⟩ := fetch_of_fault hfault₀
    have hstep : cpu.step = .ok cpu₁ := (step_of_fetch hfetch₁).trans (if_pos htrap₁)
    refine ⟨fun cpu' h htrap' => ?_, fun _ _ => ⟨cpu₁, hstep⟩⟩
    cases hstep.symm.trans h
    rw [htrap₁] at htrap'
    cases htrap'

/-- A machine about to execute `lw x5, 8(x6)` from frame 3, with x6 in a page of frame 15. -/
def loadWordMachine : Machine where
  regs := ⟨fun r => if r = 6 then 0x1FF0 else 0⟩
  mmu :=
    { memory := ⟨fun a => if a < 0x3004 then byteAt (encode (.load .lw 5 6 8)) (a - 0x3000) else 7⟩
      currentTable := some ((PageTable.empty.set 0 { ppn := 3, valid := true, canExecute := true }).set
        1 { ppn := 15, valid := true, canRead := true })
      vmEnabled := true, fault := false, faultAddr := 0 }
  pc := 0
  trap := {}

theorem step_refines_loadWord :
    (∀ cpu', loadWordMachine.step = .ok cpu' → cpu'.hasTrap = false →
      arch cpu'.advancePC =
        exec (loc loadWordMachine.mmu) (.load .lw 5 6 8) (arch loadWordMachine) ∧
      cpu'.regs.read 0 = 0) ∧
    (InRam loadWordMachine.mmu .fetch loadWordMachine.pc 4 →
      DataInRam loadWordMachine (.load .lw 5 6 8) → ∃ cpu', loadWordMachine.step = .ok cpu') :=
  step_refines loadWordMachine (.load .lw 5 6 8) rfl rfl (by decide) (by
    rintro ea n ⟨⟩
    decide)

example : loadWordMachine.step.toOption.map (fun cpu => (cpu.hasTrap, cpu.regs.read 5)) =
    some (false, 0x07070707) := by decide

end Rv32umos
