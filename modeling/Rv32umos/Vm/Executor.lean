import Rv32umos.Vm.Decoder
import Rv32umos.Vm.Machine

/-!
# Executing one instruction

`rv32vm/Executor.cpp` and `Machine::execute` / `Machine::step`. Executors of one shape (a register
computed from a register and an immediate, a load, a branch, ...) are one definition applied to
what the executor computes.

The main loop adds 4 to the pc after every instruction that does not trap, so jumps and branches
set the pc to their target minus 4.
-/

namespace Rv32umos

/-- The signed comparison of two `int32_t` casts. -/
def signedLt (a b : Word) : Bool := a.slt b

def boolWord (b : Bool) : Word := if b then 1 else 0

namespace Executor

open Decoder

/-- `if (rd == 0) return; ... cpu.regs.write(rd, result)`. -/
def writeResult (cpu : Machine) (instr : Word) (result : Word) : Machine :=
  if rd instr = 0 then cpu else cpu.writeReg (rd instr).toNat result

/-- The shape of the immediate executors: `rd := f regs[rs1] immI`. -/
def execImm (f : Word → Word → Word) (cpu : Machine) (instr : Word) : Machine :=
  writeResult cpu instr (f (cpu.regs.read (rs1 instr).toNat) (immI instr))

/-- The shape of the immediate shifts: `rd := f regs[rs1] shamtI`. -/
def execShiftImm (f : Word → Nat → Word) (cpu : Machine) (instr : Word) : Machine :=
  writeResult cpu instr (f (cpu.regs.read (rs1 instr).toNat) (shamtI instr).toNat)

/-- The shape of the register executors: `rd := f regs[rs1] regs[rs2]`. -/
def execReg (f : Word → Word → Word) (cpu : Machine) (instr : Word) : Machine :=
  writeResult cpu instr (f (cpu.regs.read (rs1 instr).toNat) (cpu.regs.read (rs2 instr).toNat))

/-- The shape of the loads: `rd := ext (size bytes at regs[rs1] + immI)`, nothing when `rd` is 0. -/
def execLoad (size : Nat) (ext : Word → Word) (cpu : Machine) (instr : Word) :
    Except Halt Machine :=
  if rd instr = 0 then .ok cpu
  else do
    let addr := cpu.regs.read (rs1 instr).toNat + immI instr
    let (val, cpu) ← cpu.loadVirtualMemory addr size
    if cpu.hasTrap then .ok cpu
    else .ok (cpu.writeReg (rd instr).toNat (ext val))

/-- The shape of the stores: `size` bytes of `regs[rs2]` to `regs[rs1] + immS`. -/
def execStore (size : Nat) (cpu : Machine) (instr : Word) : Except Halt Machine :=
  let addr := cpu.regs.read (rs1 instr).toNat + immS instr
  cpu.storeVirtualMemory addr size (cpu.regs.read (rs2 instr).toNat)

/-- The shape of the branches: to `pc - 4 + immB` when `taken`. -/
def execBranch (taken : Word → Word → Bool) (cpu : Machine) (instr : Word) : Machine :=
  if taken (cpu.regs.read (rs1 instr).toNat) (cpu.regs.read (rs2 instr).toNat) then
    { cpu with pc := (cpu.pc - 4) + immB instr }
  else cpu

def execLUI (cpu : Machine) (instr : Word) : Machine := writeResult cpu instr (immU instr)

def execAUIPC (cpu : Machine) (instr : Word) : Machine :=
  writeResult cpu instr (cpu.pc + immU instr)

def execADDI := execImm fun val1 imm => val1 + imm
def execSLTI := execImm fun val1 imm => boolWord (signedLt val1 imm)
def execSLTIU := execImm fun val1 imm => boolWord (val1 < imm)
def execXORI := execImm fun val1 imm => val1 ^^^ imm
def execORI := execImm fun val1 imm => val1 ||| imm
def execANDI := execImm fun val1 imm => val1 &&& imm
def execSLLI := execShiftImm fun val1 shamt => val1 <<< shamt
def execSRLI := execShiftImm fun val1 shamt => val1 >>> shamt
def execSRAI := execShiftImm fun val1 shamt => val1.sshiftRight shamt

def execADD := execReg fun val1 val2 => val1 + val2
def execSUB := execReg fun val1 val2 => val1 - val2
def execSLL := execReg fun val1 val2 => val1 <<< (shamtR val2).toNat
def execSLT := execReg fun val1 val2 => boolWord (signedLt val1 val2)
def execSLTU := execReg fun val1 val2 => boolWord (val1 < val2)
def execXOR := execReg fun val1 val2 => val1 ^^^ val2
def execSRL := execReg fun val1 val2 => val1 >>> (shamtR val2).toNat
def execSRA := execReg fun val1 val2 => val1.sshiftRight (shamtR val2).toNat
def execOR := execReg fun val1 val2 => val1 ||| val2
def execAND := execReg fun val1 val2 => val1 &&& val2

def execMUL := execReg fun val1 val2 => val1 * val2

/-- `int64_t` product of two sign-extended operands, shifted right by 32. -/
def execMULH := execReg fun val1 val2 =>
  ((val1.signExtend 64 * val2.signExtend 64).sshiftRight 32).setWidth 32

def execMULHSU := execReg fun val1 val2 =>
  ((val1.signExtend 64 * val2.setWidth 64).sshiftRight 32).setWidth 32

def execMULHU := execReg fun val1 val2 =>
  ((val1.setWidth 64 * val2.setWidth 64) >>> 32).setWidth 32

def execDIV := execReg fun dividend divisor =>
  if divisor = 0 then -1
  else if dividend = BitVec.intMin 32 ∧ divisor = -1 then dividend
  else dividend.sdiv divisor

def execDIVU := execReg fun dividend divisor =>
  if divisor = 0 then 0xFFFFFFFF else dividend / divisor

def execREM := execReg fun dividend divisor =>
  if divisor = 0 then dividend
  else if dividend = BitVec.intMin 32 ∧ divisor = -1 then 0
  else dividend.srem divisor

def execREMU := execReg fun dividend divisor =>
  if divisor = 0 then dividend else dividend % divisor

def execLB := execLoad 1 fun val => (val.setWidth 8).signExtend 32
def execLH := execLoad 2 fun val => (val.setWidth 16).signExtend 32
def execLW := execLoad 4 fun val => val
def execLBU := execLoad 1 fun val => val &&& 0xFF
def execLHU := execLoad 2 fun val => val &&& 0xFFFF

def execSB := execStore 1
def execSH := execStore 2
def execSW := execStore 4

def execJAL (cpu : Machine) (instr : Word) : Machine :=
  let cpu' := writeResult cpu instr (cpu.pc + 4)
  { cpu' with pc := cpu.pc + immJ instr - 4 }

def execJALR (cpu : Machine) (instr : Word) : Machine :=
  let val1 := cpu.regs.read (rs1 instr).toNat
  let cpu' := writeResult cpu instr (cpu.pc + 4)
  { cpu' with pc := ((val1 + immI instr) &&& ~~~1#32) - 4 }

def execBEQ := execBranch fun val1 val2 => val1 == val2
def execBNE := execBranch fun val1 val2 => val1 != val2
def execBLT := execBranch fun val1 val2 => signedLt val1 val2
def execBGE := execBranch fun val1 val2 => !signedLt val1 val2
def execBLTU := execBranch fun val1 val2 => decide (val1 < val2)
def execBGEU := execBranch fun val1 val2 => decide (val1 ≥ val2)

/-- The trap value for a number that `sysCallNameMap` does not list. -/
abbrev SYS_UNKNOWN : Word := -1

/-- `execECALL`: `sysCallNameMap` lists the ids 0 to 14. -/
def execECALL (cpu : Machine) : Machine :=
  let syscallID := cpu.regs.read 17
  if syscallID.toNat ≤ 14 then cpu.setTrap .Syscall syscallID
  else cpu.setTrap .Syscall SYS_UNKNOWN

end Executor

namespace Machine

open Executor

/-- `Machine::execute`. -/
def execute (cpu : Machine) (instr : Word) : Except Halt Machine :=
  let op := Decoder.opcode instr
  let func3 := Decoder.func3 instr
  let func7 := Decoder.func7 instr
  match op with
  | Opcode.R_Type =>
    if func7 = Func7.M_TYPE then
      match func3 with
      | Func3.MUL => .ok (execMUL cpu instr)
      | Func3.MULH => .ok (execMULH cpu instr)
      | Func3.MULHSU => .ok (execMULHSU cpu instr)
      | Func3.MULHU => .ok (execMULHU cpu instr)
      | Func3.DIV => .ok (execDIV cpu instr)
      | Func3.DIVU => .ok (execDIVU cpu instr)
      | Func3.REM => .ok (execREM cpu instr)
      | Func3.REMU => .ok (execREMU cpu instr)
      | _ => .error (.illegal instr "unknown funct3 for <opcode>")
    else
      match func3 with
      | Func3.ADD_SUB =>
        match func7 with
        | Func7.ADD_SRL => .ok (execADD cpu instr)
        | Func7.SUB_SRA => .ok (execSUB cpu instr)
        | _ => .error (.illegal instr "ADD/SUB requires funct7=0 or 0b0100000")
      | Func3.SLL =>
        if func7 ≠ Func7.ADD_SRL then .error (.illegal instr "R-type SLL requires funct7=0")
        else .ok (execSLL cpu instr)
      | Func3.SLT =>
        if func7 ≠ Func7.ADD_SRL then .error (.illegal instr "R-type SLT requires funct7=0")
        else .ok (execSLT cpu instr)
      | Func3.SLTU =>
        if func7 ≠ Func7.ADD_SRL then .error (.illegal instr "R-type SLTU requires funct7=0")
        else .ok (execSLTU cpu instr)
      | Func3.XOR =>
        if func7 ≠ Func7.ADD_SRL then .error (.illegal instr "R-type XOR requires funct7=0")
        else .ok (execXOR cpu instr)
      | Func3.SRL_SRA =>
        match func7 with
        | Func7.ADD_SRL => .ok (execSRL cpu instr)
        | Func7.SUB_SRA => .ok (execSRA cpu instr)
        | _ => .error (.illegal instr "SRL/SRA requires funct7=0 or 0b0100000")
      | Func3.OR =>
        if func7 ≠ Func7.ADD_SRL then .error (.illegal instr "R-type OR requires funct7=0")
        else .ok (execOR cpu instr)
      | Func3.AND =>
        if func7 ≠ Func7.ADD_SRL then .error (.illegal instr "R-type AND requires funct7=0")
        else .ok (execAND cpu instr)
      | _ => .error (.illegal instr "unknown funct3 for <opcode>")
  | Opcode.I_Type =>
    match func3 with
    | Func3.ADD_SUB => .ok (execADDI cpu instr)
    | Func3.SLL =>
      if func7 ≠ Func7.ADD_SRL then .error (.illegal instr "SLLI requires imm[11:5]=0")
      else .ok (execSLLI cpu instr)
    | Func3.SLT => .ok (execSLTI cpu instr)
    | Func3.SLTU => .ok (execSLTIU cpu instr)
    | Func3.XOR => .ok (execXORI cpu instr)
    | Func3.SRL_SRA =>
      match func7 with
      | Func7.ADD_SRL => .ok (execSRLI cpu instr)
      | Func7.SUB_SRA => .ok (execSRAI cpu instr)
      | _ => .error (.illegal instr "SRLI/SRAI requires imm[11:5]=0 or 0b0100000")
    | Func3.OR => .ok (execORI cpu instr)
    | Func3.AND => .ok (execANDI cpu instr)
    | _ => .error (.illegal instr "unknown funct3 for I-type")
  | Opcode.STORE =>
    match func3 with
    | Func3.SB => execSB cpu instr
    | Func3.SH => execSH cpu instr
    | Func3.SW => execSW cpu instr
    | _ => .error (.illegal instr "unknown funct3 for STORE")
  | Opcode.B_Type =>
    match func3 with
    | Func3.BEQ => .ok (execBEQ cpu instr)
    | Func3.BNE => .ok (execBNE cpu instr)
    | Func3.BLT => .ok (execBLT cpu instr)
    | Func3.BGE => .ok (execBGE cpu instr)
    | Func3.BLTU => .ok (execBLTU cpu instr)
    | Func3.BGEU => .ok (execBGEU cpu instr)
    | _ => .error (.illegal instr "unknown funct3 for BRANCH")
  | Opcode.LOAD =>
    match func3 with
    | Func3.LB => execLB cpu instr
    | Func3.LH => execLH cpu instr
    | Func3.LW => execLW cpu instr
    | Func3.LBU => execLBU cpu instr
    | Func3.LHU => execLHU cpu instr
    | _ => .error (.illegal instr "unknown funct3 for LOAD")
  | Opcode.LUI => .ok (execLUI cpu instr)
  | Opcode.AUIPC => .ok (execAUIPC cpu instr)
  | Opcode.JAL => .ok (execJAL cpu instr)
  | Opcode.JALR => .ok (execJALR cpu instr)
  | Opcode.SYSTEM =>
    if func3 = Func3.ECALL_EBREAK then
      if Decoder.immI instr = 0 then .ok (execECALL cpu)
      else .error (.illegal instr "SYSTEM imm must be 0 (ECALL)")
    else .error (.illegal instr "CSR instruction not implemented")
  | Opcode.MISC_MEM =>
    match func3 with
    | Func3.FENCE => .ok cpu
    | Func3.FENCE_I => .ok cpu
    | _ => .error (.illegal instr "unknown funct3 for MISC_MEM")
  | _ => .error (.unknownOpcode op)

theorem execute_misc_mem {cpu : Machine} {instr : Word}
    (hop : Decoder.opcode instr = Opcode.MISC_MEM) (h3 : Decoder.func3 instr = Func3.FENCE) :
    cpu.execute instr = .ok cpu := by
  simp only [execute, hop, h3]
  rfl

/-- `Machine::step`. -/
def step (cpu : Machine) : Except Halt Machine := do
  let (instr, cpu) ← cpu.clearTrap.fetch
  if cpu.hasTrap then .ok cpu
  else cpu.execute instr

end Machine

end Rv32umos
