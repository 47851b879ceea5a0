import Rv32umos.Common

/-!
# The decoder

`rv32vm/Decoder.hpp` and `rv32vm/Decoder.cpp`. The enumerations are `uint8_t` constants, several of
them with the same value, and a cast yields any byte; they are therefore the bytes themselves.
-/

namespace Rv32umos

abbrev Opcode := BitVec 8
abbrev Func3 := BitVec 8
abbrev Func7 := BitVec 8

namespace Opcode

@[match_pattern] abbrev R_Type : Opcode := 0x33#8
@[match_pattern] abbrev I_Type : Opcode := 0x13#8
@[match_pattern] abbrev B_Type : Opcode := 0x63#8
@[match_pattern] abbrev STORE : Opcode := 0x23#8
@[match_pattern] abbrev LOAD : Opcode := 0x03#8
@[match_pattern] abbrev AUIPC : Opcode := 0x17#8
@[match_pattern] abbrev LUI : Opcode := 0x37#8
@[match_pattern] abbrev JALR : Opcode := 0x67#8
@[match_pattern] abbrev JAL : Opcode := 0x6F#8
@[match_pattern] abbrev SYSTEM : Opcode := 0x73#8
@[match_pattern] abbrev MISC_MEM : Opcode := 0x0F#8

end Opcode

namespace Func3

@[match_pattern] abbrev ADD_SUB : Func3 := 0x0#8
@[match_pattern] abbrev SLL : Func3 := 0x1#8
@[match_pattern] abbrev SLT : Func3 := 0x2#8
@[match_pattern] abbrev SLTU : Func3 := 0x3#8
@[match_pattern] abbrev XOR : Func3 := 0x4#8
@[match_pattern] abbrev SRL_SRA : Func3 := 0x5#8
@[match_pattern] abbrev OR : Func3 := 0x6#8
@[match_pattern] abbrev AND : Func3 := 0x7#8

@[match_pattern] abbrev BEQ : Func3 := 0x0#8
@[match_pattern] abbrev BNE : Func3 := 0x1#8
@[match_pattern] abbrev BLT : Func3 := 0x4#8
@[match_pattern] abbrev BGE : Func3 := 0x5#8
@[match_pattern] abbrev BLTU : Func3 := 0x6#8
@[match_pattern] abbrev BGEU : Func3 := 0x7#8

@[match_pattern] abbrev LB : Func3 := 0x0#8
@[match_pattern] abbrev LH : Func3 := 0x1#8
@[match_pattern] abbrev LW : Func3 := 0x2#8
@[match_pattern] abbrev LBU : Func3 := 0x4#8
@[match_pattern] abbrev LHU : Func3 := 0x5#8

@[match_pattern] abbrev SB : Func3 := 0x0#8
@[match_pattern] abbrev SH : Func3 := 0x1#8
@[match_pattern] abbrev SW : Func3 := 0x2#8

@[match_pattern] abbrev ECALL_EBREAK : Func3 := 0x0#8

@[match_pattern] abbrev FENCE : Func3 := 0x0#8
@[match_pattern] abbrev FENCE_I : Func3 := 0x1#8

@[match_pattern] abbrev MUL : Func3 := 0x0#8
@[match_pattern] abbrev MULH : Func3 := 0x1#8
@[match_pattern] abbrev MULHSU : Func3 := 0x2#8
@[match_pattern] abbrev MULHU : Func3 := 0x3#8
@[match_pattern] abbrev DIV : Func3 := 0x4#8
@[match_pattern] abbrev DIVU : Func3 := 0x5#8
@[match_pattern] abbrev REM : Func3 := 0x6#8
@[match_pattern] abbrev REMU : Func3 := 0x7#8

end Func3

namespace Func7

@[match_pattern] abbrev ADD_SRL : Func7 := 0x00#8
@[match_pattern] abbrev SUB_SRA : Func7 := 0x20#8
@[match_pattern] abbrev M_TYPE : Func7 := 0x01#8

end Func7

namespace Decoder

open Utils

def opcode (instr : Word) : Opcode := (extractBits instr 0 6).setWidth 8

def rd (instr : Word) : Word := extractBits instr 7 11

def func3 (instr : Word) : Func3 := (extractBits instr 12 14).setWidth 8

def rs1 (instr : Word) : Word := extractBits instr 15 19

def rs2 (instr : Word) : Word := extractBits instr 20 24

def func7 (instr : Word) : Func7 := (extractBits instr 25 31).setWidth 8

def immI (instr : Word) : Word :=
  let imm := extractBits instr 20 31
  signExtend imm 12

def immS (instr : Word) : Word :=
  let imm_11_5 := extractBits instr 25 31
  let imm_4_0 := extractBits instr 7 11
  let imm := (imm_11_5 <<< 5) ||| imm_4_0
  signExtend imm 12

def immB (instr : Word) : Word :=
  let imm12 := extractBits instr 31 31
  let imm10_5 := extractBits instr 25 30
  let imm4_1 := extractBits instr 8 11
  let imm11 := extractBits instr 7 7
  let imm := (imm12 <<< 12) ||| (imm11 <<< 11) ||| (imm10_5 <<< 5) ||| (imm4_1 <<< 1)
  signExtend imm 13

def immU (instr : Word) : Word := extractBits instr 12 31 <<< 12

def immJ (instr : Word) : Word :=
  let imm20 := extractBits instr 31 31
  let imm10_1 := extractBits instr 21 30
  let imm11 := extractBits instr 20 20
  let imm19_12 := extractBits instr 12 19
  let imm := (imm20 <<< 20) ||| (imm19_12 <<< 12) ||| (imm11 <<< 11) ||| (imm10_1 <<< 1)
  signExtend imm 21

def shamtI (instr : Word) : Word := extractBits instr 20 24

def shamtR (val : Word) : Word := extractBits val 0 4

end Decoder

end Rv32umos
