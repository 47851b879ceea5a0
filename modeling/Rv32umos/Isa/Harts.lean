import Rv32umos.Isa.Rv32im
import Rv32umos.Lib.Bytes
import Rv32umos.Lib.Transition

/-!
# Harts that share a memory

Several harts execute RV32IM on one memory, an instruction at a time, in any order. Some bytes of the memory
may be unspecified; a fetch or a load of such a byte returns anything. As long as no hart depends on one, what
the harts compute is settled by the order in which they take turns (`run_settled`).
-/

namespace Rv32im

open Bytes Transition

/-! ### Encodings tell instructions apart -/

theorem HasField.unique {n pos : Nat} {w : Word} {x y : BitVec n} (h : HasField w pos x)
    (h' : HasField w pos y) : x = y :=
  BitVec.eq_of_getLsbD_eq fun i hi => (h i hi).symm.trans (h' i hi)

theorem getLsbD_of_extract {n lo len j : Nat} {x y : BitVec n}
    (h : x.extractLsb' lo len = y.extractLsb' lo len) (hlo : lo ≤ j) (hhi : j < lo + len) :
    x.getLsbD j = y.getLsbD j := by
  have hbit := congrArg (fun z => z.getLsbD (j - lo)) h
  have hin : j - lo < len := by omega
  simp only [BitVec.getLsbD_extractLsb', hin, decide_true, Bool.true_and, Nat.add_sub_cancel' hlo] at hbit
  exact hbit

def Instr.opcode : Instr → BitVec 7
  | .lui _ _ => 0b0110111
  | .auipc _ _ => 0b0010111
  | .opImm _ _ _ _ => 0b0010011
  | .shift _ _ _ _ => 0b0010011
  | .opReg _ _ _ _ => 0b0110011
  | .jal _ _ => 0b1101111
  | .jalr _ _ _ => 0b1100111
  | .branch _ _ _ _ => 0b1100011
  | .load _ _ _ _ => 0b0000011
  | .store _ _ _ _ => 0b0100011
  | .fence _ _ _ => 0b0001111

theorem encode_opcode (i : Instr) : HasField (encode i) 0 i.opcode := by
  cases i with
  | lui rd imm => exact (encodeU_fields _ rd imm).1
  | auipc rd imm => exact (encodeU_fields _ rd imm).1
  | opImm op rd rs1 imm => exact (encodeI_fields _ rs1 rd _ imm).1
  | shift op rd rs1 shamt => exact (encodeR_fields _ _ shamt rs1 rd _).1
  | opReg op rd rs1 rs2 => exact (encodeR_fields _ _ rs2 rs1 rd _).1
  | jal rd imm => exact (encodeJ_fields _ rd imm).1
  | jalr rd rs1 imm => exact (encodeI_fields _ rs1 rd _ imm).1
  | branch op rs1 rs2 imm => exact (encodeB_fields _ rs2 rs1 _ imm).1
  | load op rd rs1 imm => exact (encodeI_fields _ rs1 rd _ imm).1
  | store op rs1 rs2 imm => exact (encodeR_fields _ _ rs2 rs1 _ _).1
  | fence rd rs1 imm => exact (encodeI_fields _ rs1 rd _ imm).1

section
variable {funct7 funct7' opcode : BitVec 7} {rs2 rs2' rs1 rs1' rd rd' : Reg} {funct3 funct3' : BitVec 3}
  {imm imm' : BitVec 12} {imm20 imm20' : BitVec 20}

theorem encodeR_inj (h : encodeR funct7 rs2 rs1 funct3 rd opcode = encodeR funct7' rs2' rs1' funct3' rd' opcode) :
    funct7 = funct7' ∧ rs2 = rs2' ∧ rs1 = rs1' ∧ funct3 = funct3' ∧ rd = rd' := by
  obtain ⟨-, hrd, hf3, hrs1, hrs2, hf7⟩ := encodeR_fields funct7 opcode rs2 rs1 rd funct3
  obtain ⟨-, hrd', hf3', hrs1', hrs2', hf7'⟩ := encodeR_fields funct7' opcode rs2' rs1' rd' funct3'
  rw [← h] at hrd' hf3' hrs1' hrs2' hf7'
  exact ⟨hf7.unique hf7', hrs2.unique hrs2', hrs1.unique hrs1', hf3.unique hf3', hrd.unique hrd'⟩

theorem encodeI_inj (h : encodeI imm rs1 funct3 rd opcode = encodeI imm' rs1' funct3' rd' opcode) :
    imm = imm' ∧ rs1 = rs1' ∧ funct3 = funct3' ∧ rd = rd' := by
  obtain ⟨-, hrd, hf3, hrs1, himm⟩ := encodeI_fields opcode rs1 rd funct3 imm
  obtain ⟨-, hrd', hf3', hrs1', himm'⟩ := encodeI_fields opcode rs1' rd' funct3' imm'
  rw [← h] at hrd' hf3' hrs1' himm'
  exact ⟨himm.unique himm', hrs1.unique hrs1', hf3.unique hf3', hrd.unique hrd'⟩

theorem encodeU_inj (h : encodeU imm20 rd opcode = encodeU imm20' rd' opcode) : imm20 = imm20' ∧ rd = rd' := by
  obtain ⟨-, hrd, himm⟩ := encodeU_fields opcode rd imm20
  obtain ⟨-, hrd', himm'⟩ := encodeU_fields opcode rd' imm20'
  rw [← h] at hrd' himm'
  exact ⟨himm.unique himm', hrd.unique hrd'⟩

theorem encodeJ_inj (h : encodeJ imm20 rd opcode = encodeJ imm20' rd' opcode) : imm20 = imm20' ∧ rd = rd' := by
  obtain ⟨-, hrd, hmid, hbit, hlow, hsign⟩ := encodeJ_fields opcode rd imm20
  obtain ⟨-, hrd', hmid', hbit', hlow', hsign'⟩ := encodeJ_fields opcode rd' imm20'
  rw [← h] at hrd' hmid' hbit' hlow' hsign'
  refine ⟨BitVec.eq_of_getLsbD_eq fun j hj => ?_, hrd.unique hrd'⟩
  obtain hj | hj | hj | hj : j < 10 ∨ j = 10 ∨ (11 ≤ j ∧ j < 19) ∨ j = 19 := by omega
  · exact getLsbD_of_extract (hlow.unique hlow') (by omega) (by omega)
  · exact getLsbD_of_extract (hbit.unique hbit') (by omega) (by omega)
  · exact getLsbD_of_extract (hmid.unique hmid') (by omega) (by omega)
  · exact getLsbD_of_extract (hsign.unique hsign') (by omega) (by omega)

theorem encodeB_inj (h : encodeB imm rs2 rs1 funct3 opcode = encodeB imm' rs2' rs1' funct3' opcode) :
    imm = imm' ∧ rs2 = rs2' ∧ rs1 = rs1' ∧ funct3 = funct3' := by
  obtain ⟨-, hbit, hlow, hf3, hrs1, hrs2, hmid, hsign⟩ := encodeB_fields opcode rs2 rs1 funct3 imm
  obtain ⟨-, hbit', hlow', hf3', hrs1', hrs2', hmid', hsign'⟩ := encodeB_fields opcode rs2' rs1' funct3' imm'
  rw [← h] at hbit' hlow' hf3' hrs1' hrs2' hmid' hsign'
  refine ⟨BitVec.eq_of_getLsbD_eq fun j hj => ?_, hrs2.unique hrs2', hrs1.unique hrs1', hf3.unique hf3'⟩
  obtain hj | hj | hj | hj : j < 4 ∨ (4 ≤ j ∧ j < 10) ∨ j = 10 ∨ j = 11 := by omega
  · exact getLsbD_of_extract (hlow.unique hlow') (by omega) (by omega)
  · exact getLsbD_of_extract (hmid.unique hmid') (by omega) (by omega)
  · exact getLsbD_of_extract (hbit.unique hbit') (by omega) (by omega)
  · exact getLsbD_of_extract (hsign.unique hsign') (by omega) (by omega)

theorem encodeS_inj {opcode : BitVec 7}
    (h : encodeS imm rs2 rs1 funct3 opcode = encodeS imm' rs2' rs1' funct3' opcode) :
    imm = imm' ∧ rs2 = rs2' ∧ rs1 = rs1' ∧ funct3 = funct3' := by
  obtain ⟨hhigh, hrs2, hrs1, hf3, hlow⟩ := encodeR_inj h
  refine ⟨BitVec.eq_of_getLsbD_eq fun j hj => ?_, hrs2, hrs1, hf3⟩
  obtain hj | hj : j < 5 ∨ 5 ≤ j := by omega
  · exact getLsbD_of_extract hlow (by omega) (by omega)
  · exact getLsbD_of_extract hhigh hj (by omega)

end

theorem RegOp.funct_inj {op op' : RegOp} (h7 : op.funct7 = op'.funct7) (h3 : op.funct3 = op'.funct3) : op = op' := by
  -- the first operation with these two fields is the operation itself
  let ops : List RegOp := [.add, .sub, .sll, .slt, .sltu, .xor, .srl, .sra, .or, .and,
    .mul, .mulh, .mulhsu, .mulhu, .div, .divu, .rem, .remu]
  have hfind : ∀ op : RegOp, ops.find? (fun o => o.funct7 = op.funct7 ∧ o.funct3 = op.funct3) = some op := by
    intro op
    cases op <;> rfl
  have hop := hfind op
  simp only [h7, h3] at hop
  exact Option.some.inj (hop.symm.trans (hfind op'))

/-- The two share their opcode, but no function code. -/
theorem opImm_ne_shift (op : ImmOp) (op' : ShiftOp) (rd rs1 : Reg) (imm : BitVec 12) (rd' rs1' : Reg)
    (shamt : BitVec 5) : encode (.opImm op rd rs1 imm) ≠ encode (.shift op' rd' rs1' shamt) := by
  intro h
  have himm := (encodeI_fields 0b0010011 rs1 rd op.funct3 imm).2.2.1
  have hshift := (encodeR_fields op'.funct7 0b0010011 shamt rs1' rd' op'.funct3).2.2.1
  have hwords : encodeI imm rs1 op.funct3 rd 0b0010011 =
      encodeR op'.funct7 shamt rs1' op'.funct3 rd' 0b0010011 := h
  rw [hwords] at himm
  have heq := himm.unique hshift
  cases op <;> cases op' <;> exact absurd heq (by decide)

/-- An encoding is the encoding of one instruction. -/
theorem encode_injective {i i' : Instr} (h : encode i = encode i') : i = i' := by
  have hopcode : i.opcode = i'.opcode := (encode_opcode i).unique (h ▸ encode_opcode i')
  cases i with
  | lui rd imm =>
    cases i' with
    | lui rd' imm' =>
      obtain ⟨rfl, rfl⟩ := encodeU_inj h
      rfl
    | _ => simp [Instr.opcode] at hopcode
  | auipc rd imm =>
    cases i' with
    | auipc rd' imm' =>
      obtain ⟨rfl, rfl⟩ := encodeU_inj h
      rfl
    | _ => simp [Instr.opcode] at hopcode
  | jal rd imm =>
    cases i' with
    | jal rd' imm' =>
      obtain ⟨rfl, rfl⟩ := encodeJ_inj h
      rfl
    | _ => simp [Instr.opcode] at hopcode
  | jalr rd rs1 imm =>
    cases i' with
    | jalr rd' rs1' imm' =>
      obtain ⟨rfl, rfl, -, rfl⟩ := encodeI_inj h
      rfl
    | _ => simp [Instr.opcode] at hopcode
  | fence rd rs1 imm =>
    cases i' with
    | fence rd' rs1' imm' =>
      obtain ⟨rfl, rfl, -, rfl⟩ := encodeI_inj h
      rfl
    | _ => simp [Instr.opcode] at hopcode
  | branch op rs1 rs2 imm =>
    cases i' with
    | branch op' rs1' rs2' imm' =>
      obtain ⟨rfl, rfl, rfl, hop⟩ := encodeB_inj h
      have heq : op = op' := by
        revert hop
        cases op <;> cases op' <;> decide
      rw [heq]
    | _ => simp [Instr.opcode] at hopcode
  | load op rd rs1 imm =>
    cases i' with
    | load op' rd' rs1' imm' =>
      obtain ⟨rfl, rfl, hop, rfl⟩ := encodeI_inj h
      have heq : op = op' := by
        revert hop
        cases op <;> cases op' <;> decide
      rw [heq]
    | _ => simp [Instr.opcode] at hopcode
  | store op rs1 rs2 imm =>
    cases i' with
    | store op' rs1' rs2' imm' =>
      obtain ⟨rfl, rfl, rfl, hop⟩ := encodeS_inj h
      have heq : op = op' := by
        revert hop
        cases op <;> cases op' <;> decide
      rw [heq]
    | _ => simp [Instr.opcode] at hopcode
  | opReg op rd rs1 rs2 =>
    cases i' with
    | opReg op' rd' rs1' rs2' =>
      obtain ⟨h7, rfl, rfl, h3, rfl⟩ := encodeR_inj h
      rw [RegOp.funct_inj h7 h3]
    | _ => simp [Instr.opcode] at hopcode
  | opImm op rd rs1 imm =>
    cases i' with
    | opImm op' rd' rs1' imm' =>
      obtain ⟨rfl, rfl, hop, rfl⟩ := encodeI_inj h
      have heq : op = op' := by
        revert hop
        cases op <;> cases op' <;> decide
      rw [heq]
    | shift op' rd' rs1' shamt => exact absurd h (opImm_ne_shift op op' rd rs1 imm rd' rs1' shamt)
    | _ => simp [Instr.opcode] at hopcode
  | shift op rd rs1 shamt =>
    cases i' with
    | shift op' rd' rs1' shamt' =>
      obtain ⟨h7, rfl, rfl, h3, rfl⟩ := encodeR_inj h
      have heq : op = op' := by
        revert h7 h3
        cases op <;> cases op' <;> decide
      rw [heq]
    | opImm op' rd' rs1' imm => exact absurd h.symm (opImm_ne_shift op' op rd' rs1' imm rd rs1 shamt)
    | _ => simp [Instr.opcode] at hopcode

/-! ### Harts -/

structure Harts (T : Type) where
  regs : T → Reg → Word
  pc : T → Word
  memory : Nat → Option Byte

/-- The memory after instruction `i`, where `s` is the state before. -/
def written (memory : Nat → Option Byte) (i : Instr) (s : State Nat) (a : Nat) : Option Byte :=
  match i with
  | .store op rs1 rs2 imm =>
    let start := (s.get rs1 + imm.signExtend 32).toNat
    if start ≤ a ∧ a < start + op.size then some (byteAt (s.get rs2) (a - start)) else memory a
  | _ => memory a

namespace Harts

variable {T : Type} {x y z : Harts T} {t : T} {i i' : Instr} {mem mem' : Nat → Byte}

/-- What hart `t` executes on, where the memory is `mem`. -/
def hart (x : Harts T) (t : T) (mem : Nat → Byte) : State Nat := ⟨x.regs t, x.pc t, mem⟩

def Admits (x : Harts T) (mem : Nat → Byte) : Prop := ∀ a b, x.memory a = some b → mem a = b

/-- Hart `t` executes the instruction at its pc. -/
inductive Step [DecidableEq T] (x : Harts T) : T × Instr → Harts T → Prop
  | turn {t : T} {i : Instr} {mem : Nat → Byte} (hmem : x.Admits mem)
    (hcode : ∀ j < 4, mem ((x.pc t).toNat + j) = byteAt (encode i) j) :
    Step x (t, i)
      { regs := Function.update x.regs t (exec BitVec.toNat i (x.hart t mem)).regs
        pc := Function.update x.pc t (exec BitVec.toNat i (x.hart t mem)).pc
        memory := written x.memory i (x.hart t mem) }

/-- The hart fetches specified bytes, and loads specified bytes. -/
structure Settled (x : Harts T) (e : T × Instr) : Prop where
  fetch : ∀ j < 4, (x.memory ((x.pc e.1).toNat + j)).isSome
  load : ∀ op rd rs1 imm, e.2 = .load op rd rs1 imm → ∀ j < op.size, ∀ mem,
    (x.memory ((x.hart e.1 mem).get rs1 + imm.signExtend 32 + BitVec.ofNat 32 j).toNat).isSome

theorem Admits.agree (h : x.Admits mem) (h' : x.Admits mem') {a : Nat} (hspec : (x.memory a).isSome) :
    mem' a = mem a := by
  obtain ⟨b, hb⟩ := Option.isSome_iff_exists.1 hspec
  rw [h a b hb, h' a b hb]

/-- A word is its four bytes. -/
theorem eq_of_bytes {v w : Word} (h : ∀ j < 4, byteAt v j = byteAt w j) : v = w := by
  refine BitVec.eq_of_getLsbD_eq fun i hi => ?_
  have hbyte := congrArg (fun b => b.getLsbD (i % 8)) (h (i / 8) (by omega))
  have hin : i % 8 < 8 := Nat.mod_lt i (by decide)
  simp only [byteAt, BitVec.getLsbD_extractLsb', hin, decide_true, Bool.true_and, Nat.div_add_mod] at hbyte
  exact hbyte

theorem written_hart (x : Harts T) (t : T) (i : Instr) (mem mem' : Nat → Byte) :
    written x.memory i (x.hart t mem') = written x.memory i (x.hart t mem) := by
  cases i <;> rfl

/-- Where a hart depends on specified bytes only, its instruction and the outcome are settled. -/
theorem Step.settled [DecidableEq T] (h : x.Step (t, i) y) (h' : x.Step (t, i') z) (hs : x.Settled (t, i)) :
    i' = i ∧ z = y := by
  cases h with
  | @turn _ _ mem hmem hcode =>
    cases h' with
    | @turn _ _ mem' hmem' hcode' =>
      have hi : i' = i := by
        refine encode_injective (eq_of_bytes fun j hj => ?_)
        rw [← hcode j hj, ← hcode' j hj]
        exact hmem.agree hmem' (hs.fetch j hj)
      subst hi
      obtain ⟨hregs, hpc⟩ : (exec BitVec.toNat i' (x.hart t mem')).regs = (exec BitVec.toNat i' (x.hart t mem)).regs ∧
          (exec BitVec.toNat i' (x.hart t mem')).pc = (exec BitVec.toNat i' (x.hart t mem)).pc := by
        refine exec_congr i' rfl rfl fun op rd rs1 imm heq _ j hj => ?_
        exact hmem.agree hmem' (hs.load op rd rs1 imm heq j hj mem)
      rw [hregs, hpc, written_hart x t i' mem mem']
      exact ⟨rfl, rfl⟩

/-- As long as the harts depend on specified bytes only, the order of their turns settles everything. -/
theorem run_settled [DecidableEq T] {is js : List (T × Instr)} (h : Run (Guarded Step Settled) x is y)
    (h' : Run Step x js z) (hturns : js.map Prod.fst = is.map Prod.fst) : js = is ∧ z = y := by
  induction h generalizing js z with
  | nil =>
    have hnil : js = [] := List.map_eq_nil_iff.1 hturns
    exact ⟨hnil, h'.eq_of_nil hnil⟩
  | @snoc is y' y e hrun hlast ih =>
    cases h' with
    | nil =>
      rw [List.map_append] at hturns
      exact absurd hturns.symm (List.append_ne_nil_of_right_ne_nil _ (List.cons_ne_nil _ _))
    | @snoc js z' z e' hrun' hlast' =>
      rw [List.map_append, List.map_append] at hturns
      obtain ⟨hinit, hfinal⟩ := List.append_inj' hturns rfl
      obtain ⟨rfl, rfl⟩ := ih hrun' hinit
      obtain ⟨t, i⟩ := e
      obtain ⟨t', i'⟩ := e'
      obtain rfl : t' = t := (List.cons.inj hfinal).1
      obtain ⟨rfl, rfl⟩ := hlast.1.settled hlast' hlast.2
      exact ⟨rfl, rfl⟩

end Harts

end Rv32im
