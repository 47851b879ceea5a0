import Rv32umos.Vm.Decoder
import Rv32umos.Isa.Rv32im

/-!
# The decoder reads back the standard encodings

For each encoding format: the fields and the immediate that `Decoder` extracts from the encoded
word are the operands that were encoded (`encodeR_rd`, `encodeB_immB`, ...). Everything is proved
bit by bit from `getLsbD_extractBits` and `Rv32im.getLsbD_field`.
-/

namespace Rv32umos

open Rv32im

namespace Utils

theorem getLsbD_mask (len i : Nat) (hlen : len ≤ 32) (hi : i < 32) :
    ((1#64 <<< len - 1#64).setWidth 32).getLsbD i = decide (i < len) := by
  have hle : 2 ^ len ≤ 2 ^ 32 := Nat.pow_le_pow_right (by decide) hlen
  have hpos : 0 < 2 ^ len := Nat.two_pow_pos _
  have hval : (1#64 <<< len - 1#64).toNat = 2 ^ len - 1 := by
    simp only [BitVec.toNat_sub, BitVec.toNat_shiftLeft, BitVec.toNat_ofNat, Nat.shiftLeft_eq]
    omega
  rw [BitVec.getLsbD_setWidth, BitVec.getLsbD, hval, Nat.testBit_two_pow_sub_one]
  simp [hi]

theorem getLsbD_extractBits (w : Word) (start last i : Nat) (hlast : last < 32)
    (hstart : start ≤ last) :
    (extractBits w start last).getLsbD i =
      (decide (i < last - start + 1) && w.getLsbD (start + i)) := by
  unfold extractBits
  by_cases hi : i < 32
  · simp only [BitVec.getLsbD_and, BitVec.getLsbD_ushiftRight]
    rw [getLsbD_mask _ _ (by omega) hi, Bool.and_comm]
  · rw [BitVec.getLsbD_of_ge _ _ (by omega)]
    simp
    omega

/-- A bit field that agrees with `x` bit by bit is `x`. -/
theorem extractBits_eq {n : Nat} {w : Word} {start : Nat} {x : BitVec n}
    (hbits : HasField w start x) (last : Nat) (hlast : start + n = last + 1) (hfit : last < 32)
    (hn : 0 < n) : extractBits w start last = x.setWidth 32 := by
  apply BitVec.eq_of_getLsbD_eq
  intro i hi
  rw [getLsbD_extractBits _ _ _ _ (by omega) (by omega), BitVec.getLsbD_setWidth]
  have hlen : last - start + 1 = n := by omega
  rw [hlen]
  by_cases hin : i < n
  · simp [hin, hi, hbits i hin]
  · simp [hin, BitVec.getLsbD_of_ge x i (by omega)]

theorem two_pow_xor {k y : Nat} (hy : y < 2 ^ k) : 2 ^ k ^^^ y = 2 ^ k + y := by
  have hor := Nat.two_pow_add_eq_or_of_lt hy 1
  rw [Nat.mul_one] at hor
  rw [hor]
  apply Nat.eq_of_testBit_eq
  intro i
  rw [Nat.testBit_xor, Nat.testBit_or, Nat.testBit_two_pow]
  by_cases hi : k = i
  · subst hi
    simp [Nat.testBit_lt_two_pow hy]
  · simp [hi]

/-- The source's sign extension: `(val ^ m) - m` with `m` the sign bit. -/
theorem signExtend_setWidth {n : Nat} (x : BitVec n) (hn : 0 < n) (hn32 : n < 32) :
    signExtend (x.setWidth 32) n = x.signExtend 32 := by
  have hx := x.isLt
  have hpow : 2 ^ n ≤ 2 ^ 31 := Nat.pow_le_pow_right (by decide) (by omega)
  have hhalf : 2 ^ n = 2 * 2 ^ (n - 1) := by
    rw [← Nat.pow_succ']
    congr 1
    omega
  have hm : (1#32 <<< (n - 1)).toNat = 2 ^ (n - 1) := by
    simp only [BitVec.toNat_shiftLeft, BitVec.toNat_ofNat, Nat.shiftLeft_eq]
    omega
  have hxor : (x.setWidth 32 ^^^ 1#32 <<< (n - 1)).toNat = 2 ^ (n - 1) ^^^ x.toNat := by
    rw [BitVec.toNat_xor, hm, BitVec.toNat_setWidth, Nat.mod_eq_of_lt (by omega), Nat.xor_comm]
  apply BitVec.eq_of_toNat_eq
  simp only [signExtend, BitVec.toNat_sub, hxor, hm]
  rcases hmsb : x.msb with _ | _
  · -- the sign bit is clear: the exclusive or adds it and the subtraction takes it away
    have hlt : x.toNat < 2 ^ (n - 1) := by
      rw [BitVec.msb_eq_decide, decide_eq_false_iff_not] at hmsb
      omega
    rw [BitVec.signExtend_eq_setWidth_of_msb_false hmsb, BitVec.toNat_setWidth, two_pow_xor hlt]
    omega
  · -- the sign bit is set: the exclusive or removes it, the subtraction wraps
    have hge : 2 ^ (n - 1) ≤ x.toNat := by
      rw [BitVec.msb_eq_decide, decide_eq_true_eq] at hmsb
      exact hmsb
    obtain ⟨y, hy⟩ : ∃ y, x.toNat = 2 ^ (n - 1) + y := ⟨x.toNat - 2 ^ (n - 1), by omega⟩
    have hxy : 2 ^ (n - 1) ^^^ x.toNat = y := by
      rw [hy, ← two_pow_xor (by omega), ← Nat.xor_assoc, Nat.xor_self, Nat.zero_xor]
    rw [hxy, BitVec.toNat_signExtend, hmsb, BitVec.toNat_setWidth, Nat.mod_eq_of_lt (by omega)]
    simp only [if_true]
    omega

end Utils

namespace Decoder

open Utils

variable {w : Word}

theorem opcode_eq {x : BitVec 7} (h : HasField w 0 x) : opcode w = x.setWidth 8 := by
  rw [opcode, extractBits_eq h 6 rfl (by decide) (by decide),
    BitVec.setWidth_setWidth_of_le _ (by decide)]

theorem rd_eq {x : Reg} (h : HasField w 7 x) : rd w = x.setWidth 32 :=
  extractBits_eq h _ rfl (by decide) (by decide)

theorem func3_eq {x : BitVec 3} (h : HasField w 12 x) : func3 w = x.setWidth 8 := by
  rw [func3, extractBits_eq h 14 rfl (by decide) (by decide),
    BitVec.setWidth_setWidth_of_le _ (by decide)]

theorem rs1_eq {x : Reg} (h : HasField w 15 x) : rs1 w = x.setWidth 32 :=
  extractBits_eq h _ rfl (by decide) (by decide)

theorem rs2_eq {x : Reg} (h : HasField w 20 x) : rs2 w = x.setWidth 32 :=
  extractBits_eq h _ rfl (by decide) (by decide)

theorem func7_eq {x : BitVec 7} (h : HasField w 25 x) : func7 w = x.setWidth 8 := by
  rw [func7, extractBits_eq h 31 rfl (by decide) (by decide),
    BitVec.setWidth_setWidth_of_le _ (by decide)]

theorem immI_eq {x : BitVec 12} (h : HasField w 20 x) : immI w = x.signExtend 32 := by
  rw [immI, extractBits_eq h 31 rfl (by decide) (by decide)]
  exact signExtend_setWidth x (by decide) (by decide)

theorem immU_eq {x : BitVec 20} (h : HasField w 12 x) : immU w = x ++ 0#12 := by
  rw [immU, extractBits_eq h 31 rfl (by decide) (by decide)]
  apply BitVec.eq_of_getLsbD_eq
  intro i hi
  simp only [BitVec.getLsbD_shiftLeft, BitVec.getLsbD_setWidth, BitVec.getLsbD_append]
  by_cases h12 : i < 12
  · simp [h12]
  · have hsub : i - 12 < 32 := by omega
    simp [h12, hi, hsub]

theorem immS_eq {x : BitVec 12} (hlow : HasField w 7 (x.extractLsb' 0 5))
    (hhigh : HasField w 25 (x.extractLsb' 5 7)) : immS w = x.signExtend 32 := by
  have himm : (x.extractLsb' 5 7).setWidth 32 <<< 5 ||| (x.extractLsb' 0 5).setWidth 32 =
      x.setWidth 32 := by
    apply BitVec.eq_of_getLsbD_eq
    intro i hi
    simp only [BitVec.getLsbD_or, BitVec.getLsbD_shiftLeft, BitVec.getLsbD_setWidth,
      BitVec.getLsbD_extractLsb']
    interval_cases i <;> simp
  simp only [immS, extractBits_eq hhigh 31 rfl (by decide) (by decide),
    extractBits_eq hlow 11 rfl (by decide) (by decide), himm]
  exact signExtend_setWidth x (by decide) (by decide)

/-- A scattered offset, put together without its bit 0, is the offset of the specification. -/
theorem signExtend_offset {n : Nat} (x : BitVec n) (hn : n + 1 < 32) :
    signExtend ((x ++ 0#1).setWidth 32) (n + 1) = offset x := by
  rw [signExtend_setWidth _ (by omega) hn, offset, BitVec.signExtend, BitVec.toInt_append_zero]
  rfl

theorem immB_eq {x : BitVec 12} (h11 : HasField w 7 (x.extractLsb' 10 1))
    (hlow : HasField w 8 (x.extractLsb' 0 4)) (hmid : HasField w 25 (x.extractLsb' 4 6))
    (h12 : HasField w 31 (x.extractLsb' 11 1)) : immB w = offset x := by
  have himm : (x.extractLsb' 11 1).setWidth 32 <<< 12 ||| (x.extractLsb' 10 1).setWidth 32 <<< 11 |||
      (x.extractLsb' 4 6).setWidth 32 <<< 5 ||| (x.extractLsb' 0 4).setWidth 32 <<< 1 =
      (x ++ 0#1).setWidth 32 := by
    apply BitVec.eq_of_getLsbD_eq
    intro i hi
    simp only [BitVec.getLsbD_or, BitVec.getLsbD_shiftLeft, BitVec.getLsbD_setWidth,
      BitVec.getLsbD_extractLsb', BitVec.getLsbD_append]
    interval_cases i <;> simp
  simp only [immB, extractBits_eq h12 31 rfl (by decide) (by decide),
    extractBits_eq hmid 30 rfl (by decide) (by decide),
    extractBits_eq hlow 11 rfl (by decide) (by decide),
    extractBits_eq h11 7 rfl (by decide) (by decide), himm]
  exact signExtend_offset x (by decide)

theorem immJ_eq {x : BitVec 20} (h12 : HasField w 12 (x.extractLsb' 11 8))
    (h11 : HasField w 20 (x.extractLsb' 10 1)) (hlow : HasField w 21 (x.extractLsb' 0 10))
    (h20 : HasField w 31 (x.extractLsb' 19 1)) : immJ w = offset x := by
  have himm : (x.extractLsb' 19 1).setWidth 32 <<< 20 ||| (x.extractLsb' 11 8).setWidth 32 <<< 12 |||
      (x.extractLsb' 10 1).setWidth 32 <<< 11 ||| (x.extractLsb' 0 10).setWidth 32 <<< 1 =
      (x ++ 0#1).setWidth 32 := by
    apply BitVec.eq_of_getLsbD_eq
    intro i hi
    simp only [BitVec.getLsbD_or, BitVec.getLsbD_shiftLeft, BitVec.getLsbD_setWidth,
      BitVec.getLsbD_extractLsb', BitVec.getLsbD_append]
    interval_cases i <;> simp
  simp only [immJ, extractBits_eq h20 31 rfl (by decide) (by decide),
    extractBits_eq hlow 30 rfl (by decide) (by decide),
    extractBits_eq h11 20 rfl (by decide) (by decide),
    extractBits_eq h12 19 rfl (by decide) (by decide), himm]
  exact signExtend_offset x (by decide)

end Decoder

end Rv32umos
