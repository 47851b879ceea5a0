import Rv32umos.Common
import Rv32umos.Lib.Decimal

/-!
# Printing numbers

`putint` of `user/lib/stdio.c`. An `int` and an `unsigned int` are words; the buffer starts with
whatever the stack holds, and an index outside of it is undefined behaviour. The digit loop ends
because every round divides `u` by 10, and writes the digits of `u` from the end of the buffer
backwards (`digitLoop_eq`).
-/

namespace Rv32umos

namespace Stdio

/-- `char buffer[12]`. -/
abbrev Buffer := Vector Byte 12

/-- `buffer[idx] = c`. -/
def store (buffer : Buffer) (idx : Int) (c : Byte) : Except Halt Buffer :=
  if h : 0 ≤ idx ∧ idx.toNat < 12 then .ok (buffer.set idx.toNat c h.2)
  else .error (.undefined "buffer index")

/-- The bytes that `write(STDOUT, &buffer[idx], count)` is passed. -/
def passed (buffer : Buffer) (idx count : Int) : Except Halt (List Byte) :=
  if 0 ≤ idx ∧ 0 ≤ count ∧ idx + count ≤ 12 then
    .ok ((buffer.toList.drop idx.toNat).take count.toNat)
  else .error (.undefined "buffer range")

/-- `while (u > 0) { buffer[--idx] = (char)('0' + (u % 10)); u /= 10; }`. -/
def digitLoop (u : Word) (buffer : Buffer) (idx : Int) : Except Halt (Buffer × Int) :=
  if h : u.toNat > 0 then do
    let idx := idx - 1
    let buffer ← store buffer idx ((0x30 + u % 10).setWidth 8)
    digitLoop (u / 10) buffer idx
  else .ok (buffer, idx)
termination_by u.toNat
decreasing_by
  rw [BitVec.toNat_udiv]
  exact Nat.div_lt_self h (by decide)

/-- `putint`: the bytes that it passes to `write`. -/
def putint (buffer : Buffer) (n : Word) : Except Halt (List Byte) :=
  if n = 0 then do
    let buffer ← store buffer 0 0x30
    passed buffer 0 1
  else do
    let u : Word := if n.toInt < 0 then -(n + 1) + 1 else n
    let (buffer, idx) ← digitLoop u buffer 12
    if n.toInt < 0 then
      let idx := idx - 1
      let buffer ← store buffer idx 0x2D
      passed buffer idx (12 - idx)
    else passed buffer idx (12 - idx)

/-! ### The buffer from an index on -/

/-- What the buffer holds from `i` on. -/
def tail (buffer : Buffer) (i : Nat) : List Byte := buffer.toList.drop i

theorem tail_length (buffer : Buffer) (i : Nat) : (tail buffer i).length = 12 - i := by
  rw [tail, List.length_drop, Vector.length_toList]

/-- A store in front of a tail makes the tail longer. -/
theorem store_eq (buffer : Buffer) {i : Nat} (hi : i < 12) (c : Byte) :
    ∃ buffer', store buffer ((i + 1 : Nat) - 1 : Int) c = .ok buffer' ∧
      tail buffer' i = c :: tail buffer (i + 1) := by
  have hidx : ((i + 1 : Nat) - 1 : Int).toNat = i := by omega
  have hin : 0 ≤ ((i + 1 : Nat) - 1 : Int) ∧ ((i + 1 : Nat) - 1 : Int).toNat < 12 := by omega
  refine ⟨_, dif_pos hin, ?_⟩
  have hlength : i < buffer.toList.length := by
    rw [Vector.length_toList]
    exact hi
  unfold tail
  rw [Vector.toList_set, List.drop_set, if_neg (by omega), List.drop_eq_getElem_cons hlength]
  simp only [hidx, Nat.sub_self, List.set_cons_zero]

theorem passed_tail (buffer : Buffer) {i : Nat} (hi : i ≤ 12) :
    passed buffer i (12 - i) = .ok (tail buffer i) := by
  unfold passed
  rw [if_pos (by omega)]
  refine congrArg Except.ok (List.take_of_length_le ?_)
  rw [← tail, tail_length, Int.toNat_natCast]
  omega

/-! ### The digit loop -/

theorem digit_char (u : Word) : ((0x30 + u % 10).setWidth 8 : Byte) = Decimal.digit (u.toNat % 10) := by
  apply BitVec.eq_of_toNat_eq
  have hmod : u.toNat % 10 < 10 := Nat.mod_lt _ (by decide)
  rw [Decimal.digit, BitVec.toNat_setWidth, BitVec.toNat_add, BitVec.toNat_umod, BitVec.toNat_ofNat]
  show (48 + u.toNat % 10) % 2 ^ 32 % 2 ^ 8 = _
  omega

/-- The loop writes the digits of `u` in front of what the buffer holds, if they fit. -/
theorem digitLoop_eq (u : Word) (buffer : Buffer) {i : Nat} (hi : i ≤ 12)
    (hfits : (Decimal.digits u.toNat).length ≤ i) :
    ∃ buffer', digitLoop u buffer i = .ok (buffer', ((i - (Decimal.digits u.toNat).length : Nat) : Int)) ∧
      tail buffer' (i - (Decimal.digits u.toNat).length) = Decimal.digits u.toNat ++ tail buffer i := by
  induction hm : u.toNat using Nat.strong_induction_on generalizing u buffer i with
  | _ m ih =>
    subst hm
    rcases Nat.eq_zero_or_pos u.toNat with hzero | hpos
    · rw [digitLoop, dif_neg (by omega), hzero, Decimal.digits_zero]
      exact ⟨buffer, rfl, rfl⟩
    · -- the loop body writes the last digit, the rest of the loop the ones before it
      have hdigits := Decimal.digits_of_pos hpos
      have hquot : (u / 10).toNat = u.toNat / 10 := BitVec.toNat_udiv
      have hlength : (Decimal.digits u.toNat).length = (Decimal.digits (u.toNat / 10)).length + 1 := by
        rw [hdigits, List.length_append, List.length_singleton]
      obtain ⟨j, rfl⟩ : ∃ j, i = j + 1 := ⟨i - 1, by omega⟩
      obtain ⟨buffer₁, hstore, htail₁⟩ := store_eq buffer (show j < 12 by omega) ((0x30 + u % 10).setWidth 8)
      obtain ⟨buffer₂, hloop, htail₂⟩ := ih (u.toNat / 10) (Nat.div_lt_self hpos (by decide)) (u / 10)
        buffer₁ (show j ≤ 12 by omega) (by rw [hquot]; omega) hquot
      have hidx : j + 1 - (Decimal.digits u.toNat).length = j - (Decimal.digits (u.toNat / 10)).length := by
        omega
      refine ⟨buffer₂, ?_, ?_⟩
      · rw [digitLoop, dif_pos hpos, hidx]
        refine bind_eq_ok.2 ⟨buffer₁, hstore, ?_⟩
        rw [← hloop]
        congr 1
        omega
      · rw [hidx, htail₂, htail₁, digit_char, hdigits, List.append_assoc, List.singleton_append]

/-! ### putint -/

/-- The magnitude of a negative `int`, also of the least one. -/
theorem magnitude_of_neg {n : Word} (h : n.toInt < 0) : (-(n + 1) + 1).toNat = n.toInt.natAbs := by
  have hneg : -(n + 1) + 1 = -n := by
    rw [BitVec.neg_add, BitVec.sub_eq_add_neg, BitVec.add_assoc, BitVec.add_comm (-1) 1]
    exact (congrArg (-n + ·) (BitVec.add_right_neg 1)).trans (BitVec.add_zero _)
  rw [hneg, BitVec.toNat_neg]
  rw [BitVec.toInt_eq_toNat_cond] at h ⊢
  have hlt := n.isLt
  split_ifs at h ⊢ <;> omega

theorem magnitude_of_nonneg {n : Word} (h : ¬ n.toInt < 0) : n.toNat = n.toInt.natAbs := by
  rw [BitVec.toInt_eq_toNat_cond] at h ⊢
  have hlt := n.isLt
  split_ifs at h ⊢ <;> omega

/-- The loop and a `write` of what it leaves. -/
theorem digitLoop_fits {u : Word} {m : Nat} (hu : u.toNat = m) (buffer : Buffer) :
    ∃ buffer' i, digitLoop u buffer 12 = .ok (buffer', ((i : Nat) : Int)) ∧ 1 < i ∧ i ≤ 12 ∧
      tail buffer' i = Decimal.digits m := by
  subst hu
  have hlt := u.isLt
  have hlength : (Decimal.digits u.toNat).length ≤ 10 := Decimal.digits_length_le (by omega)
  obtain ⟨buffer', hloop, htail⟩ := digitLoop_eq u buffer le_rfl (hlength.trans (by decide))
  refine ⟨buffer', _, hloop, by omega, by omega, ?_⟩
  have hend : tail buffer 12 = [] := List.length_eq_zero_iff.1 (tail_length buffer 12)
  rw [htail, hend, List.append_nil]

/-- `putint` passes to `write` the canonical decimal numeral of `n`, whatever was in the buffer. -/
theorem putint_prints (buffer : Buffer) (n : Word) :
    putint buffer n = .ok (Decimal.ofInt n.toInt) ∧
      Decimal.Canonical (Decimal.ofInt n.toInt) n.toInt := by
  refine ⟨?_, Decimal.canonical_ofInt n.toInt⟩
  unfold putint
  by_cases hzero : n = 0
  · subst hzero
    obtain ⟨buffer', hstore, htail⟩ := store_eq buffer (show 0 < 12 by decide) 0x30
    have hpassed : passed buffer' 0 1 = .ok [0x30] := by
      unfold passed
      rw [if_pos (by decide)]
      exact congrArg (fun bytes => Except.ok (List.take 1 bytes)) htail
    rw [if_pos rfl]
    exact bind_eq_ok.2 ⟨buffer', hstore, hpassed⟩
  · have hpos : 0 < n.toInt.natAbs := by
      refine Int.natAbs_pos.2 fun h => hzero (BitVec.eq_of_toInt_eq ?_)
      rw [h]
      rfl
    rw [if_neg hzero]
    unfold Decimal.ofInt
    rw [Decimal.ofNat_of_pos hpos]
    by_cases hneg : n.toInt < 0
    · obtain ⟨buffer₁, i, hloop, hlow, hhigh, htail⟩ := digitLoop_fits (magnitude_of_neg hneg) buffer
      obtain ⟨j, rfl⟩ : ∃ j, i = j + 1 := ⟨i - 1, by omega⟩
      obtain ⟨buffer₂, hstore, htail₂⟩ := store_eq buffer₁ (show j < 12 by omega) 0x2D
      have hidx : ((j + 1 : Nat) - 1 : Int) = j := by omega
      simp only [if_pos hneg]
      refine bind_eq_ok.2 ⟨_, hloop, bind_eq_ok.2 ⟨buffer₂, hstore, ?_⟩⟩
      rw [hidx, passed_tail buffer₂ (show j ≤ 12 by omega), htail₂, htail]
      rfl
    · obtain ⟨buffer₁, i, hloop, -, hhigh, htail⟩ := digitLoop_fits (magnitude_of_nonneg hneg) buffer
      simp only [if_neg hneg]
      refine bind_eq_ok.2 ⟨_, hloop, ?_⟩
      dsimp only
      rw [passed_tail buffer₁ hhigh, htail]

end Stdio

end Rv32umos
