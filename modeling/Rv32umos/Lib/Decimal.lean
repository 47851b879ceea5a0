import Mathlib.Data.Nat.Digits.Lemmas
import Mathlib.Tactic

/-!
# Decimal numerals in ASCII

`Decimal.ofInt n` is the canonical numeral of an integer: a minus sign exactly when it is negative,
no leading zero, and `0` for zero. `Decimal.parse` reads a numeral back (`parse_ofInt`).
-/

namespace Decimal

/-- The ASCII code of a digit. -/
def digit (d : Nat) : BitVec 8 := BitVec.ofNat 8 (48 + d)

def minus : BitVec 8 := 0x2D

/-- The digits of a number, the first one first. None for 0. -/
def digits (m : Nat) : List (BitVec 8) := ((Nat.digits 10 m).map digit).reverse

def ofNat (m : Nat) : List (BitVec 8) := if m = 0 then [digit 0] else digits m

def ofInt (n : Int) : List (BitVec 8) := if n < 0 then minus :: ofNat n.natAbs else ofNat n.natAbs

/-- One more digit at the end of a number. -/
def push (m : Option Nat) (b : BitVec 8) : Option Nat :=
  if 48 ≤ b.toNat ∧ b.toNat ≤ 57 then m.map fun m => 10 * m + (b.toNat - 48) else none

def parseNat : List (BitVec 8) → Option Nat
  | [] => none
  | b :: bs => (b :: bs).foldl push (some 0)

def parse : List (BitVec 8) → Option Int
  | [] => none
  | b :: bs =>
    if b = minus then (parseNat bs).map fun m => -Int.ofNat m else (parseNat (b :: bs)).map Int.ofNat

theorem digit_toNat {d : Nat} (h : d < 10) : (digit d).toNat = 48 + d := by
  rw [digit, BitVec.toNat_ofNat]
  omega

theorem push_digit {d : Nat} (h : d < 10) (m : Nat) : push (some m) (digit d) = some (10 * m + d) := by
  unfold push
  rw [digit_toNat h, if_pos (by omega), Option.map_some, Nat.add_sub_cancel_left]

theorem digits_zero : digits 0 = [] := rfl

theorem digits_of_pos {m : Nat} (h : 0 < m) : digits m = digits (m / 10) ++ [digit (m % 10)] := by
  rw [digits, Nat.digits_def' (by decide) h, List.map_cons, List.reverse_cons]
  rfl

theorem digits_ne_nil {m : Nat} (h : 0 < m) : digits m ≠ [] := by
  rw [digits_of_pos h]
  exact List.append_ne_nil_of_right_ne_nil _ (List.cons_ne_nil _ _)

/-- Reading the digits of a number gives the number. -/
theorem foldl_digits (m : Nat) : (digits m).foldl push (some 0) = some m := by
  induction m using Nat.strong_induction_on with
  | _ m ih =>
    rcases Nat.eq_zero_or_pos m with rfl | hpos
    · rfl
    · rw [digits_of_pos hpos, List.foldl_append, ih (m / 10) (by omega), List.foldl_cons,
        push_digit (Nat.mod_lt m (by decide)), List.foldl_nil]
      congr 1
      omega

theorem digits_length_le {m k : Nat} (h : m < 10 ^ k) : (digits m).length ≤ k := by
  rw [digits, List.length_reverse, List.length_map]
  exact (Nat.digits_length_le_iff (by decide) m).2 h

/-- The first digit of a positive number is not 0. -/
theorem digits_head {m : Nat} (h : 0 < m) : (digits m).head? ≠ some (digit 0) := by
  induction m using Nat.strong_induction_on with
  | _ m ih =>
    rw [digits_of_pos h]
    rcases Nat.eq_zero_or_pos (m / 10) with hzero | hpos
    · rw [hzero, digits_zero, List.nil_append, List.head?_cons]
      intro heq
      have hcode := congrArg BitVec.toNat (Option.some.inj heq)
      rw [digit_toNat (Nat.mod_lt m (by decide)), digit_toNat (by decide)] at hcode
      omega
    · rw [List.head?_append_of_ne_nil _ (digits_ne_nil hpos)]
      exact ih (m / 10) (by omega) hpos

theorem ofNat_of_pos {m : Nat} (h : 0 < m) : ofNat m = digits m := if_neg (Nat.ne_of_gt h)

theorem parseNat_of_ne_nil {bs : List (BitVec 8)} (h : bs ≠ []) : parseNat bs = bs.foldl push (some 0) := by
  cases bs with
  | nil => exact absurd rfl h
  | cons b bs => rfl

theorem parseNat_ofNat (m : Nat) : parseNat (ofNat m) = some m := by
  rcases Nat.eq_zero_or_pos m with rfl | hpos
  · rfl
  · rw [ofNat_of_pos hpos, parseNat_of_ne_nil (digits_ne_nil hpos)]
    exact foldl_digits m

/-- A numeral without a sign starts with a digit. -/
theorem ofNat_cons (m : Nat) : ∃ b bs, ofNat m = b :: bs ∧ b ≠ minus := by
  rcases Nat.eq_zero_or_pos m with rfl | hpos
  · exact ⟨digit 0, [], rfl, by decide⟩
  · have hparse := parseNat_ofNat m
    cases hm : ofNat m with
    | nil =>
      rw [ofNat_of_pos hpos] at hm
      exact absurd hm (digits_ne_nil hpos)
    | cons b bs =>
      refine ⟨b, bs, rfl, ?_⟩
      rintro rfl
      have hnone : ∀ bs : List (BitVec 8), bs.foldl push none = none := by
        intro bs
        induction bs with
        | nil => rfl
        | cons b bs ih =>
          have hpush : push none b = none := by
            unfold push
            split_ifs <;> rfl
          rw [List.foldl_cons, hpush, ih]
      rw [hm, parseNat, List.foldl_cons, show push (some 0) minus = none from rfl, hnone] at hparse
      cases hparse

theorem parse_ofInt (n : Int) : parse (ofInt n) = some n := by
  unfold ofInt
  split_ifs with hneg
  · rw [parse, if_pos rfl, parseNat_ofNat, Option.map_some, Int.ofNat_eq_natCast]
    congr 1
    omega
  · obtain ⟨b, bs, hm, hb⟩ := ofNat_cons n.natAbs
    rw [hm, parse, if_neg hb, ← hm, parseNat_ofNat, Option.map_some]
    congr 1
    exact Int.natAbs_of_nonneg (Int.not_lt.1 hneg)

theorem ofNat_digits (m : Nat) : ∀ b ∈ ofNat m, ∃ d < 10, b = digit d := by
  intro b hb
  rcases Nat.eq_zero_or_pos m with rfl | hpos
  · exact ⟨0, by decide, List.mem_singleton.1 hb⟩
  · rw [ofNat_of_pos hpos, digits, List.mem_reverse, List.mem_map] at hb
    obtain ⟨d, hd, rfl⟩ := hb
    exact ⟨d, Nat.digits_lt_base (by decide) hd, rfl⟩

/-- `bytes` is the canonical numeral of `n`: a sign exactly when `n` is negative, then digits, without
a leading zero except for the numeral `0`, and it reads as `n`. -/
structure Canonical (bytes : List (BitVec 8)) (n : Int) : Prop where
  shape : ∃ ds, bytes = (if n < 0 then [minus] else []) ++ ds ∧ ds ≠ [] ∧
    (∀ b ∈ ds, ∃ d < 10, b = digit d) ∧ (ds.head? = some (digit 0) → n = 0 ∧ bytes = [digit 0])
  value : parse bytes = some n

theorem canonical_ofInt (n : Int) : Canonical (ofInt n) n := by
  refine ⟨⟨ofNat n.natAbs, ?_, ?_, ofNat_digits n.natAbs, fun hhead => ?_⟩, parse_ofInt n⟩
  · unfold ofInt
    split_ifs <;> rfl
  · obtain ⟨b, bs, hm, -⟩ := ofNat_cons n.natAbs
    rw [hm]
    exact List.cons_ne_nil b bs
  · rcases Nat.eq_zero_or_pos n.natAbs with hzero | hpos
    · obtain rfl := Int.natAbs_eq_zero.1 hzero
      exact ⟨rfl, rfl⟩
    · rw [ofNat_of_pos hpos] at hhead
      exact absurd hhead (digits_head hpos)

end Decimal
