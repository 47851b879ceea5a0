import Mathlib.Tactic

/-!
# Bytes, little-endian words and overlays

`assemble byte n` is the word whose byte `i` is `byte i` for `i < n` and 0 above; `byteAt v i` is
byte `i` of a word. `overlay mem start n f` is a byte-addressed memory with `n` bytes replaced from
`start` on, and `slice mem start n` lists the `n` bytes from `start` on.
-/

namespace Bytes

abbrev Byte := BitVec 8

/-- Byte `i` of `v`, counted from the lowest. -/
def byteAt (v : BitVec 32) (i : Nat) : Byte := v.extractLsb' (8 * i) 8

def assemble (byte : Nat → Byte) : Nat → BitVec 32
  | 0 => 0
  | n + 1 => assemble byte n ||| (byte n).setWidth 32 <<< (n * 8)

theorem getLsbD_assemble (byte : Nat → Byte) (n i : Nat) (hi : i < 32) :
    (assemble byte n).getLsbD i = (decide (i < 8 * n) && (byte (i / 8)).getLsbD (i % 8)) := by
  induction n with
  | zero => simp [assemble]
  | succ n ih =>
    simp only [assemble, BitVec.getLsbD_or, ih, BitVec.getLsbD_shiftLeft, BitVec.getLsbD_setWidth,
      hi, decide_true, Bool.true_and]
    rcases Nat.lt_or_ge i (8 * n) with h | h
    · have h1 : i < n * 8 := by omega
      have h2 : i < 8 * (n + 1) := by omega
      simp [h, h1, h2]
    · rcases Nat.lt_or_ge i (8 * (n + 1)) with h' | h'
      · have h1 : ¬ i < 8 * n := by omega
        have h2 : ¬ i < n * 8 := by omega
        have h3 : i % 8 < 32 := by omega
        have h4 : i / 8 = n := by omega
        have h5 : i - n * 8 = i % 8 := by omega
        simp [h1, h2, h', h3, h4, h5]
      · have h1 : ¬ i < 8 * n := by omega
        have h2 : ¬ i < 8 * (n + 1) := by omega
        have h3 : (byte n).getLsbD (i - n * 8) = false := BitVec.getLsbD_of_ge _ _ (by omega)
        simp [h1, h2, h3]

theorem byteAt_assemble (byte : Nat → Byte) {n i : Nat} (hi : i < n) (hn : n ≤ 4) :
    byteAt (assemble byte n) i = byte i := by
  apply BitVec.eq_of_getLsbD_eq
  intro j hj
  rw [byteAt, BitVec.getLsbD_extractLsb', getLsbD_assemble _ _ _ (by omega)]
  have h1 : 8 * i + j < 8 * n := by omega
  have h2 : (8 * i + j) / 8 = i := by omega
  have h3 : (8 * i + j) % 8 = j := by omega
  simp [hj, h1, h2, h3]

theorem assemble_congr {f g : Nat → Byte} {n : Nat} (h : ∀ i < n, f i = g i) :
    assemble f n = assemble g n := by
  induction n with
  | zero => rfl
  | succ n ih => rw [assemble, assemble, ih fun i hi => h i (by omega), h n (by omega)]

/-- `mem` with the `n` bytes from `start` on replaced by `f 0`, `f 1`, ... -/
def overlay (mem : Nat → Byte) (start n : Nat) (f : Nat → Byte) (a : Nat) : Byte :=
  if start ≤ a ∧ a < start + n then f (a - start) else mem a

theorem overlay_zero (mem : Nat → Byte) (start : Nat) (f : Nat → Byte) :
    overlay mem start 0 f = mem := by
  funext a
  exact if_neg (by omega)

theorem overlay_in (mem : Nat → Byte) {start n i : Nat} (f : Nat → Byte) (hi : i < n) :
    overlay mem start n f (start + i) = f i := by
  rw [overlay, if_pos (by omega), Nat.add_sub_cancel_left]

theorem overlay_out (mem : Nat → Byte) {start n a : Nat} (f : Nat → Byte)
    (h : a < start ∨ start + n ≤ a) : overlay mem start n f a = mem a :=
  if_neg (by omega)

/-- An overlay does not reach out of a range that it lies in. -/
theorem overlay_outside (mem : Nat → Byte) {start n lo hi a : Nat} (f : Nat → Byte)
    (hlo : lo ≤ start) (hhi : start + n ≤ hi) (h : a < lo ∨ hi ≤ a) :
    overlay mem start n f a = mem a :=
  overlay_out mem f (by omega)

theorem overlay_congr (mem : Nat → Byte) {start n : Nat} {f g : Nat → Byte}
    (h : ∀ i < n, f i = g i) : overlay mem start n f = overlay mem start n g := by
  funext a
  unfold overlay
  split_ifs with ha
  · exact h _ (by omega)
  · rfl

/-- One more byte at the end. -/
theorem update_overlay (mem : Nat → Byte) (start n : Nat) (f : Nat → Byte) :
    Function.update (overlay mem start n f) (start + n) (f n) = overlay mem start (n + 1) f := by
  funext a
  by_cases ha : a = start + n
  · subst ha
    rw [Function.update_self, overlay_in _ _ (by omega)]
  · rw [Function.update_of_ne ha]
    unfold overlay
    split_ifs <;> first | rfl | omega

/-- One byte laid over is one byte updated. -/
theorem overlay_one (mem : Nat → Byte) (start : Nat) (f : Nat → Byte) :
    overlay mem start 1 f = Function.update mem start (f 0) := by
  have h := update_overlay mem start 0 f
  rw [overlay_zero] at h
  exact h.symm

/-- An overlay and the one that follows it. -/
theorem overlay_append (mem : Nat → Byte) (start a b : Nat) (f : Nat → Byte) :
    overlay (overlay mem start a f) (start + a) b (fun i => f (a + i)) = overlay mem start (a + b) f := by
  funext x
  unfold overlay
  split_ifs with h h' h' h'
  · exact congrArg f (by omega)
  · omega
  · rfl
  · omega
  · omega
  · rfl

/-! ### Slices -/

/-- The `n` bytes from `start` on. -/
def slice (mem : Nat → Byte) (start n : Nat) : List Byte := (List.range n).map fun i => mem (start + i)

@[simp] theorem length_slice (mem : Nat → Byte) (start n : Nat) : (slice mem start n).length = n := by
  rw [slice, List.length_map, List.length_range]

theorem getElem?_slice (mem : Nat → Byte) (start : Nat) {n i : Nat} (hi : i < n) :
    (slice mem start n)[i]? = some (mem (start + i)) := by
  rw [slice, List.getElem?_map, List.getElem?_range hi]
  rfl

theorem slice_getD (mem : Nat → Byte) (start : Nat) {n i : Nat} (hi : i < n) :
    (slice mem start n).getD i 0 = mem (start + i) := by
  rw [List.getD_eq_getElem?_getD, getElem?_slice mem start hi, Option.getD_some]

theorem slice_congr {mem mem' : Nat → Byte} {start n : Nat}
    (h : ∀ i < n, mem (start + i) = mem' (start + i)) : slice mem start n = slice mem' start n :=
  List.map_congr_left fun i hi => h i (List.mem_range.1 hi)

theorem slice_eq_replicate {mem : Nat → Byte} {start n : Nat}
    (h : ∀ i < n, mem (start + i) = 0) : slice mem start n = List.replicate n 0 := by
  apply List.ext_getElem?
  intro i
  by_cases hi : i < n
  · rw [getElem?_slice mem start hi, h i hi, List.getElem?_replicate_of_lt hi]
  · rw [List.getElem?_eq_none (by simpa using hi), List.getElem?_eq_none (by simpa using hi)]

theorem slice_append (mem : Nat → Byte) (start a b : Nat) :
    slice mem start (a + b) = slice mem start a ++ slice mem (start + a) b := by
  unfold slice
  rw [List.range_add, List.map_append, List.map_map]
  refine congrArg _ (List.map_congr_left fun i _ => ?_)
  rw [Function.comp, Nat.add_assoc]

theorem slice_take (mem : Nat → Byte) (start : Nat) {a n : Nat} (h : a ≤ n) :
    (slice mem start n).take a = slice mem start a := by
  obtain ⟨b, rfl⟩ := Nat.exists_eq_add_of_le h
  rw [slice_append, List.take_left' (length_slice _ _ _)]

theorem slice_drop (mem : Nat → Byte) (start : Nat) {a n : Nat} (h : a ≤ n) :
    (slice mem start n).drop a = slice mem (start + a) (n - a) := by
  obtain ⟨b, rfl⟩ := Nat.exists_eq_add_of_le h
  rw [slice_append, List.drop_left' (length_slice _ _ _), Nat.add_sub_cancel_left]

/-- A slice of an overlay: the bytes before, those laid over, and the bytes after. -/
theorem slice_overlay (mem : Nat → Byte) (start : Nat) {a n size : Nat} (f : Nat → Byte)
    (h : a + n ≤ size) : slice (overlay mem (start + a) n f) start size =
      slice mem start a ++ slice f 0 n ++ slice mem (start + (a + n)) (size - (a + n)) := by
  obtain ⟨b, rfl⟩ := Nat.exists_eq_add_of_le h
  rw [slice_append, slice_append, Nat.add_sub_cancel_left]
  congr 1
  · congr 1
    · exact slice_congr fun i hi => overlay_out _ _ (by omega)
    · refine List.map_congr_left fun i hi => ?_
      rw [overlay_in _ _ (List.mem_range.1 hi), Nat.zero_add]
  · exact slice_congr fun i hi => overlay_out _ _ (by omega)

theorem take_eq_slice (l : List Byte) {n : Nat} (h : n ≤ l.length) :
    l.take n = slice (fun i => l.getD i 0) 0 n := by
  refine List.ext_getElem? fun i => ?_
  by_cases hi : i < n
  · rw [List.getElem?_take_of_lt hi, getElem?_slice _ _ hi, Nat.zero_add, List.getD_eq_getElem?_getD,
      List.getElem?_eq_getElem (by omega), Option.getD_some]
  · rw [List.getElem?_eq_none, List.getElem?_eq_none]
    · rw [length_slice]
      omega
    · rw [List.length_take]
      omega

theorem byteAt_zero (v : BitVec 32) : byteAt v 0 = v.setWidth 8 := by
  apply BitVec.eq_of_getLsbD_eq
  intro i hi
  simp [byteAt, hi]

end Bytes
