import Mathlib.Tactic

/-!
# Flat memories

What programs expect of a memory: every owner has its own addresses, a byte that has been stored to
holds what was stored last, and a byte that has not holds its initial image, which may leave it
unspecified. `covers` says that a piece of real storage holds what the memory says; a store to the
piece and to the memory keeps it (`covers_store`). `Admits` says the same of everything an owner sees.
An owner can start over (`renew`), and a transfer may deliver some bytes and lose others (`Patched`).
-/

/-- Addresses of owners in `P`, with contents in `B`. -/
structure FlatMemory (P B : Type) where
  stored : P → Nat → Option B
  image : P → Nat → Option B

namespace FlatMemory

variable {P B : Type} (m : FlatMemory P B) (p p' : P) (a : Nat)

/-- What a read must return; `none` when anything goes. -/
def read : Option B := (m.stored p a).or (m.image p a)

theorem read_of_stored {b : B} (h : m.stored p a = some b) : m.read p a = some b := by
  rw [read, h, Option.some_or]

theorem read_of_unstored (h : m.stored p a = none) : m.read p a = m.image p a := by
  rw [read, h, Option.none_or]

/-- The `size` bytes `cell 0`, `cell 1`, ... hold what owner `p` expects from `base` on. -/
def covers (base size : Nat) (cell : Nat → B) : Prop :=
  ∀ i < size, ∀ b, m.read p (base + i) = some b → cell i = b

variable {m p} in
theorem covers_congr {base size : Nat} {cell cell' : Nat → B} (h : m.covers p base size cell)
    (heq : ∀ i < size, cell' i = cell i) : m.covers p base size cell' := by
  intro i hi b hb
  rw [heq i hi]
  exact h i hi b hb

variable [DecidableEq P] (start n : Nat) (f : Nat → B)

/-- Owner `p` stores `f 0`, ..., `f (n - 1)` from `start` on. -/
def store : FlatMemory P B where
  stored p' a := if p' = p ∧ start ≤ a ∧ a < start + n then some (f (a - start)) else m.stored p' a
  image := m.image

@[simp] theorem store_image : (m.store p start n f).image = m.image := rfl

theorem stored_store_in {i : Nat} (hi : i < n) :
    (m.store p start n f).stored p (start + i) = some (f i) := by
  have hrange : start ≤ start + i ∧ start + i < start + n := by omega
  simp only [store, hrange, and_self, if_true, Nat.add_sub_cancel_left]

theorem stored_store_out (h : p' = p → a < start ∨ start + n ≤ a) :
    (m.store p start n f).stored p' a = m.stored p' a := by
  have hout : ¬ (p' = p ∧ start ≤ a ∧ a < start + n) := by
    rintro ⟨hp, hrange⟩
    have := h hp
    omega
  simp only [store, hout, if_false]

theorem read_store_in {i : Nat} (hi : i < n) :
    (m.store p start n f).read p (start + i) = some (f i) :=
  read_of_stored _ _ _ (stored_store_in m p start n f hi)

theorem read_store_out (h : p' = p → a < start ∨ start + n ≤ a) :
    (m.store p start n f).read p' a = m.read p' a := by
  rw [read, stored_store_out m p p' a start n f h, store_image, read]

variable {m p}

/-- A store inside the piece, made in both. -/
theorem covers_store {base size off n : Nat} {f : Nat → B} {cell cell' : Nat → B}
    (h : m.covers p base size cell) (hin : ∀ i < n, cell' (off + i) = f i)
    (hout : ∀ i < size, i < off ∨ off + n ≤ i → cell' i = cell i) :
    (m.store p (base + off) n f).covers p base size cell' := by
  intro i hi b hb
  by_cases hrange : off ≤ i ∧ i < off + n
  · have hsum : base + i = base + off + (i - off) := by omega
    have hread := read_store_in m p (base + off) n f (i := i - off) (by omega)
    rw [hsum, hread] at hb
    have hcell := hin (i - off) (by omega)
    rw [Nat.add_sub_cancel' hrange.1] at hcell
    rw [hcell]
    exact Option.some.inj hb
  · have hi' : i < off ∨ off + n ≤ i := by omega
    rw [read_store_out m p p _ (base + off) n f fun _ => by omega] at hb
    rw [hout i hi hi']
    exact h i hi b hb

/-- A store elsewhere does not matter. -/
theorem covers_store_other {p' : P} {base size start n : Nat} {f : Nat → B} {cell : Nat → B}
    (h : m.covers p' base size cell)
    (hother : p' = p → base + size ≤ start ∨ start + n ≤ base) :
    (m.store p start n f).covers p' base size cell := by
  intro i hi b hb
  rw [read_store_out m p p' _ start n f fun hp => by have := hother hp; omega] at hb
  exact h i hi b hb

/-! ### Views, new owners and transfers -/

variable (m p)

/-- `mem` is a memory that owner `p` may see. -/
def Admits (mem : Nat → B) : Prop := ∀ a b, m.read p a = some b → mem a = b

/-- Owner `p` starts over with another image. -/
def renew (image : Nat → Option B) : FlatMemory P B where
  stored := Function.update m.stored p fun _ => none
  image := Function.update m.image p image

/-- Owner `p` has received bytes of `data`, each at its place or not at all. -/
structure Patched (m' : FlatMemory P B) (place : Nat → Nat) (data : List B) : Prop where
  image : m'.image = m.image
  stored : ∀ p' a, m'.stored p' a = m.stored p' a ∨
    (p' = p ∧ ∃ i b, data[i]? = some b ∧ a = place i ∧ m'.stored p' a = some b)

variable {m p}

theorem renew_self (image : Nat → Option B) :
    (m.renew p image).stored p = (fun _ => none) ∧ (m.renew p image).image p = image :=
  ⟨Function.update_self _ _ _, Function.update_self _ _ _⟩

theorem renew_ne {p' : P} (hp : p' ≠ p) (image : Nat → Option B) :
    (m.renew p image).stored p' = m.stored p' ∧ (m.renew p image).image p' = m.image p' :=
  ⟨Function.update_of_ne hp _ _, Function.update_of_ne hp _ _⟩

omit [DecidableEq P] in
theorem Patched.refl (place : Nat → Nat) (data : List B) : m.Patched p m place data :=
  ⟨rfl, fun _ _ => .inl rfl⟩

/-- The first byte is delivered or lost, and then the others. -/
theorem Patched.cons {m₁ m' : FlatMemory P B} {place : Nat → Nat} {rest : List B} {f : Nat → B}
    (hfirst : m₁ = m ∨ m₁ = m.store p (place 0) 1 f)
    (hrest : m₁.Patched p m' (fun i => place (i + 1)) rest) : m.Patched p m' place (f 0 :: rest) := by
  have himage : m₁.image = m.image := by
    rcases hfirst with rfl | rfl
    · rfl
    · rfl
  refine ⟨hrest.image.trans himage, fun p' a => ?_⟩
  rcases hrest.stored p' a with hsame | ⟨rfl, i, b', hi, rfl, hb'⟩
  · rcases hfirst with rfl | rfl
    · exact .inl hsame
    · by_cases hplace : p' = p ∧ a = place 0
      · obtain ⟨rfl, rfl⟩ := hplace
        have hin := stored_store_in m p' (place 0) 1 f (i := 0) (by omega)
        exact .inr ⟨rfl, 0, f 0, rfl, rfl, hsame.trans hin⟩
      · rw [stored_store_out m p p' a (place 0) 1 _ fun hp => by
          have hne : a ≠ place 0 := fun ha => hplace ⟨hp, ha⟩
          omega] at hsame
        exact .inl hsame
  · exact .inr ⟨rfl, i + 1, b', hi, rfl, hb'⟩

end FlatMemory
