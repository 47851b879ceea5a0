import Rv32umos.Lib.Transition

/-!
# A store of named arrays

A store keeps one array for each name, of the size it was created with, and hands out handles, each
with a cursor of its own. An array of `n` entries takes `cost n` of the store's `capacity`. A read
and a write move the entries between the cursor and the end of the array, at most as many as asked
for. A handle that is not open does nothing.
-/

namespace NamedArrays

variable {N B : Type} [DecidableEq N]

structure Store (N B : Type) where
  array : N → Option (List B)
  handle : Nat → Option (N × Nat)
  /-- The next handle. -/
  next : Nat
  used : Nat

inductive Op (N B : Type) where
  | create (name : N) (size : Nat)
  | open (name : N)
  | read (h : Nat) (size : Nat)
  | write (h : Nat) (buffer : List B) (size : Nat)
  | close (h : Nat)

inductive Result (B : Type) where
  | created (success : Bool)
  | opened (h : Option Nat)
  | got (count : Int) (entries : List B)
  | put (count : Int)
  | closed
  /-- There is no such handle. -/
  | invalid
  deriving DecidableEq

namespace Store

def empty : Store N B := ⟨fun _ => none, fun _ => none, 0, 0⟩

/-- The array and the cursor of an open handle. -/
def at? (s : Store N B) (h : Nat) : Option (N × List B × Nat) := do
  let (name, cursor) ← s.handle h
  let array ← s.array name
  some (name, array, cursor)

/-- The store after handle `h` has moved `count` entries on. -/
def advance (s : Store N B) (h : Nat) (name : N) (cursor : Nat) : Store N B :=
  { s with handle := Function.update s.handle h (some (name, cursor)) }

/-- An array with `part` laid over it from `cursor` on. -/
def splice (array : List B) (cursor : Nat) (part : List B) : List B :=
  array.take cursor ++ part ++ array.drop (cursor + part.length)

variable (blank : B) (cost : Nat → Nat) (capacity : Nat)

def exec (s : Store N B) : Op N B → Result B × Store N B
  | .create name size =>
    if (s.array name).isSome ∨ s.used + cost size > capacity then (.created false, s)
    else
      (.created true,
        { s with
          array := Function.update s.array name (some (List.replicate size blank))
          used := s.used + cost size })
  | .open name =>
    if (s.array name).isSome then
      (.opened s.next,
        { s with handle := Function.update s.handle s.next (some (name, 0)), next := s.next + 1 })
    else (.opened none, s)
  | .read h size =>
    match s.at? h with
    | none => (.invalid, s)
    | some (name, array, cursor) =>
      let count := min size (array.length - cursor)
      (.got count ((array.drop cursor).take count), s.advance h name (cursor + count))
  | .write h buffer size =>
    match s.at? h with
    | none => (.invalid, s)
    | some (name, array, cursor) =>
      let count := min size (array.length - cursor)
      (.put count,
        { s.advance h name (cursor + count) with
          array := Function.update s.array name (some (splice array cursor (buffer.take count))) })
  | .close h =>
    match s.handle h with
    | none => (.invalid, s)
    | some _ => (.closed, { s with handle := Function.update s.handle h none })

/-- An operation with its result. -/
def step (s : Store N B) (e : Op N B × Result B) (s' : Store N B) : Prop :=
  s.exec blank cost capacity e.1 = (e.2, s')

end Store

end NamedArrays
