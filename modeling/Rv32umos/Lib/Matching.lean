import Mathlib.Tactic

/-!
# Resources and the owners that hold them

`Matched owner holds`: a resource has at most one owner and an owner holds at most one resource, and
the two tables agree (the law of Mathlib's `PEquiv`, for two tables that a program keeps in
different places). Handing a resource out and taking it back change both tables at one place
(`Matched.assign`, `Matched.release`).
-/

variable {R O : Type}

def Matched (owner : R → Option O) (holds : O → Option R) : Prop :=
  ∀ r o, owner r = some o ↔ holds o = some r

namespace Matched

variable {owner : R → Option O} {holds : O → Option R} {r r' : R} {o o' : O}

/-- Two owners never hold one resource. -/
theorem inj (h : Matched owner holds) (ho : holds o = some r) (ho' : holds o' = some r) : o = o' :=
  Option.some.inj (((h r o).2 ho).symm.trans ((h r o').2 ho'))

theorem not_held (h : Matched owner holds) (hr : owner r = none) (o : O) : holds o ≠ some r := by
  intro ho
  rw [(h r o).2 ho] at hr
  cases hr

theorem not_owned (h : Matched owner holds) (ho : holds o = none) (r : R) : owner r ≠ some o := by
  intro hr
  rw [(h r o).1 hr] at ho
  cases ho

theorem empty : Matched (fun _ : R => none) (fun _ : O => none) :=
  fun _ _ => ⟨nofun, nofun⟩

variable [DecidableEq R] [DecidableEq O]

/-- A free resource goes to an owner that holds none. -/
theorem assign (h : Matched owner holds) (hr : owner r = none) (ho : holds o = none) :
    Matched (Function.update owner r (some o)) (Function.update holds o (some r)) := by
  intro r' o'
  by_cases hrr : r' = r
  · subst hrr
    by_cases hoo : o' = o
    · subst hoo
      simp only [Function.update_self]
    · rw [Function.update_self, Function.update_of_ne hoo]
      exact ⟨fun heq => absurd (Option.some.inj heq).symm hoo,
        fun heq => absurd heq (h.not_held hr o')⟩
  · rw [Function.update_of_ne hrr]
    by_cases hoo : o' = o
    · subst hoo
      rw [Function.update_self]
      exact ⟨fun heq => absurd heq (h.not_owned ho r'),
        fun heq => absurd (Option.some.inj heq).symm hrr⟩
    · rw [Function.update_of_ne hoo]
      exact h r' o'

/-- A held resource is given back. -/
theorem release (h : Matched owner holds) (hr : holds o = some r) :
    Matched (Function.update owner r none) (Function.update holds o none) := by
  intro r' o'
  by_cases hrr : r' = r
  · subst hrr
    rw [Function.update_self]
    by_cases hoo : o' = o
    · subst hoo
      rw [Function.update_self]
      exact ⟨nofun, nofun⟩
    · rw [Function.update_of_ne hoo]
      exact ⟨nofun, fun heq => absurd (h.inj heq hr) hoo⟩
  · rw [Function.update_of_ne hrr]
    by_cases hoo : o' = o
    · subst hoo
      rw [Function.update_self]
      refine ⟨fun heq => absurd ?_ hrr, nofun⟩
      exact Option.some.inj (((h r' o').1 heq).symm.trans hr)
    · rw [Function.update_of_ne hoo]
      exact h r' o'

end Matched
