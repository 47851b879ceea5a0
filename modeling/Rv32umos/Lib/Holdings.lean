import Mathlib.Data.Set.Card
import Mathlib.Tactic

/-!
# Resources that are lost

`Holdings used holds lost`: a resource is marked used exactly when one owner holds it or it is lost,
and never both. Handing a resource out and taking it back keep the holdings (`Holdings.take`,
`Holdings.give`). Owners that go without giving back what they hold lose it (`Holdings.abandon`), and
nothing finds it again: what is unused, held and lost adds up to all there is (`Holdings.count`).
-/

variable {R O : Type}

structure Holdings (used : R → Bool) (holds : O → Option R) (lost : Set R) : Prop where
  inj : ∀ o o' r, holds o = some r → holds o' = some r → o = o'
  used_iff : ∀ r, used r = true ↔ (∃ o, holds o = some r) ∨ r ∈ lost
  apart : ∀ r ∈ lost, ∀ o, holds o ≠ some r

namespace Holdings

variable {used : R → Bool} {holds : O → Option R} {lost : Set R} {r : R} {o : O}

theorem empty : Holdings (fun _ : R => false) (fun _ : O => none) ∅ where
  inj o o' r h := by cases h
  used_iff r := by simp
  apart r h := by cases h

theorem not_held (h : Holdings used holds lost) (hr : used r = false) (o : O) : holds o ≠ some r := by
  intro ho
  rw [(h.used_iff r).2 (.inl ⟨o, ho⟩)] at hr
  cases hr

theorem not_lost (h : Holdings used holds lost) (hr : used r = false) : r ∉ lost := by
  intro hlost
  rw [(h.used_iff r).2 (.inr hlost)] at hr
  cases hr

/-- Owners that go lose what they hold. -/
theorem abandon (h : Holdings used holds lost) {gone : O → Prop} {holds' : O → Option R}
    (hgone : ∀ o, gone o → holds' o = none) (hkept : ∀ o, ¬ gone o → holds' o = holds o) :
    Holdings used holds' (lost ∪ {r | ∃ o, gone o ∧ holds o = some r}) := by
  have hheld : ∀ {o r}, holds' o = some r → ¬ gone o ∧ holds o = some r := by
    intro o r ho
    by_cases hg : gone o
    · rw [hgone o hg] at ho
      cases ho
    · exact ⟨hg, hkept o hg ▸ ho⟩
  refine ⟨fun o o' r ho ho' => h.inj o o' r (hheld ho).2 (hheld ho').2, fun r => ?_, fun r hr o ho => ?_⟩
  · rw [h.used_iff]
    constructor
    · rintro (⟨o, ho⟩ | hr)
      · by_cases hg : gone o
        · exact .inr (.inr ⟨o, hg, ho⟩)
        · exact .inl ⟨o, (hkept o hg).trans ho⟩
      · exact .inr (.inl hr)
    · rintro (⟨o, ho⟩ | hr | ⟨o, -, ho⟩)
      · exact .inl ⟨o, (hheld ho).2⟩
      · exact .inr hr
      · exact .inl ⟨o, ho⟩
  · obtain ⟨hstays, ho⟩ := hheld ho
    rcases hr with hr | ⟨o', hg, ho'⟩
    · exact h.apart r hr o ho
    · exact hstays (h.inj o o' r ho ho' ▸ hg)

section
variable [DecidableEq R] [DecidableEq O]

/-- An unused resource goes to an owner that holds none. -/
theorem take (h : Holdings used holds lost) (hr : used r = false) (ho : holds o = none) :
    Holdings (Function.update used r true) (Function.update holds o (some r)) lost := by
  have hheld : ∀ {o' r'}, Function.update holds o (some r) o' = some r' →
      (o' = o ∧ r' = r) ∨ (o' ≠ o ∧ r' ≠ r ∧ holds o' = some r') := by
    intro o' r' ho'
    by_cases hoo : o' = o
    · rw [hoo, Function.update_self] at ho'
      exact .inl ⟨hoo, (Option.some.inj ho').symm⟩
    · rw [Function.update_of_ne hoo] at ho'
      refine .inr ⟨hoo, fun hrr => h.not_held hr o' (hrr ▸ ho'), ho'⟩
  refine ⟨fun o₁ o₂ r' h₁ h₂ => ?_, fun r' => ?_, fun r' hlost o' ho' => ?_⟩
  · rcases hheld h₁ with ⟨rfl, rfl⟩ | ⟨-, hne, h₁⟩ <;> rcases hheld h₂ with ⟨rfl, hrr⟩ | ⟨-, hne', h₂⟩
    · rfl
    · exact absurd rfl hne'
    · exact absurd hrr hne
    · exact h.inj o₁ o₂ r' h₁ h₂
  · by_cases hrr : r' = r
    · subst hrr
      rw [Function.update_self]
      exact iff_of_true rfl (.inl ⟨o, Function.update_self _ _ _⟩)
    · rw [Function.update_of_ne hrr, h.used_iff]
      refine or_congr_left ⟨?_, ?_⟩
      · rintro ⟨o', ho'⟩
        have hne : o' ≠ o := by
          rintro rfl
          rw [ho] at ho'
          cases ho'
        exact ⟨o', (Function.update_of_ne hne _ _).trans ho'⟩
      · rintro ⟨o', ho'⟩
        rcases hheld ho' with ⟨-, heq⟩ | ⟨-, -, ho'⟩
        · exact absurd heq hrr
        · exact ⟨o', ho'⟩
  · rcases hheld ho' with ⟨-, rfl⟩ | ⟨-, -, ho'⟩
    · exact h.not_lost hr hlost
    · exact h.apart r' hlost o' ho'

/-- An owner gives back what it holds. -/
theorem give (h : Holdings used holds lost) (ho : holds o = some r) :
    Holdings (Function.update used r false) (Function.update holds o none) lost := by
  have hheld : ∀ {o' r'}, Function.update holds o none o' = some r' → o' ≠ o ∧ holds o' = some r' := by
    intro o' r' ho'
    by_cases hoo : o' = o
    · rw [hoo, Function.update_self] at ho'
      cases ho'
    · rw [Function.update_of_ne hoo] at ho'
      exact ⟨hoo, ho'⟩
  refine ⟨fun o₁ o₂ r' h₁ h₂ => h.inj o₁ o₂ r' (hheld h₁).2 (hheld h₂).2, fun r' => ?_,
    fun r' hlost o' ho' => h.apart r' hlost o' (hheld ho').2⟩
  by_cases hrr : r' = r
  · subst hrr
    rw [Function.update_self]
    refine iff_of_false Bool.false_ne_true ?_
    rintro (⟨o', ho'⟩ | hlost)
    · exact (hheld ho').1 (h.inj o' o r' (hheld ho').2 ho)
    · exact h.apart r' hlost o ho
  · rw [Function.update_of_ne hrr, h.used_iff]
    refine or_congr_left ⟨?_, ?_⟩
    · rintro ⟨o', ho'⟩
      have hne : o' ≠ o := by
        rintro rfl
        exact hrr (Option.some.inj (ho'.symm.trans ho))
      exact ⟨o', (Function.update_of_ne hne _ _).trans ho'⟩
    · rintro ⟨o', ho'⟩
      exact ⟨o', (hheld ho').2⟩

end

/-- What is unused, held and lost adds up to all resources. -/
theorem count (h : Holdings used holds lost) {all : Finset R} (hall : ∀ r, used r = true → r ∈ all) :
    (all.filter fun r => used r = false).card + {o | (holds o).isSome}.ncard + lost.ncard = all.card := by
  classical
  have hheld : {o | (holds o).isSome}.ncard = {r | ∃ o, holds o = some r}.ncard := by
    refine Set.ncard_congr (fun o (ho : (holds o).isSome = true) => (holds o).get ho) ?_ ?_ ?_
    · exact fun o ho => ⟨o, Option.some_get ho |>.symm⟩
    · intro o o' ho ho' heq
      exact h.inj o o' _ (Option.some_get ho).symm (heq ▸ (Option.some_get ho').symm)
    · rintro r ⟨o, ho⟩
      exact ⟨o, Option.isSome_iff_exists.2 ⟨r, ho⟩, Option.get_of_eq_some _ ho⟩
  have hused : {r | ∃ o, holds o = some r} ∪ lost = ↑(all.filter fun r => used r = true) := by
    ext r
    rw [Finset.coe_filter, Set.mem_ofPred_eq, Set.mem_union, Set.mem_ofPred_eq, ← h.used_iff]
    exact ⟨fun hr => ⟨hall r hr, hr⟩, fun hr => hr.2⟩
  have hfinite := Finset.finite_toSet (all.filter fun r => used r = true)
  rw [← hused] at hfinite
  have hdisjoint : Disjoint {r | ∃ o, holds o = some r} lost := by
    rw [Set.disjoint_left]
    rintro r ⟨o, ho⟩ hlost
    exact h.apart r hlost o ho
  have hcard := Set.ncard_union_eq hdisjoint (hfinite.subset Set.subset_union_left)
    (hfinite.subset Set.subset_union_right)
  rw [hused, Set.ncard_coe_finset] at hcard
  have hsplit := Finset.card_filter_add_card_filter_not (s := all) fun r => used r = true
  simp only [Bool.not_eq_true] at hsplit
  omega

end Holdings
