import Mathlib.Tactic

/-!
# Queues with stale entries

A queue whose entries may have died since they were put in: `pop` takes the first live entry and
drops the dead ones before it. `Before es x y` compares two elements by their last occurrences in a
history; in a queue whose entries stand in that order, `pop` takes the live one that occurred last
the longest ago (`pop_oldest`).
-/

namespace StaleQueue

variable {α : Type}

/-- The first live entry, and what is behind it. -/
def pop (live : α → Bool) : List α → Option α × List α
  | [] => (none, [])
  | x :: rest => if live x then (some x, rest) else pop live rest

variable {live : α → Bool} {queue rest : List α} {x y z : α}

/-- Nothing is live, or the queue splits at its first live entry. -/
theorem pop_cases (live : α → Bool) (queue : List α) :
    (pop live queue = (none, []) ∧ ∀ x ∈ queue, live x = false) ∨
    ∃ dead x rest, queue = dead ++ x :: rest ∧ (∀ y ∈ dead, live y = false) ∧ live x = true ∧
      pop live queue = (some x, rest) := by
  induction queue with
  | nil => exact .inl ⟨rfl, nofun⟩
  | cons y queue ih =>
    unfold pop
    by_cases hlive : live y = true
    · rw [if_pos hlive]
      exact .inr ⟨[], y, queue, rfl, nofun, hlive, rfl⟩
    · rw [if_neg hlive]
      have hdead : live y = false := Bool.eq_false_of_not_eq_true hlive
      rcases ih with ⟨hpop, hall⟩ | ⟨dead, x, rest, rfl, hall, hx, hpop⟩
      · exact .inl ⟨hpop, List.forall_mem_cons.2 ⟨hdead, hall⟩⟩
      · exact .inr ⟨y :: dead, x, rest, rfl, List.forall_mem_cons.2 ⟨hdead, hall⟩, hx, hpop⟩

/-- A live entry is found if there is one. -/
theorem exists_pop (live : α → Bool) (hmem : y ∈ queue) (hlive : live y = true) :
    ∃ dead x rest, queue = dead ++ x :: rest ∧ (∀ y ∈ dead, live y = false) ∧ live x = true ∧
      pop live queue = (some x, rest) := by
  rcases pop_cases live queue with ⟨-, hall⟩ | hsplit
  · rw [hall y hmem] at hlive
    cases hlive
  · exact hsplit

/-- The other live entries stay behind. -/
theorem mem_rest {dead : List α} (hdead : ∀ y ∈ dead, live y = false) (hlive : live y = true)
    (hmem : y ∈ dead ++ x :: rest) : y = x ∨ y ∈ rest := by
  rcases List.mem_append.1 hmem with hmem | hmem
  · rw [hdead y hmem] at hlive
    cases hlive
  · exact List.mem_cons.1 hmem

/-- An entry that stays comes nearer to the front, whatever is put in at the back. -/
theorem idxOf_pop_lt [DecidableEq α] (hpop : pop live queue = (some x, rest)) (hlive : live y = true)
    (hne : y ≠ x) (hmem : y ∈ queue) : (rest ++ [z]).idxOf y < queue.idxOf y := by
  rcases pop_cases live queue with ⟨hnone, -⟩ | ⟨dead, x', rest', rfl, hdead, -, hpop'⟩
  · rw [hnone] at hpop
    cases hpop
  · rw [hpop'] at hpop
    cases hpop
    have hnot : y ∉ dead := fun hy => by
      rw [hdead y hy] at hlive
      cases hlive
    have hrest : y ∈ rest := (mem_rest hdead hlive hmem).resolve_left hne
    rw [List.idxOf_append_of_mem hrest, List.idxOf_append_of_notMem hnot, List.idxOf_cons_ne _ hne.symm]
    omega

/-! ### Histories -/

/-- The last `x` has a `y` after it. -/
def Before (es : List α) (x y : α) : Prop :=
  ∃ es₁ es₂, es = es₁ ++ x :: es₂ ∧ x ∉ es₂ ∧ y ∈ es₂

theorem Before.ne {es : List α} (h : Before es x y) : x ≠ y := by
  obtain ⟨es₁, es₂, -, hnot, hmem⟩ := h
  rintro rfl
  exact hnot hmem

theorem Before.snoc {es : List α} (h : Before es x y) (hne : x ≠ z) : Before (es ++ [z]) x y := by
  obtain ⟨es₁, es₂, rfl, hnot, hmem⟩ := h
  refine ⟨es₁, es₂ ++ [z], by simp, fun hx => ?_, List.mem_append_left _ hmem⟩
  rcases List.mem_append.1 hx with hx | hx
  · exact hnot hx
  · exact hne (List.mem_singleton.1 hx)

theorem exists_last {es : List α} (hmem : x ∈ es) : ∃ es₁ es₂, es = es₁ ++ x :: es₂ ∧ x ∉ es₂ := by
  obtain ⟨xs, ys, heq, hnot⟩ := List.eq_append_cons_of_mem (List.mem_reverse.2 hmem)
  refine ⟨ys.reverse, xs.reverse, ?_, fun h => hnot (List.mem_reverse.1 h)⟩
  rw [← es.reverse_reverse, heq]
  simp

/-- What has occurred is before what occurs next. -/
theorem before_last {es : List α} (hmem : x ∈ es) (hne : x ≠ z) : Before (es ++ [z]) x z := by
  obtain ⟨es₁, es₂, rfl, hnot⟩ := exists_last hmem
  refine ⟨es₁, es₂ ++ [z], by simp, fun hx => ?_, List.mem_append_right _ (List.mem_singleton_self z)⟩
  rcases List.mem_append.1 hx with hx | hx
  · exact hnot hx
  · exact hne (List.mem_singleton.1 hx)

/-- Nothing is behind what has occurred last. -/
theorem not_before_last {es : List α} : ¬ Before (es ++ [x]) x y := by
  rintro ⟨es₁, es₂, heq, hnot, hmem⟩
  rcases es₂.eq_nil_or_concat with rfl | ⟨init, z, rfl⟩
  · cases hmem
  · rw [List.concat_eq_append, ← List.cons_append, ← List.append_assoc] at heq
    obtain ⟨-, hlast⟩ := List.append_inj' heq rfl
    cases hlast
    exact hnot (by simp)

/-- In a queue that is in order, the first live entry is before the other live ones. -/
theorem pop_oldest {before : α → α → Prop} (horder : queue.Pairwise before)
    (hpop : (pop live queue).1 = some x) (hmem : y ∈ queue) (hlive : live y = true) :
    y = x ∨ before x y := by
  obtain ⟨dead, x', rest, rfl, hdead, -, hpop'⟩ := exists_pop live hmem hlive
  rw [hpop'] at hpop
  cases hpop
  rcases mem_rest hdead hlive hmem with heq | hrest
  · exact .inl heq
  · obtain ⟨-, hbehind, -⟩ := List.pairwise_append.1 horder
    exact .inr (List.rel_of_pairwise_cons hbehind hrest)

end StaleQueue
