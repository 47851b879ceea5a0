import Mathlib.Tactic

/-!
# Things that stand in at most one line

A family of lists, such as the wait queues of a kernel. `OneLine line`: nothing stands twice in a
line, or in two lines. `Free line t`: `t` stands in none. A free thing may join the end of a line
(`OneLine.enter`), and lines may lose members (`OneLine.shrink`), up to all of them
(`OneLine.free_dissolved`).
-/

variable {P T : Type}

structure OneLine (line : P → List T) : Prop where
  nodup : ∀ p, (line p).Nodup
  unique : ∀ {p q : P} {t : T}, t ∈ line p → t ∈ line q → p = q

/-- `t` stands in no line. -/
def Free (line : P → List T) (t : T) : Prop := ∀ p, t ∉ line p

variable {line line' : P → List T} {t u : T} {p : P}

theorem Free.shrink (h : Free line t) (hsub : ∀ p, (line' p).Sublist (line p)) : Free line' t :=
  fun p hmem => h p ((hsub p).subset hmem)

theorem free_nil (t : T) : Free (fun _ : P => ([] : List T)) t := fun _ hmem => by cases hmem

namespace OneLine

theorem empty : OneLine fun _ : P => ([] : List T) :=
  ⟨fun _ => List.nodup_nil, fun hmem => by cases hmem⟩

theorem shrink (h : OneLine line) (hsub : ∀ p, (line' p).Sublist (line p)) : OneLine line' where
  nodup p := (h.nodup p).sublist (hsub p)
  unique hp hq := h.unique ((hsub _).subset hp) ((hsub _).subset hq)

/-- Who leaves the line that he stands in is free. -/
theorem free_of_left (h : OneLine line) (hsub : ∀ p, (line' p).Sublist (line p)) (hmem : t ∈ line p)
    (hleft : t ∉ line' p) : Free line' t := by
  intro q hq
  have heq : q = p := h.unique ((hsub q).subset hq) hmem
  exact hleft (heq ▸ hq)

variable [DecidableEq P]

theorem dissolve_sublist (line : P → List T) (p q : P) :
    (Function.update line p [] q).Sublist (line q) := by
  by_cases hq : q = p
  · rw [hq, Function.update_self]
    exact List.nil_sublist _
  · rw [Function.update_of_ne hq]

/-- When a line is dissolved, everyone in it is free. -/
theorem free_dissolved (h : OneLine line) (hmem : t ∈ line p) : Free (Function.update line p []) t := by
  refine h.free_of_left (dissolve_sublist line p) hmem ?_
  rw [Function.update_self]
  exact List.not_mem_nil

theorem enter (h : OneLine line) (hfree : Free line t) (p : P) :
    OneLine (Function.update line p (line p ++ [t])) := by
  have hother : ∀ {q u}, q ≠ p → u ∈ Function.update line p (line p ++ [t]) q → u ∈ line q := by
    intro q u hq hmem
    rwa [Function.update_of_ne hq] at hmem
  have hself : ∀ {u}, u ∈ Function.update line p (line p ++ [t]) p → u ∈ line p ∨ u = t := by
    intro u hmem
    rw [Function.update_self] at hmem
    simpa using hmem
  refine ⟨fun q => ?_, fun {q q' u} hu hu' => ?_⟩
  · by_cases hq : q = p
    · rw [hq, Function.update_self, ← List.concat_eq_append]
      exact List.Nodup.concat (hfree p) (h.nodup p)
    · rw [Function.update_of_ne hq]
      exact h.nodup q
  · by_cases hq : q = p
    · by_cases hq' : q' = p
      · exact hq.trans hq'.symm
      · have hu'line := hother hq' hu'
        rcases hself (hq ▸ hu) with huline | rfl
        · exact hq.trans (h.unique huline hu'line)
        · exact absurd hu'line (hfree q')
    · have huline := hother hq hu
      by_cases hq' : q' = p
      · rcases hself (hq' ▸ hu') with hu'line | rfl
        · exact (h.unique huline hu'line).trans hq'.symm
        · exact absurd huline (hfree q)
      · exact h.unique huline (hother hq' hu')

end OneLine

/-- Others stay free when `t` joins a line. -/
theorem Free.enter [DecidableEq P] (h : Free line u) (hne : u ≠ t) (p : P) :
    Free (Function.update line p (line p ++ [t])) u := by
  intro q hmem
  by_cases hq : q = p
  · rw [hq, Function.update_self, List.mem_append, List.mem_singleton] at hmem
    rcases hmem with hmem | hmem
    · exact h p hmem
    · exact hne hmem
  · rw [Function.update_of_ne hq] at hmem
    exact h q hmem
