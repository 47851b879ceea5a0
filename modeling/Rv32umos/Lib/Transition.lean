import Mathlib.Tactic

/-!
# Labelled runs

`Run step s es s'`: from `s`, steps labelled `es` (the earliest first) lead to `s'`. An invariant
may mention the labels so far, so that it can speak about the history of the run (`Run.induct`).
`Guarded step cond` keeps the steps whose label and state before meet `cond`; a run of it is a run
all of whose steps meet the condition (`Run.of_guarded`). `Since P Q es`: the labels hold one that
meets `P`, and none since that meets `Q`. `Logged step` carries the labels so far in the state, for
conditions on a step that look back. `Run.simulate` is forward simulation.
-/

namespace Transition

variable {S E : Type}

inductive Run (step : S → E → S → Prop) (s : S) : List E → S → Prop
  | nil : Run step s [] s
  | snoc {es : List E} {s' s'' : S} {e : E} :
    Run step s es s' → step s' e s'' → Run step s (es ++ [e]) s''

/-- The steps that meet `cond`. -/
def Guarded (step : S → E → S → Prop) (cond : S → E → Prop) (s : S) (e : E) (s' : S) : Prop :=
  step s e s' ∧ cond s e

variable {step : S → E → S → Prop} {s s' s'' : S} {es es' : List E}

/-- What holds at the start and is kept by every step holds at the end. -/
theorem Run.induct (inv : List E → S → Prop) (h : Run step s es s') (hinit : inv [] s)
    (hstep : ∀ es s e s', inv es s → step s e s' → inv (es ++ [e]) s') : inv es s' := by
  induction h with
  | nil => exact hinit
  | snoc _ hlast ih => exact hstep _ _ _ _ ih hlast

/-- The same for an invariant of the states alone. -/
theorem Run.invariant (inv : S → Prop) (h : Run step s es s') (hinit : inv s)
    (hstep : ∀ s e s', inv s → step s e s' → inv s') : inv s' := by
  induction h with
  | nil => exact hinit
  | snoc _ hlast ih => exact hstep _ _ _ ih hlast

theorem Run.append (h : Run step s es s') (h' : Run step s' es' s'') :
    Run step s (es ++ es') s'' := by
  induction h' with
  | nil => rwa [List.append_nil]
  | snoc _ hlast ih =>
    rw [← List.append_assoc]
    exact .snoc ih hlast

theorem Run.eq_of_nil (h : Run step s es s') (hes : es = []) : s' = s := by
  cases h with
  | nil => rfl
  | snoc _ _ => exact absurd hes (List.append_ne_nil_of_right_ne_nil _ (List.cons_ne_nil _ _))

/-- A run of one step. -/
theorem Run.single {e : E} (h : Run step s es s') (hes : es = [e]) : step s e s' := by
  cases h with
  | nil => cases hes
  | snoc hrun hlast =>
    obtain ⟨hnil, heq⟩ := List.append_inj' (hes.trans (List.nil_append [e]).symm) rfl
    obtain rfl := hrun.eq_of_nil hnil
    cases heq
    exact hlast

theorem Run.mono {step' : S → E → S → Prop} (h : Run step s es s')
    (hle : ∀ s e s', step s e s' → step' s e s') : Run step' s es s' := by
  induction h with
  | nil => exact .nil
  | snoc _ hlast ih => exact .snoc ih (hle _ _ _ hlast)

/-- A run that leaves `P` has a last state in `P`. -/
theorem Run.last (P : S → Prop) (h : Run step s es s') (hinit : P s) :
    ∃ es₁ m es₂, es = es₁ ++ es₂ ∧ Run step s es₁ m ∧ P m ∧
      Run (fun a e b => step a e b ∧ ¬ P b) m es₂ s' := by
  induction h with
  | nil => exact ⟨[], s, [], rfl, .nil, hinit, .nil⟩
  | @snoc es s' s'' e hrun hlast ih =>
    by_cases hP : P s''
    · exact ⟨es ++ [e], s'', [], (List.append_nil _).symm, .snoc hrun hlast, hP, .nil⟩
    · obtain ⟨es₁, m, es₂, rfl, h₁, hm, h₂⟩ := ih
      exact ⟨es₁, m, es₂ ++ [e], List.append_assoc _ _ _, h₁, hm, .snoc h₂ ⟨hlast, hP⟩⟩

/-- A run all of whose labels meet `C`. -/
theorem Run.labelled {C : E → Prop} (h : Run step s es s') (hall : ∀ e ∈ es, C e) :
    Run (fun a e b => step a e b ∧ C e) s es s' := by
  induction h with
  | nil => exact .nil
  | snoc _ hlast ih =>
    have hinit := ih fun e he => hall e (List.mem_append_left _ he)
    exact .snoc hinit ⟨hlast, hall _ (List.mem_append_right _ (List.mem_singleton_self _))⟩

theorem Run.of_guarded {cond : S → E → Prop} (h : Run (Guarded step cond) s es s') :
    Run step s es s' :=
  h.mono fun _ _ _ h => h.1

/-! ### Simulation -/

/-- A relation that every step can be matched along: a run is matched by a run of the same labels. -/
theorem Run.simulate {S' : Type} {step' : S' → E → S' → Prop} {x : S'} (R : S → S' → Prop)
    (h : Run step s es s') (hinit : R s x)
    (hstep : ∀ s e s' x, R s x → step s e s' → ∃ x', step' x e x' ∧ R s' x') :
    ∃ x', Run step' x es x' ∧ R s' x' := by
  induction h with
  | nil => exact ⟨x, .nil, hinit⟩
  | snoc _ hlast ih =>
    obtain ⟨y, hrun, hy⟩ := ih
    obtain ⟨y', hnext, hy'⟩ := hstep _ _ _ _ hy hlast
    exact ⟨y', hrun.snoc hnext, hy'⟩

/-! ### The labels so far -/

/-- The steps of a state that carries the labels so far. -/
def Logged (step : S → E → S → Prop) (s : List E × S) (e : E) (s' : List E × S) : Prop :=
  step s.2 e s'.2 ∧ s'.1 = s.1 ++ [e]

theorem Run.of_logged {x y : List E × S} (h : Run (Logged step) x es y) :
    Run step x.2 es y.2 ∧ y.1 = x.1 ++ es := by
  induction h with
  | nil => exact ⟨.nil, (List.append_nil _).symm⟩
  | snoc _ hlast ih =>
    refine ⟨ih.1.snoc hlast.1, ?_⟩
    rw [hlast.2, ih.2, List.append_assoc]

theorem Run.logged {past : List E} (h : Run step s es s') :
    Run (Logged step) (past, s) es (past ++ es, s') := by
  induction h with
  | nil =>
    rw [List.append_nil]
    exact .nil
  | snoc _ hlast ih => exact ih.snoc ⟨hlast, (List.append_assoc _ _ _).symm⟩

/-! ### Since -/

/-- There is a label that meets `P`, and none after it meets `Q`. -/
def Since (P Q : E → Prop) (es : List E) : Prop :=
  ∃ es₁ e es₂, es = es₁ ++ e :: es₂ ∧ P e ∧ ∀ e' ∈ es₂, ¬ Q e'

theorem not_since_nil {P Q : E → Prop} : ¬ Since P Q [] := by
  rintro ⟨es₁, e, es₂, h, -⟩
  cases es₁ <;> cases h

theorem since_snoc {P Q : E → Prop} {e : E} :
    Since P Q (es ++ [e]) ↔ P e ∨ (Since P Q es ∧ ¬ Q e) := by
  constructor
  · rintro ⟨es₁, e', es₂, h, hP, hQ⟩
    rcases es₂.eq_nil_or_concat with rfl | ⟨rest, last, rfl⟩
    · obtain ⟨-, heq⟩ := List.append_inj' h rfl
      cases heq
      exact .inl hP
    · rw [List.concat_eq_append, ← List.cons_append, ← List.append_assoc] at h
      obtain ⟨rfl, heq⟩ := List.append_inj' h rfl
      cases heq
      refine .inr ⟨⟨es₁, e', rest, rfl, hP, fun e'' hmem => hQ e'' ?_⟩, hQ e ?_⟩
      · rw [List.concat_eq_append]
        exact List.mem_append_left _ hmem
      · rw [List.concat_eq_append]
        exact List.mem_append_right _ (List.mem_singleton_self _)
  · rintro (hP | ⟨⟨es₁, e', es₂, rfl, hP, hQ⟩, hnot⟩)
    · exact ⟨es, e, [], rfl, hP, nofun⟩
    · refine ⟨es₁, e', es₂ ++ [e], by simp, hP, fun e'' hmem => ?_⟩
      rcases List.mem_append.1 hmem with hmem | hmem
      · exact hQ e'' hmem
      · rw [List.mem_singleton] at hmem
        exact hmem ▸ hnot

theorem Since.mem {P Q : E → Prop} (h : Since P Q es) : ∃ e ∈ es, P e := by
  obtain ⟨es₁, e, es₂, rfl, hP, -⟩ := h
  exact ⟨e, List.mem_append_right _ List.mem_cons_self, hP⟩

end Transition
