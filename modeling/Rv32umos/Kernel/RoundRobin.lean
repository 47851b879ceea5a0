import Rv32umos.Kernel.Context

/-!
# Round robin

`Move` is all that can happen around the scheduler: a preemption, with the thread it switches to, or
any change of the threads that keeps the current one and takes none off `activeThreads`. While a
thread waits to be switched to, each switch lands between the current thread and the waiting one,
going up and round (`Ahead`); what was switched to before is not there any more (`Passed`).
-/

namespace Rv32umos

open Transition

/-- Going up from the current index, and round at `n`, `u` comes before `t`. -/
def Ahead (n : Nat) (current : Option Nat) (t u : Nat) : Prop :=
  u < n ∧ match current with
    | none => u < t
    | some c => (c < u ∧ u < t) ∨ (t ≤ c ∧ (c < u ∨ u < t))

theorem not_ahead_self (n t u : Nat) : ¬ Ahead n (some u) t u := by
  rintro ⟨-, ⟨h, -⟩ | ⟨h, h' | h'⟩⟩ <;> omega

theorem Ahead.trans {n t u v : Nat} {current : Option Nat} (h : Ahead n current t u)
    (h' : Ahead n (some u) t v) : Ahead n current t v := by
  obtain ⟨hv, h'⟩ := h'
  obtain ⟨-, h⟩ := h
  refine ⟨hv, ?_⟩
  cases current with
  | none =>
    dsimp only at h h' ⊢
    omega
  | some c =>
    dsimp only at h h' ⊢
    omega

theorem Ahead.of_le {n n' t u : Nat} {current : Option Nat} (h : Ahead n' current t u)
    (hu : u < n) : Ahead n current t u := ⟨hu, h.2⟩

theorem mod_eq_ite {a n : Nat} (h : a < 2 * n) : a % n = if a < n then a else a - n := by
  split_ifs with hlt
  · exact Nat.mod_eq_of_lt hlt
  · rw [Nat.mod_eq_sub_mod (Nat.not_lt.1 hlt), Nat.mod_eq_of_lt (by omega)]

namespace Kernel

variable {k k' : Kernel} {t u : TRef}

/-- The thread that `preempt` switches to. -/
def switchTarget (k : Kernel) : Option TRef :=
  (k.scanOrder.find? fun t => (k.thread t).state = .READY).filter fun t => some t ≠ k.currentThreadIndex

theorem preempt_eq (k : Kernel) :
    k.preempt = match k.switchTarget with
      | none => k
      | some t => k.contextSwitch t := by
  unfold preempt switchTarget
  cases k.scanOrder.find? fun t => decide ((k.thread t).state = .READY) with
  | none => rfl
  | some t =>
    by_cases hcur : some t = k.currentThreadIndex
    · simp [Option.filter, hcur]
    · simp [Option.filter, hcur]

/-- One thing that happens, with the target of `contextSwitch` if it is called. -/
inductive Move (k : Kernel) : Option TRef → Kernel → Prop
  | preempt : Move k k.switchTarget k.preempt
  | other {k' : Kernel} (hcurrent : k'.currentThreadIndex = k.currentThreadIndex)
    (hnum : k.numThreads ≤ k'.numThreads) : Move k none k'

/-- The current thread, if there is one, is on the list. -/
def CurrentListed (k : Kernel) : Prop := ∀ c : Nat, k.currentThreadIndex = some c → c < k.numThreads

/-- Index number `i` of the scan. -/
def scanned (k : Kernel) (i : Nat) : TRef :=
  ((match k.currentThreadIndex with
    | none => 0
    | some prevIndex => prevIndex + 1) + i) % k.numThreads

/-- The scan starts behind the current thread, and goes up and round. -/
theorem scanned_ahead (hlisted : k.CurrentListed) {i j : Nat} (hij : i < j) (hj : j < k.numThreads) :
    Ahead k.numThreads k.currentThreadIndex (k.scanned j) (k.scanned i) := by
  refine ⟨Nat.mod_lt _ (by omega), ?_⟩
  unfold scanned
  cases hcur : k.currentThreadIndex with
  | none =>
    dsimp only
    rw [Nat.zero_add, Nat.zero_add, Nat.mod_eq_of_lt (by omega), Nat.mod_eq_of_lt hj]
    exact hij
  | some c =>
    have hc := hlisted c hcur
    dsimp only
    rw [mod_eq_ite (by omega), mod_eq_ite (by omega)]
    split_ifs <;> omega

/-- A thread that waits is not passed over: the target comes before it. -/
theorem switchTarget_ahead (hlisted : k.CurrentListed) (hlt : t < k.numThreads)
    (hready : (k.thread t).state = .READY) (htarget : k.switchTarget = some u) (hne : u ≠ t) :
    Ahead k.numThreads k.currentThreadIndex t u := by
  obtain ⟨hfind, -⟩ := Option.filter_eq_some_iff.1 htarget
  have horder : k.scanOrder = (List.range k.numThreads).map k.scanned := rfl
  rw [horder, List.find?_map, Option.map_eq_some_iff] at hfind
  obtain ⟨i, hi, rfl⟩ := hfind
  obtain ⟨-, hin, hbefore⟩ := List.find?_range_eq_some.1 hi
  obtain ⟨j, hj, rfl⟩ := List.mem_map.1 (horder ▸ k.mem_scanOrder hlt)
  refine scanned_ahead hlisted (Nat.lt_of_le_of_ne (Nat.not_lt.1 fun hji => ?_) ?_) (List.mem_range.1 hj)
  · have hnot := hbefore j hji
    simp [hready] at hnot
  · rintro rfl
    exact hne rfl

/-! ### Runs -/

theorem preempt_of_target (htarget : k.switchTarget = some u) :
    k.preempt.currentThreadIndex = some u ∧ k.preempt.numThreads = k.numThreads ∧ u < k.numThreads := by
  have hlt : u < k.numThreads := by
    obtain ⟨hfind, -⟩ := Option.filter_eq_some_iff.1 htarget
    obtain ⟨i, hi, rfl⟩ := List.mem_map.1 (List.mem_of_find?_eq_some hfind)
    exact Nat.mod_lt _ (Nat.zero_lt_of_lt (List.mem_range.1 hi))
  rw [preempt_eq, htarget]
  dsimp only
  rw [contextSwitch_eq]
  exact ⟨rfl, rfl, hlt⟩

theorem preempt_of_no_target (htarget : k.switchTarget = none) : k.preempt = k := by
  rw [preempt_eq, htarget]

theorem Move.cases {target : Option TRef} (h : Move k target k') :
    (target = none ∧ k'.currentThreadIndex = k.currentThreadIndex ∧ k.numThreads ≤ k'.numThreads) ∨
    ∃ u, target = some u ∧ k.switchTarget = some u ∧ k' = k.preempt := by
  cases h with
  | preempt =>
    cases htarget : k.switchTarget with
    | none =>
      rw [preempt_of_no_target htarget]
      exact .inl ⟨rfl, rfl, Nat.le_refl _⟩
    | some u => exact .inr ⟨u, rfl, rfl, rfl⟩
  | other hcurrent hnum => exact .inl ⟨rfl, hcurrent, hnum⟩

theorem Move.listed {target : Option TRef} (hlisted : k.CurrentListed) (h : Move k target k') :
    k'.CurrentListed := by
  intro c hc
  rcases h.cases with ⟨-, hcurrent, hnum⟩ | ⟨u, -, htarget, rfl⟩
  · exact Nat.lt_of_lt_of_le (hlisted c (hcurrent.symm.trans hc)) hnum
  · obtain ⟨hcurrent, hnum, hlt⟩ := preempt_of_target htarget
    cases hcurrent.symm.trans hc
    rw [hnum]
    exact hlt

/-- A move after which thread `t` still waits: it is READY and has not been switched to. -/
def Waits (t : TRef) (k : Kernel) (target : Option TRef) (k' : Kernel) : Prop :=
  Move k target k' ∧ target ≠ some t ∧ (k'.thread t).state = .READY

/-- What has been switched to lies behind the current thread, and was switched to once. -/
structure Passed (t : TRef) (targets : List (Option TRef)) (k : Kernel) : Prop where
  listed : k.CurrentListed
  waiting : t < k.numThreads ∧ (k.thread t).state = .READY
  behind : ∀ u, some u ∈ targets → u < k.numThreads ∧ ¬ Ahead k.numThreads k.currentThreadIndex t u
  once : ∀ u, targets.count (some u) ≤ 1

theorem Passed.step {targets : List (Option TRef)} {target : Option TRef} (h : Passed t targets k)
    (hmove : Waits t k target k') : Passed t (targets ++ [target]) k' := by
  obtain ⟨hmove, hother, hready⟩ := hmove
  have hlisted := hmove.listed h.listed
  rcases hmove.cases with ⟨rfl, hcurrent, hnum⟩ | ⟨v, rfl, htarget, rfl⟩
  · refine ⟨hlisted, ⟨Nat.lt_of_lt_of_le h.waiting.1 hnum, hready⟩, fun u hu => ?_, fun u => ?_⟩
    · obtain ⟨hlt, hbehind⟩ := h.behind u (by simpa using hu)
      rw [hcurrent]
      exact ⟨Nat.lt_of_lt_of_le hlt hnum, fun hahead => hbehind (hahead.of_le hlt)⟩
    · simpa [List.count_append] using h.once u
  · obtain ⟨hcurrent, hnum, hlt⟩ := preempt_of_target htarget
    have hne : v ≠ t := fun heq => hother (congrArg some heq)
    have hahead := switchTarget_ahead h.listed h.waiting.1 h.waiting.2 htarget hne
    refine ⟨hlisted, ⟨hnum ▸ h.waiting.1, hready⟩, fun u hu => ?_, fun u => ?_⟩
    · rw [hcurrent, hnum]
      rcases List.mem_append.1 hu with hu | hu
      · obtain ⟨hlt', hbehind⟩ := h.behind u hu
        exact ⟨hlt', fun h' => hbehind (hahead.trans h')⟩
      · cases List.mem_singleton.1 hu
        exact ⟨hlt, not_ahead_self _ _ _⟩
    · rw [List.count_append]
      by_cases huv : u = v
      · subst huv
        have hnot : some u ∉ targets := fun hmem => (h.behind u hmem).2 hahead
        rw [List.count_eq_zero.2 hnot, List.count_singleton_self]
      · have hzero : [some v].count (some u) = 0 :=
          List.count_eq_zero.2 fun hmem => huv (Option.some.inj (List.mem_singleton.1 hmem))
        rw [hzero, Nat.add_zero]
        exact h.once u

/-- Round robin: while a thread is READY and is not switched to, no thread is switched to twice. -/
theorem round_robin {k₀ : Kernel} {past targets : List (Option TRef)}
    (hboot : k₀.currentThreadIndex = none) (hpast : Run Move k₀ past k) (hlt : t < k.numThreads)
    (hready : (k.thread t).state = .READY) (hwaits : Run (Waits t) k targets k') (u : TRef) :
    targets.count (some u) ≤ 1 := by
  have hlisted : k.CurrentListed := by
    refine hpast.invariant CurrentListed (fun c hc => ?_) fun _ _ _ h hmove => hmove.listed h
    cases hboot.symm.trans hc
  have hinit : Passed t [] k := ⟨hlisted, ⟨hlt, hready⟩, nofun, fun u => Nat.zero_le _⟩
  exact (hwaits.induct (Passed t) hinit fun _ _ _ _ h hmove => h.step hmove).once u

/-- Two READY threads that no one has switched to. -/
def twoReady : Kernel :=
  { init twoPrograms with numThreads := 2, thread := fun t => { (init twoPrograms).thread t with state := .READY } }

/-- The second one waits while the first is switched to. -/
theorem round_robin_twoReady : [some 0].count (some 0) ≤ 1 := by
  have hwaits : Waits 1 twoReady (some 0) twoReady.preempt := ⟨.preempt, by decide, rfl⟩
  exact round_robin (t := 1) rfl .nil (by decide) rfl (.snoc .nil hwaits) 0

/-! ### The runs of the system -/

theorem step_move {e : Event} (hsound : k.threads.Sound) (hstep : Step k e k') :
    ∃ target, Move k target k' := by
  have hthreads := step_threads hsound.fault hstep
  have hother : k'.threads.current = k.threads.current → ∃ target, Move k target k' :=
    fun hcurrent => ⟨none, .other hcurrent hthreads.num_le⟩
  cases hstep with
  | preempt => exact ⟨_, .preempt⟩
  | rehash => exact hother rfl
  | tick hrunning htick =>
    rcases hthreads.current_cases with ⟨-, hcurrent, -⟩ | ⟨-, -, -, -, rfl, -⟩
    · exact hother hcurrent
    · -- a tick is not a preemption
      obtain ⟨_, _, _, -, -, -, ⟨-, he, -⟩ | ⟨_, _, -, he, -⟩ | ⟨_, _, _, -, he, -⟩⟩ := tick_cases htick
      · cases he
      · cases he
      · cases he

/-- Every run of the system, from boot on, is a run of the scheduler. -/
theorem reachable_moves (h : k.Reachable) :
    ∃ k₀ targets, k₀.currentThreadIndex = none ∧ Run Move k₀ targets k := by
  obtain ⟨host, filenames, k₁, es, hboot, hrun⟩ := h
  obtain ⟨k₀, hload, hk₁⟩ := bind_eq_ok.1 hboot
  split_ifs at hk₁ with hzero
  cases hk₁
  have hcurrent := (loadApplications_fresh (init_fresh host) hload).current
  refine ⟨{ k₀ with cpu := { k₀.cpu with vmEnabled := true } }, ?_⟩
  suffices hmoves : ∃ targets, Run Move _ targets k from hmoves.imp fun _ hmoves => ⟨hcurrent, hmoves⟩
  induction hrun with
  | nil => exact ⟨_, .snoc .nil .preempt⟩
  | snoc hinit hlast ih =>
    obtain ⟨targets, hmoves⟩ := ih
    obtain ⟨target, hmove⟩ := step_move (run_sound hboot hinit).1 hlast
    exact ⟨_, hmoves.snoc hmove⟩

end Kernel

end Rv32umos
