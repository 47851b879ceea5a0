import Rv32umos.Kernel.RoundRobin

/-!
# No thread starves

The main loop preempts when a quantum is over and when the current thread stops. While a thread is READY every
preemption switches, to a thread that has not been switched to since (`Passed`), so that the thread gets its
turn within as many quanta as there are threads (`no_starvation`).
-/

namespace Rv32umos

open Transition

namespace Kernel

variable {k k' : Kernel} {t u : TRef} {ticks ticks' : Nat} {es : List Event}

/-- One iteration of the main loop, with the tick count. -/
def Iterates (x : Kernel × Nat) (es : List Event) (y : Kernel × Nat) : Prop :=
  x.1.iterate x.2 = .ok (some (es, y.1, y.2))

/-! ### Switches -/

/-- The current thread is never READY. -/
theorem not_current (hsound : k.threads.Sound) (hready : (k.thread t).state = .READY) :
    k.currentThreadIndex ≠ some t := fun hcur => (hsound.halted t hcur).1 hready

/-- While a thread is READY, a preemption switches. -/
theorem switches_of_ready (hsound : k.threads.Sound) (hlt : t < k.numThreads)
    (hready : (k.thread t).state = .READY) : ∃ u, k.switchTarget = some u := by
  unfold switchTarget
  cases hfind : k.scanOrder.find? fun t => decide ((k.thread t).state = .READY) with
  | none =>
    have hnot := List.find?_eq_none.1 hfind t (k.mem_scanOrder hlt)
    exact absurd hready (by simpa using hnot)
  | some u =>
    have hu : (k.thread u).state = .READY := by simpa using List.find?_some hfind
    have hne : some u ≠ k.currentThreadIndex := (not_current hsound hu).symm
    exact ⟨u, Option.filter_eq_some_iff.2 ⟨rfl, by simpa using hne⟩⟩

/-- A thread that is READY after a preemption has not been switched to, and was READY before. -/
theorem ready_before_preempt (hother : k.currentThreadIndex ≠ some t)
    (hready : (k.preempt.thread t).state = .READY) :
    k.switchTarget ≠ some t ∧ (k.thread t).state = .READY := by
  have hsaved : k.savedThread t = k.thread t := if_neg fun hand => hother hand.1
  have hswitch : ∀ u, k.preempt = k.contextSwitch u → u ≠ t ∧ (k.thread t).state = .READY := by
    intro u heq
    rw [heq, contextSwitch_eq] at hready
    dsimp only at hready
    by_cases htu : t = u
    · subst htu
      rw [Function.update_self] at hready
      cases hready
    · rw [Function.update_of_ne htu, hsaved] at hready
      exact ⟨Ne.symm htu, hready⟩
  rw [preempt_eq] at hready hswitch
  cases htarget : k.switchTarget with
  | none =>
    rw [htarget] at hready
    exact ⟨fun heq => (by cases heq), hready⟩
  | some u =>
    rw [htarget] at hswitch
    obtain ⟨hne, hbefore⟩ := hswitch u rfl
    exact ⟨fun heq => hne (Option.some.inj heq), hbefore⟩

/-- A preemption while thread `t` is READY, and after which it still is. -/
theorem preempt_waits (hsound : k.threads.Sound) (hlt : t < k.numThreads)
    (hother : k.currentThreadIndex ≠ some t) (hready : (k.preempt.thread t).state = .READY) :
    ∃ u, Waits t k (some u) k.preempt := by
  obtain ⟨hne, hbefore⟩ := ready_before_preempt hother hready
  obtain ⟨u, htarget⟩ := switches_of_ready hsound hlt hbefore
  refine ⟨u, ?_, htarget ▸ hne, hready⟩
  rw [← htarget]
  exact .preempt

/-- A tick is no preemption. -/
theorem tick_current {e : Event} (hsound : k.threads.Sound) (hrunning : k.CurrentRunning)
    (htick : k.tick = .ok (e, k')) :
    k'.currentThreadIndex = k.currentThreadIndex ∧ k.numThreads ≤ k'.numThreads ∧ k'.threads.Sound := by
  have hthreads := step_threads hsound.fault (.tick hrunning htick)
  refine ⟨?_, hthreads.num_le, hthreads.sound hsound⟩
  rcases hthreads.current_cases with ⟨-, hcurrent, -⟩ | ⟨-, -, -, -, rfl, -⟩
  · exact hcurrent
  · obtain ⟨_, _, _, -, -, -, ⟨-, he, -⟩ | ⟨_, _, -, he, -⟩ | ⟨_, _, _, -, he, -⟩⟩ := tick_cases htick
    · cases he
    · cases he
    · cases he

/-! ### Iterations -/

/-- How many of the moves are switches. -/
def switches (targets : List (Option TRef)) : Nat := targets.countP Option.isSome

/-- In `n` iterations, each is a tick or a switch, and each quantum ends with a switch. -/
structure Paced (n ticks ticks' : Nat) (targets : List (Option TRef)) : Prop where
  counted : ticks' ≤ n + ticks
  paced : n + ticks + ticks' / SCHED_QUANTUM_INSTRUCTIONS ≤
    ticks' + switches targets + ticks / SCHED_QUANTUM_INSTRUCTIONS

theorem Paced.append {n n' ticks'' : Nat} {targets targets' : List (Option TRef)}
    (h : Paced n ticks ticks' targets) (h' : Paced n' ticks' ticks'' targets') :
    Paced (n + n') ticks ticks'' (targets ++ targets') := by
  obtain ⟨hticks, hpaced⟩ := h
  obtain ⟨hticks', hpaced'⟩ := h'
  refine ⟨by omega, ?_⟩
  unfold switches at hpaced hpaced' ⊢
  rw [List.countP_append]
  omega

/-- An iteration at whose head and end thread `t` is READY. -/
theorem iterate_waits (hsound : k.threads.Sound) (hlt : t < k.numThreads) (hready : (k.thread t).state = .READY)
    (h : Iterates (k, ticks) es (k', ticks')) (hready' : (k'.thread t).state = .READY) :
    ∃ targets, Run (Waits t) k targets k' ∧ Paced 1 ticks ticks' targets ∧ k'.threads.Sound := by
  have hother := not_current hsound hready
  have hpreempt : ∀ k : Kernel, k.threads.Sound → k.preempt.threads.Sound := fun k hsound =>
    (step_threads hsound.fault .preempt).sound hsound
  unfold Iterates iterate at h
  dsimp only at h
  split at h
  · cases h
  · obtain ⟨stopped, hstopped, h⟩ := bind_eq_ok.1 h
    cases stopped with
    | true =>
      -- the current thread has stopped: only a switch
      simp only [if_true] at h
      split at h
      · cases h
      · obtain ⟨stopped', -, h⟩ := bind_eq_ok.1 h
        cases stopped' <;> cases h
        obtain ⟨u, hwaits⟩ := preempt_waits hsound hlt hother hready'
        refine ⟨[some u], .snoc .nil hwaits, ⟨Nat.le_add_left _ _, ?_⟩, hpreempt k hsound⟩
        show _ ≤ _ + 1 + _
        omega
    | false =>
      obtain ⟨self, hself, h⟩ := bind_eq_ok.1 h
      obtain ⟨⟨e, k₁⟩, htick, h⟩ := bind_eq_ok.1 h
      obtain ⟨hidx, hself_lt⟩ := getCurrentThread_eq.1 hself
      have hrunning : k.CurrentRunning := by
        refine ⟨self, hidx, hself_lt, ?_⟩
        unfold notRunning at hstopped
        rw [hidx, Option.isNone_some, if_neg Bool.false_ne_true, hself] at hstopped
        simpa using Except.ok.inj hstopped
      dsimp only at h
      obtain ⟨hcurrent, hnum, hsound₁⟩ := tick_current hsound hrunning htick
      have htick : ∀ {targets}, (k₁.thread t).state = .READY → Run (Waits t) k₁ targets k' →
          Run (Waits t) k (none :: targets) k' := fun hready₁ hrun =>
        (Run.nil.snoc ⟨.other hcurrent hnum, fun heq => (by cases heq), hready₁⟩).append hrun
      split_ifs at h with hover
      · -- the thread has stopped, or its quantum is over
        cases h
        have hother₁ : k₁.currentThreadIndex ≠ some t := fun heq => hother (hcurrent.symm.trans heq)
        obtain ⟨u, hswitch⟩ := preempt_waits hsound₁ (lt_of_lt_of_le hlt hnum) hother₁ hready'
        have hready₁ := (ready_before_preempt hother₁ hready').2
        refine ⟨[none, some u], htick hready₁ (Run.nil.snoc hswitch), ⟨(Nat.add_comm _ _).le, ?_⟩,
          hpreempt k₁ hsound₁⟩
        show _ ≤ _ + 1 + _
        unfold SCHED_QUANTUM_INSTRUCTIONS
        omega
      · cases h
        have hquantum : (ticks + 1) % SCHED_QUANTUM_INSTRUCTIONS ≠ 0 := fun heq => hover (.inr heq)
        refine ⟨[none], htick hready' .nil, ⟨(Nat.add_comm _ _).le, ?_⟩, hsound₁⟩
        show _ ≤ _ + 0 + _
        unfold SCHED_QUANTUM_INSTRUCTIONS at hquantum ⊢
        omega

/-! ### Runs of the loop -/

/-- Who has been switched to are different threads, and thread `t` is not one of them. -/
theorem switches_lt {targets : List (Option TRef)} (h : Passed t targets k) (hother : some t ∉ targets) :
    switches targets < k.numThreads := by
  let passed := targets.filterMap id
  have hmem : ∀ {u}, u ∈ passed → some u ∈ targets := fun hu => by simpa [passed] using hu
  have hnodup : (t :: passed).Nodup := by
    refine List.nodup_cons.2 ⟨fun ht => hother (hmem ht), List.nodup_iff_count_le_one.2 fun u => ?_⟩
    rw [List.count_filterMap]
    exact h.once u
  have hsub : t :: passed ⊆ List.range k.numThreads := by
    intro u hu
    rw [List.mem_range]
    rcases List.mem_cons.1 hu with rfl | hu
    · exact h.waiting.1
    · exact (h.behind u (hmem hu)).1
  have hlength := (hnodup.subperm hsub).length_le
  rw [List.length_cons, List.length_range, List.length_filterMap_eq_countP] at hlength
  exact hlength

/-- No thread starves: a thread that stays READY at the head of the main loop does so for fewer iterations
than a quantum for each thread. -/
theorem no_starvation {ess : List (List Event)} (hreach : k.Reachable) (hlt : t < k.numThreads)
    (hready : (k.thread t).state = .READY)
    (hrun : Run (fun x es y => Iterates x es y ∧ (y.1.thread t).state = .READY) (k, ticks) ess (k', ticks')) :
    ess.length < SCHED_QUANTUM_INSTRUCTIONS * k'.numThreads := by
  have hsound := reachable_sound hreach
  have hlisted : k.CurrentListed := by
    obtain ⟨cur, hcur, hcur_lt, -⟩ := hsound.current
    intro c hc
    cases hc.symm.trans hcur
    exact hcur_lt
  have hinit : Passed t [] k := ⟨hlisted, ⟨hlt, hready⟩, fun u hu => (by cases hu), fun u => Nat.zero_le _⟩
  have hpassed : ∀ {targets k'}, Run (Waits t) k targets k' → Passed t targets k' := fun hwaits =>
    hwaits.induct (Passed t) hinit fun _ _ _ _ h hmove => h.step hmove
  obtain ⟨-, targets, hwaits, hpaced⟩ := hrun.induct (fun ess y => y.1.threads.Sound ∧
      ∃ targets, Run (Waits t) k targets y.1 ∧ Paced ess.length ticks y.2 targets)
    ⟨hsound, [], .nil, Nat.le_add_left _ _, by simp [switches]⟩ (by
      rintro ess ⟨k₁, ticks₁⟩ es ⟨k₂, ticks₂⟩ ⟨hsound₁, targets, hwaits, hpaced⟩ ⟨hstep, hready₂⟩
      obtain ⟨hlt₁, hready₁⟩ := (hpassed hwaits).waiting
      obtain ⟨targets', hwaits', hpaced', hsound₂⟩ := iterate_waits hsound₁ hlt₁ hready₁ hstep hready₂
      refine ⟨hsound₂, targets ++ targets', hwaits.append hwaits', ?_⟩
      rw [List.length_append]
      exact hpaced.append hpaced')
  have hother : some t ∉ targets := by
    refine hwaits.induct (fun targets _ => some t ∉ targets) List.not_mem_nil ?_
    rintro targets _ target _ hnot ⟨-, hne, -⟩ hmem
    rcases List.mem_append.1 hmem with hmem | hmem
    · exact hnot hmem
    · exact hne (List.mem_singleton.1 hmem).symm
  have hswitches := switches_lt (hpassed hwaits) hother
  obtain ⟨hticks, hpaced⟩ := hpaced
  dsimp only at hswitches hticks hpaced
  unfold SCHED_QUANTUM_INSTRUCTIONS at hpaced ⊢
  omega

/-- The second of two programs waits while the first is paged in. -/
theorem no_starvation_second : ∃ k₀ k' es ticks', boot twoPrograms [[0x61], [0x62]] = .ok k₀ ∧
    k₀.iterate 0 = .ok (some (es, k', ticks')) ∧ (k'.thread 1).state = .READY ∧
    [es].length < SCHED_QUANTUM_INSTRUCTIONS * k'.numThreads := by
  have hdec : returns (boot twoPrograms [[0x61], [0x62]]) (fun k₀ =>
      decide (1 < k₀.numThreads ∧ (k₀.thread 1).state = .READY) &&
        returns (k₀.iterate 0) fun next => next.any fun x => (x.2.1.thread 1).state = .READY) = true := by
    decide +kernel
  obtain ⟨k₀, hboot, hdec⟩ := returns_iff.1 hdec
  obtain ⟨hstart, hdec⟩ := (Bool.and_eq_true _ _).mp hdec
  obtain ⟨hlt, hready⟩ := of_decide_eq_true hstart
  obtain ⟨next, hnext, hdec⟩ := returns_iff.1 hdec
  cases next with
  | none => cases hdec
  | some x =>
    obtain ⟨es, k', ticks'⟩ := x
    have hready' : (k'.thread 1).state = .READY := of_decide_eq_true hdec
    have hrun : Run (fun x es y => Iterates x es y ∧ (y.1.thread 1).state = .READY) (k₀, 0) ([] ++ [es])
        (k', ticks') := .snoc .nil ⟨hnext, hready'⟩
    exact ⟨k₀, k', es, ticks', hboot, hnext, hready',
      no_starvation ⟨_, _, k₀, [], hboot, .nil⟩ hlt hready hrun⟩

end Kernel

end Rv32umos
