import Rv32umos.Kernel.ThreadRun

/-!
# The scheduler in every run

In every state of every run only the current thread is RUNNING, the MMU works on the page table of
its process, and a thread that has been switched out still has the context that the machine had at
its last switch, but for the result of one `SYS_THREAD_JOIN`; the main loop is left only when no
thread is READY or RUNNING (`scheduler_invariant`).
-/

namespace Rv32umos

open Kernel (Event)
open Transition

namespace Threads

variable {s s' s₀ : Threads} {t : TRef} {e : Event} {es : List Event}

/-- Thread `t` has the registers `regs` and the pc `pc` saved, but for the result of one join. -/
def Saved (s : Threads) (es : List Event) (t : TRef) (regs : RegFile) (pc : Addr) : Prop :=
  ((s.thread t).regs = regs ∧ (s.thread t).pc = pc) ∨
  ∃ self ctx r, Event.syscall self ctx r ∈ es ∧ ctx.id.toNat = SyscallID.SYS_THREAD_EXIT ∧
    (s.thread t).regs = regs.write 10 ctx.arg0 ∧ (s.thread t).pc = pc + 4

/-- What holds while `t`, which had the context `regs`, `pc` when it was current, is switched out. -/
def SwitchedOut (t : TRef) (regs : RegFile) (pc : Addr) (es : List Event) (s : Threads) : Prop :=
  s.Dead t ∨ ((s.thread t).regs = regs ∧ (s.thread t).pc = pc) ∨
  (s.state t = .READY ∧ ∃ self ctx r, Event.syscall self ctx r ∈ es ∧
    ctx.id.toNat = SyscallID.SYS_THREAD_EXIT ∧
    (s.thread t).regs = regs.write 10 ctx.arg0 ∧ (s.thread t).pc = pc + 4)

/-- A step of others does not change a saved context, unless it is the exit of a thread that `t` has
joined. -/
theorem SwitchedOut.step {regs : RegFile} {pc : Addr} (hsound : s.Sound) (hlt : t < s.numThreads)
    (h : SwitchedOut t regs pc es s) (hstep : s.Step e s') (hother : s.current ≠ some t)
    (hother' : s'.current ≠ some t) : SwitchedOut t regs pc (es ++ [e]) s' := by
  obtain ⟨line, hplaced⟩ := hsound.placed
  have hchange := hstep.change hplaced hlt
  have hnot : ¬ s.Running t := fun hrunning => hother hrunning.1
  have hsaved : s.saved t = s.thread t := if_neg fun hand => hother hand.1
  rcases h with hdead | ⟨hregs, hpc⟩ | ⟨hready, self, ctx, r, hmem, hid, hregs, hpc⟩
  · exact .inl (hdead.step hsound.rooted hstep).1
  · -- the context of the switch: it stays, or the join is over
    generalize hthread : s'.thread t = thread at hchange
    cases hchange with
    | @patched self ctx r he hid hself hjoiner =>
      refine .inr (.inr ⟨by rw [state, hthread], self, ctx, r, ?_, hid, ?_, ?_⟩)
      · rw [he]
        exact List.mem_append_right _ (List.mem_singleton_self _)
      · rw [hthread, hregs]
      · rw [hthread, hpc]
    | blocked he hself => exact absurd hself hnot
    | saved he =>
      refine .inr (.inl ?_)
      rw [hthread, hsaved]
      exact ⟨hregs, hpc⟩
    | _ =>
      refine .inr (.inl ?_)
      rw [hthread]
      exact ⟨hregs, hpc⟩
  · -- the join is over: the thread stands in no line, and nobody patches it again
    have hfree := hplaced.free (t := t) (by rw [hready]; decide) (by rw [hready]; decide)
    have hkeep : s'.state t = .READY → (s'.thread t).regs = (s.thread t).regs →
        (s'.thread t).pc = (s.thread t).pc → SwitchedOut t regs pc (es ++ [e]) s' := by
      intro hstate hsame hsame'
      exact .inr (.inr ⟨hstate, self, ctx, r, List.mem_append_left _ hmem, hid, hsame.trans hregs,
        hsame'.trans hpc⟩)
    generalize hthread : s'.thread t = thread at hchange hkeep
    cases hchange with
    | same => exact hkeep (by rw [state, hthread]; exact hready) rfl rfl
    | ended hkills hmem' hwaits =>
      have hended : s'.state t = .TERMINATED := by rw [state, hthread]
      obtain ⟨line', hplaced', hstay⟩ := hstep.placed hsound.rooted hplaced
      refine .inl ⟨hended, hlt.trans_le hstep.num_le, line', hplaced', ?_⟩
      exact (hstay t hfree).resolve_right fun hand => hnot hand.1
    | woken hwakes => exact absurd hfree (hwakes.not_free hplaced)
    | patched he hid' hself hjoiner =>
      exact absurd (hplaced.joiner_running hself hjoiner) (hfree _)
    | exited he hid' =>
      subst he
      exact absurd hstep.running_of_syscall hnot
    | blocked he hself => exact absurd hself hnot
    | marked he hid' hjoins hstate =>
      rw [hready] at hstate
      cases hstate
    | awaited => exact hkeep (by rw [state, hthread]; exact hready) rfl rfl
    | saved he => exact hkeep (by rw [state, hthread, hsaved]; exact hready) (by rw [hsaved]) (by rw [hsaved])
    | switched he =>
      -- a thread that is switched to is current
      rcases hstep.current_cases with ⟨hkind, hsame, -⟩ | ⟨u, hu, -, -, -, rfl⟩
      · rcases hkind with hne | rfl
        · exact absurd he hne
        · exact hkeep hready (by rw [← hthread]) (by rw [← hthread])
      · rw [thread_switch] at hthread
        split_ifs at hthread with htu
        · exact absurd (congrArg some htu.symm) hother'
        · rw [hsaved] at hthread
          have hstate := congrArg Thread.state hthread
          rw [show (s.thread t).state = .READY from hready] at hstate
          cases hstate

/-- The switch that takes `t` out. -/
theorem Step.switchedOut (hsound : s.Sound) (hstep : s.Step e s') (hcur : s.current = some t)
    (hother' : s'.current ≠ some t) : SwitchedOut t s.regs s.pc [e] s' := by
  rcases hstep.current_cases with ⟨-, hsame, -⟩ | ⟨u, -, -, -, -, rfl⟩
  · exact absurd (hsame.trans hcur) hother'
  · have htu : t ≠ u := by
      rintro rfl
      exact hother' rfl
    by_cases hended : s.state t = .TERMINATED
    · exact .inl (((hsound.halted t hcur).2 hended).step hsound.rooted hstep).1
    · refine .inr (.inl ?_)
      rw [thread_switch, if_neg htu]
      unfold saved
      rw [if_pos ⟨hcur, hended⟩]
      exact ⟨rfl, rfl⟩

/-- A run during which `t` is switched out. -/
def Away (t : TRef) (s : Threads) (e : Event) (s' : Threads) : Prop :=
  s.Step e s' ∧ s'.current ≠ some t

theorem switchedOut_run (hsound : s₀.Sound) (hcur : s₀.current = some t)
    (h : Run (Away t) s₀ es s) :
    s.Sound ∧ t < s.numThreads ∧
      ((s = s₀ ∧ es = []) ∨ (s.current ≠ some t ∧ SwitchedOut t s₀.regs s₀.pc es s)) := by
  have hlt : t < s₀.numThreads := by
    obtain ⟨u, hu, hlt, -⟩ := hsound.current
    cases hu.symm.trans hcur
    exact hlt
  refine h.induct (fun es s => s.Sound ∧ t < s.numThreads ∧
    ((s = s₀ ∧ es = []) ∨ (s.current ≠ some t ∧ SwitchedOut t s₀.regs s₀.pc es s)))
    ⟨hsound, hlt, .inl ⟨rfl, rfl⟩⟩ ?_
  rintro es s e s' ⟨hsound', hlt', hcase⟩ ⟨hstep, hother'⟩
  refine ⟨hstep.sound hsound', hlt'.trans_le hstep.num_le, .inr ⟨hother', ?_⟩⟩
  rcases hcase with ⟨rfl, rfl⟩ | ⟨hother, hout⟩
  · exact hstep.switchedOut hsound' hcur hother'
  · exact hout.step hsound' hlt' hstep hother hother'

end Threads

namespace Kernel

open Threads

variable {k k' : Kernel} {t : TRef} {es : List Event}

/-- A step after which `t` is not the current thread. -/
def Away (t : TRef) (k : Kernel) (e : Event) (k' : Kernel) : Prop :=
  Step k e k' ∧ k'.currentThreadIndex ≠ some t

/-- Thread `t` has the context of the machine of `k₂` saved, but for the result of one join: `a0`
is what a thread has passed to `SYS_THREAD_EXIT` since, and the pc is past the `ecall`. -/
def ContextOf (k : Kernel) (t : TRef) (k₂ : Kernel) (es : List Event) : Prop :=
  ((k.thread t).regs = k₂.cpu.regs ∧ (k.thread t).pc = k₂.cpu.pc) ∨
  ∃ self ctx r, Event.syscall self ctx r ∈ es ∧ ctx.id.toNat = SyscallID.SYS_THREAD_EXIT ∧
    (k.thread t).regs = k₂.cpu.regs.write 10 ctx.arg0 ∧ (k.thread t).pc = k₂.cpu.pc + 4

theorem saved_context (hsound : k'.threads.Sound) (hcur : k'.currentThreadIndex = some t)
    (h : Run (Away t) k' es k) (hother : k.currentThreadIndex ≠ some t)
    (hlive : (k.thread t).state ≠ .TERMINATED) : k.ContextOf t k' es := by
  have hrun := (run_threads (C := fun _ _ s' => s'.current ≠ some t) hsound.fault h).1
  obtain ⟨-, -, hcase⟩ := switchedOut_run hsound hcur hrun
  rcases hcase with ⟨heq, -⟩ | ⟨-, hdead | hsame | ⟨-, hpatched⟩⟩
  · exact absurd ((congrArg Threads.current heq).trans hcur) hother
  · exact absurd hdead.1 hlive
  · exact .inl hsame
  · exact .inr hpatched

/-! ### The end of the loop -/

/-- From any start, counting on `n` times modulo `n` reaches every index. -/
theorem cyclic_reaches (start : Nat) {n i : Nat} (hi : i < n) :
    (start + (i + (n - start % n)) % n) % n = i := by
  have hmod := Nat.mod_lt start (Nat.zero_lt_of_lt hi)
  have hdiv := Nat.div_add_mod start n
  have hsum : start + (i + (n - start % n)) = i + n * (start / n + 1) := by
    rw [Nat.mul_add, Nat.mul_one]
    omega
  rw [Nat.add_mod_mod, hsum, Nat.add_mul_mod_self_left, Nat.mod_eq_of_lt hi]

theorem mem_scanOrder (k : Kernel) (hlt : t < k.numThreads) : t ∈ k.scanOrder :=
  List.mem_map.2 ⟨_, List.mem_range.2 (Nat.mod_lt _ (Nat.zero_lt_of_lt hlt)), cyclic_reaches _ hlt⟩

/-- A preemption that does nothing has found no READY thread. -/
theorem not_ready_of_preempt (hsound : k.threads.Sound) (hstay : k.preempt = k)
    (hlt : t < k.numThreads) : (k.thread t).state ≠ .READY := by
  intro hready
  cases hfind : k.scanOrder.find? fun t => decide ((k.thread t).state = .READY) with
  | none =>
    have hnot := List.find?_eq_none.1 hfind t (k.mem_scanOrder hlt)
    exact absurd hready (by simpa using hnot)
  | some u =>
    have hu : (k.thread u).state = .READY := by simpa using List.find?_some hfind
    have hother : some u ≠ k.currentThreadIndex := by
      intro heq
      exact (hsound.halted u heq.symm).1 hu
    have hswitch : k.preempt = k.contextSwitch u := by
      unfold preempt
      simp only [hfind]
      exact if_neg hother
    rw [hstay] at hswitch
    have hidx := congrArg Kernel.currentThreadIndex hswitch
    rw [contextSwitch_eq] at hidx
    exact hother hidx.symm

theorem notRunning_iff (hsound : k.threads.Sound) :
    k.notRunning = .ok (decide (∀ t < k.numThreads, (k.thread t).state ≠ .RUNNING)) := by
  obtain ⟨cur, hcur, hlt, -⟩ := hsound.current
  have hidx : k.currentThreadIndex = some cur := hcur
  unfold notRunning
  rw [hidx, Option.isNone_some, if_neg Bool.false_ne_true, getCurrentThread_eq.2 ⟨hidx, hlt⟩]
  refine congrArg Except.ok (decide_eq_decide.2 ⟨fun hne t ht hrunning => ?_, fun h => h cur hlt⟩)
  cases hidx.symm.trans (hsound.running t ht hrunning)
  exact hne hrunning

/-- The loop is left only in a state in which no thread is READY or RUNNING. -/
theorem iterate_none {ticks : Nat} (hsound : k.threads.Sound) (h : k.iterate ticks = .ok none)
    (hlt : t < k.numThreads) : (k.thread t).state ≠ .READY ∧ (k.thread t).state ≠ .RUNNING := by
  have hall : ∀ k : Kernel, k.checkAllTerminated = true → ∀ t < k.numThreads,
      (k.thread t).state = .TERMINATED := by
    intro k hall t ht
    simpa using List.all_eq_true.1 hall t (List.mem_range.2 ht)
  -- a switch would have left a RUNNING thread
  have hstay : (∀ t < k.preempt.numThreads, (k.preempt.thread t).state ≠ .RUNNING) →
      k.preempt = k := by
    intro hnone
    rcases k.preempt_cases with heq | ⟨u, hu, -, -, heq⟩
    · exact heq
    · rw [heq, contextSwitch_eq] at hnone
      refine absurd ?_ (hnone u hu)
      dsimp only
      rw [Function.update_self]
  unfold iterate at h
  split_ifs at h with hended
  · rw [hall k hended t hlt]
    exact ⟨nofun, nofun⟩
  · rw [notRunning_iff hsound] at h
    obtain ⟨stopped, hstopped, h⟩ := bind_eq_ok.1 h
    cases hstopped
    by_cases hnone : ∀ t < k.numThreads, (k.thread t).state ≠ .RUNNING
    · rw [decide_eq_true hnone] at h
      simp only [if_true] at h
      refine ⟨not_ready_of_preempt hsound (hstay ?_) hlt, hnone t hlt⟩
      split_ifs at h with hended'
      · intro u hu
        rw [hall _ hended' u hu]
        nofun
      · have hsound' : k.preempt.threads.Sound := (step_threads hsound.fault .preempt).sound hsound
        rw [notRunning_iff hsound'] at h
        obtain ⟨stopped, hstopped, h⟩ := bind_eq_ok.1 h
        cases hstopped
        by_cases hnone' : ∀ t < k.preempt.numThreads, (k.preempt.thread t).state ≠ .RUNNING
        · exact hnone'
        · rw [decide_eq_false hnone'] at h
          cases h
    · rw [decide_eq_false hnone] at h
      obtain ⟨self, -, h⟩ := bind_eq_ok.1 h
      obtain ⟨⟨e, k₁⟩, -, h⟩ := bind_eq_ok.1 h
      dsimp only at h
      split_ifs at h <;> cases h

/-! ### Every run -/

/-- **The scheduler.** In every state of every run: at most one thread is RUNNING, it is the current
one and the MMU works on the page table of its process; every other thread that has been current and
has not ended has the context saved that the machine had when it was last switched out, changed at
most by the result of one join; and the loop is left only when no thread is READY or RUNNING. -/
theorem scheduler_invariant {host : Host} {filenames : List Name} {k₀ : Kernel}
    (hboot : boot host filenames = .ok k₀) (hrun : Run Step k₀ es k) :
    (∀ t < k.numThreads, (k.thread t).state = .RUNNING →
      k.currentThreadIndex = some t ∧ k.cpu.currentTable = some (k.thread t).parent) ∧
    (∀ k₁ es₁ es₂ t, es = es₁ ++ es₂ → Run Step k₀ es₁ k₁ → Run Step k₁ es₂ k →
      k₁.currentThreadIndex = some t → k.currentThreadIndex ≠ some t →
      (k.thread t).state ≠ .TERMINATED →
      ∃ k₂ es₃ es₄, es₂ = es₃ ++ es₄ ∧ Run Step k₁ es₃ k₂ ∧ k₂.currentThreadIndex = some t ∧
        Run (Away t) k₂ es₄ k ∧ k.ContextOf t k₂ es₄) ∧
    ∀ ticks, k.iterate ticks = .ok none → ∀ t < k.numThreads,
      (k.thread t).state ≠ .READY ∧ (k.thread t).state ≠ .RUNNING := by
  have hsound := (run_sound hboot hrun).1
  refine ⟨fun t ht hrunning => ?_, ?_, fun ticks hnone t ht => iterate_none hsound hnone ht⟩
  · have hcur := hsound.running t ht hrunning
    obtain ⟨u, hu, -, htable⟩ := hsound.current
    cases hu.symm.trans hcur
    exact ⟨hcur, htable⟩
  · rintro k₁ es₁ es₂ t rfl hrun₁ hrun₂ hcur hother hlive
    obtain ⟨es₃, k₂, es₄, rfl, hrun₃, hcur₂, haway⟩ :=
      hrun₂.last (fun k => k.currentThreadIndex = some t) hcur
    have hsound₂ := (run_sound hboot (hrun₁.append hrun₃)).1
    exact ⟨k₂, es₃, es₄, rfl, hrun₃, hcur₂, haway, saved_context hsound₂ hcur₂ haway hother hlive⟩

/-- Two programs, after the switch to the second: it runs, and the MMU has been told. -/
theorem scheduler_invariant_two :
    ∃ k, simulate twoPrograms [[0x61], [0x62]] 5 = .ok k ∧ (k.thread 1).state = .RUNNING ∧
      k.cpu.currentTable = some (k.thread 1).parent := by
  have hdec : returns (simulate twoPrograms [[0x61], [0x62]] 5) (fun k =>
      decide (1 < k.numThreads ∧ (k.thread 1).state = .RUNNING)) = true := by decide +kernel
  obtain ⟨k, hk, hstate⟩ := returns_iff.1 hdec
  obtain ⟨hlt, hrunning⟩ := of_decide_eq_true hstate
  obtain ⟨k₀, es, hboot, hrun⟩ := simulate_run hk
  exact ⟨k, hk, hrunning, ((scheduler_invariant hboot hrun).1 1 hlt hrunning).2⟩

end Kernel

end Rv32umos
