import Rv32umos.Kernel.ThreadRun

/-!
# Termination is final

Four places of the source write READY into a thread without looking at its state: `terminate` for the
waiters of the process, `release` for a mutex's queue, `handleThreadExit` for the joiner, and the
loader for a new thread. The queues and the joiners of a process die with it. Its threads may still
be among the waiters of a process, its own included, and `terminate` sets those READY last. As long
as no process ends with such waiters, a thread that has ended stays so (`termination_final`);
`ended_thread_selected` is a run where one does.
-/

namespace Rv32umos

open Kernel (Event)
open Transition

namespace Threads

variable {s s' : Threads} {line : Place → List TRef} {e : Event} {pid : Pid} {t u : TRef}

/-- A process that ends is waited for by threads of other processes that have not ended. -/
def WakesLive (s : Threads) (e : Event) : Prop :=
  ∀ pid, s.Kills e pid → ∀ t ∈ s.waiters pid, s.state t ≠ .TERMINATED ∧ t ∉ s.members pid

/-- Where a thread that has not ended can be found, and who can wake it up. -/
structure Settled (s : Threads) : Prop where
  alive : ∀ t < s.numThreads, s.state t ≠ .TERMINATED →
    s.active (s.parent t) = true ∧ t ∈ s.members (s.parent t)
  queued : ∀ pid id t, s.active pid = true → t ∈ s.queue pid id →
    s.state t ≠ .TERMINATED ∧ s.parent t = pid
  joining : ∀ t u, s.state t ≠ .TERMINATED → (s.thread t).joiner = some u →
    s.state u ≠ .TERMINATED ∧ s.parent u = s.parent t

theorem Settled.self_active (h : s.Settled) (hself : s.Running t) :
    s.active (s.parent t) = true ∧ t ∈ s.members (s.parent t) :=
  h.alive t hself.2.1 (by rw [hself.2.2]; nofun)

/-- **One step.** A thread that has ended stays so. -/
theorem Step.stays_ended (hsettled : s.Settled) (hplaced : Placed s line) (hwakes : s.WakesLive e)
    (hstep : s.Step e s') (hlt : t < s.numThreads) (hended : s.state t = .TERMINATED) :
    s'.state t = .TERMINATED := by
  have hchange := hstep.change hplaced hlt
  rw [state]
  generalize s'.thread t = thread at hchange
  cases hchange with
  | same => exact hended
  | ended => rfl
  | woken hw =>
    rcases hw with ⟨pid, hkills, hmem⟩ | ⟨self, ctx, r, id, m, rfl, -, hm, -, hmem⟩
    · exact absurd hended (hwakes pid hkills t hmem).1
    · have hself := hsettled.self_active hstep.running_of_syscall
      refine absurd hended (hsettled.queued (s.parent self) id t hself.1 ?_).1
      rw [queue_of_mutex hm.2]
      exact hmem
  | @patched self ctx r he hid hself hjoiner =>
    refine absurd hended (hsettled.joining self t ?_ hjoiner).1
    rw [hself.2.2]
    decide
  | exited => rfl
  | blocked he hself =>
    rw [hself.2.2] at hended
    cases hended
  | marked => exact hended
  | awaited he hid hjoins hne => exact absurd hended hne
  | saved =>
    rcases saved_state s t with heq | ⟨heq, -⟩
    · exact heq.trans hended
    · rw [heq] at hended
      cases hended
  | switched he hready =>
    rw [hready] at hended
    cases hended

/-- The threads of a process that is killed have ended. -/
theorem Step.ended_of_killed (hwakes : s.WakesLive e) (hstep : s.Step e s') (hkills : s.Kills e pid)
    (hmem : t ∈ s.members pid) : s'.state t = .TERMINATED := by
  have hthread := congrFun (hstep.killed hkills).2.1 t
  rw [thread_terminate, if_neg fun hwaits => (hwakes pid hkills t hwaits).2 hmem, if_pos hmem]
    at hthread
  rw [state, hthread]

theorem Step.alive (hsound : s.Sound) (hsettled : s.Settled) (hwakes : s.WakesLive e)
    (hstep : s.Step e s') (hlt : t < s'.numThreads) (hlive : s'.state t ≠ .TERMINATED) :
    s'.active (s'.parent t) = true ∧ t ∈ s'.members (s'.parent t) := by
  obtain ⟨line, hplaced⟩ := hsound.placed
  by_cases hold : t < s.numThreads
  · have hbefore : s.state t ≠ .TERMINATED :=
      fun hended => hlive (hstep.stays_ended hsettled hplaced hwakes hold hended)
    obtain ⟨hactive, hmem⟩ := hsettled.alive t hold hbefore
    have hspared : ¬ s.Kills e (s.parent t) :=
      fun hkills => hlive (hstep.ended_of_killed hwakes hkills hmem)
    have hparent : s'.parent t = s.parent t := (hstep.change hplaced hold).parent_eq
    rw [hparent]
    obtain ⟨hactive', hmembers⟩ := hstep.spared hactive hspared
    exact ⟨hactive', hmembers t hmem⟩
  · obtain ⟨hmem, -, hactive⟩ := hstep.born (Nat.le_of_not_lt hold) hlt
    refine ⟨?_, hmem⟩
    rcases hactive with hactive | ⟨self, hself, hparent, hactive⟩
    · exact hactive
    · rw [hactive, hparent]
      exact (hsettled.self_active hself).1

/-- Who is queued at a mutex of an active process has not ended. -/
theorem Step.queued {id : Nat} (hsound : s.Sound) (hsettled : s.Settled) (hstep : s.Step e s')
    (hactive : s'.active pid = true) (hmem : t ∈ s'.queue pid id) :
    s'.state t ≠ .TERMINATED ∧ s'.parent t = pid := by
  obtain ⟨line, hplaced⟩ := hsound.placed
  have hlt : t < s.numThreads ∧ s.parent t = pid ∧ (s.state t ≠ .TERMINATED ∧
      t ∈ s.queue pid id ∧ ¬ s.Kills e pid ∨ s'.state t = .BLOCKED) := by
    rcases hstep.mem_queue hmem with hmem' | ⟨hself, hparent, hblocked, -⟩
    · rcases hstep.active_cases hactive with hbefore | ⟨-, -, hmutexes, -⟩
      · obtain ⟨hlive, hparent⟩ := hsettled.queued pid id t hbefore hmem'
        refine ⟨?_, hparent, .inl ⟨hlive, hmem', fun hkills => ?_⟩⟩
        · by_contra hge
          exact (hplaced.unborn (Nat.le_of_not_lt hge)).2 (.queue pid id) (by rwa [hplaced.queue])
        · rw [(hstep.killed hkills).2.2.1, Function.update_self] at hactive
          cases hactive
      · unfold queue mutex at hmem
        rw [hmutexes] at hmem
        cases hmem
    · exact ⟨hself.2.1, hparent, .inr hblocked⟩
  obtain ⟨hlt, hparent, hcase⟩ := hlt
  refine ⟨fun hended => ?_, (hstep.change hplaced hlt).parent_eq.trans hparent⟩
  rcases hcase with ⟨hlive, hmem', hspared⟩ | hblocked
  · rcases hstep.ends hsound hlt hlive hended with hkills | ⟨ctx, r, rfl, -⟩
    · exact hspared (hparent ▸ hkills)
    · -- a running thread is in no queue
      refine hplaced.free_running hstep.running_of_syscall (.queue pid id) ?_
      rwa [hplaced.queue]
  · rw [hended] at hblocked
    cases hblocked

/-- A joiner was one before, or it has just joined. -/
theorem Change.joiner {thread : Thread} (h : Change s e t thread) (hjoiner : thread.joiner = some u) :
    (s.thread t).joiner = some u ∨
    ∃ ctx r, e = .syscall u ctx r ∧ ctx.id.toNat = SyscallID.SYS_THREAD_JOIN ∧ s.Joins u ctx t := by
  cases h with
  | awaited he hid hjoins =>
    cases hjoiner
    exact .inr ⟨_, _, he, hid, hjoins⟩
  | saved =>
    unfold Threads.saved at hjoiner
    split at hjoiner <;> exact .inl hjoiner
  | _ => exact .inl hjoiner

/-- Who waits for a thread that has not ended has not ended. -/
theorem Step.joining (hsound : s.Sound) (hsettled : s.Settled) (hwakes : s.WakesLive e)
    (hstep : s.Step e s') (hlive : s'.state t ≠ .TERMINATED)
    (hjoiner : (s'.thread t).joiner = some u) :
    s'.state u ≠ .TERMINATED ∧ s'.parent u = s'.parent t := by
  obtain ⟨line, hplaced⟩ := hsound.placed
  have hlt : t < s.numThreads := by
    by_contra hge
    have hnone : (s'.thread t).joiner = none := by
      by_cases hlt' : t < s'.numThreads
      · exact (hstep.born (Nat.le_of_not_lt hge) hlt').2.1
      · obtain ⟨line', hplaced', -⟩ := hstep.placed hsound.rooted hplaced
        exact (hplaced'.unborn (Nat.le_of_not_lt hlt')).1
    rw [hnone] at hjoiner
    cases hjoiner
  have hbefore : s.state t ≠ .TERMINATED :=
    fun hended => hlive (hstep.stays_ended hsettled hplaced hwakes hlt hended)
  -- the process of `t` is not killed
  have hspared : ¬ s.Kills e (s.parent t) := fun hkills =>
    hlive (hstep.ended_of_killed hwakes hkills (hsettled.alive t hlt hbefore).2)
  have hparents : s.parent u = s.parent t → u < s.numThreads → s'.parent u = s'.parent t := by
    intro hparent hu
    exact (hstep.change hplaced hu).parent_eq.trans
      (hparent.trans (hstep.change hplaced hlt).parent_eq.symm)
  rcases (hstep.change hplaced hlt).joiner hjoiner with hold | ⟨ctx, r, rfl, hid, hjoins⟩
  · obtain ⟨hstate, hparent⟩ := hsettled.joining t u hbefore hold
    have hmem : u ∈ line (.join t) :=
      (hplaced.joiner hold).resolve_right fun hand => hbefore hand.1
    have hu : u < s.numThreads := by
      by_contra hge
      exact (hplaced.unborn (Nat.le_of_not_lt hge)).2 _ hmem
    refine ⟨fun hended => ?_, hparents hparent hu⟩
    rcases hstep.ends hsound hu hstate hended with hkills | ⟨ctx, r, rfl, -⟩
    · exact hspared (hparent ▸ hkills)
    · exact hplaced.free_running hstep.running_of_syscall _ hmem
  · have hself := hstep.running_of_syscall
    have hparent := (hjoins.parent_eq hsound.rooted).2
    refine ⟨fun hended => ?_, hparents hparent.symm hself.2.1⟩
    rcases hstep.ends hsound hself.2.1 (by rw [hself.2.2]; nofun) hended with
      hkills | ⟨ctx', r', heq, hid'⟩
    · exact hspared (hparent ▸ hkills)
    · cases heq
      rw [hid] at hid'
      cases hid'

theorem Step.settled (hsound : s.Sound) (hsettled : s.Settled) (hwakes : s.WakesLive e)
    (hstep : s.Step e s') : s'.Settled where
  alive _ hlt hlive := hstep.alive hsound hsettled hwakes hlt hlive
  queued _ _ _ hactive hmem := hstep.queued hsound hsettled hactive hmem
  joining _ _ hlive hjoiner := hstep.joining hsound hsettled hwakes hlive hjoiner

theorem Fresh.settled (h : s.Fresh) (u : TRef) : (s.switch u).Settled where
  alive t hlt hlive := by
    rw [switch_parent]
    exact h.member t hlt
  queued pid id t _ hmem := by
    have hnone : (s.switch u).queue pid id = [] := by
      show s.queue pid id = []
      unfold queue mutex
      rw [h.mutexes]
      rfl
    rw [hnone] at hmem
    cases hmem
  joining t v _ hjoiner := by
    have hnone : ((s.switch u).thread t).joiner = none := by
      rw [thread_switch]
      split_ifs
      · exact h.joiner u
      · unfold saved
        split
        · exact h.joiner t
        · exact h.joiner t
    rw [hnone] at hjoiner
    cases hjoiner

/-- A run in which processes only wake live threads of others. -/
def Wakeful (s : Threads) (e : Event) (s' : Threads) : Prop := s.Step e s' ∧ s.WakesLive e

theorem settled_run {es : List Event} (hsound : s.Sound) (hsettled : s.Settled)
    (h : Run Wakeful s es s') :
    s'.Sound ∧ s'.Settled ∧ s.numThreads ≤ s'.numThreads ∧
      ∀ t < s.numThreads, s.state t = .TERMINATED → s'.state t = .TERMINATED := by
  refine h.invariant (fun s' => s'.Sound ∧ s'.Settled ∧ s.numThreads ≤ s'.numThreads ∧
    ∀ t < s.numThreads, s.state t = .TERMINATED → s'.state t = .TERMINATED)
    ⟨hsound, hsettled, le_rfl, fun _ _ hended => hended⟩ ?_
  rintro s₁ e s₂ ⟨hsound₁, hsettled₁, hnum, hkeep⟩ ⟨hstep, hwakes⟩
  obtain ⟨line, hplaced⟩ := hsound₁.placed
  refine ⟨hstep.sound hsound₁, hstep.settled hsound₁ hsettled₁ hwakes, hnum.trans hstep.num_le,
    fun t hlt hended => ?_⟩
  exact hstep.stays_ended hsettled₁ hplaced hwakes (hlt.trans_le hnum) (hkeep t hlt hended)

end Threads

namespace Kernel

open Threads

variable {k k₀ k₁ k' : Kernel} {e : Event} {es es' : List Event} {pid : Pid} {t : TRef}

/-- A step of a run in which no process ends while a thread waits for it that has ended already or
is one of its own. -/
abbrev Wakeful : Kernel → Event → Kernel → Prop := Guarded Step fun k e => k.threads.WakesLive e

theorem settled_of_boot {host : Host} {filenames : List Name} (hboot : boot host filenames = .ok k₀)
    (hrun : Run Wakeful k₀ es k) : k.threads.Sound ∧ k.threads.Settled := by
  obtain ⟨s, u, hfresh, henabled, hlt, heq⟩ := boot_threads hboot
  have hsound : k₀.threads.Sound := heq ▸ hfresh.sound henabled hlt
  have hsettled : k₀.threads.Settled := heq ▸ hfresh.settled u
  have hthreads := (run_threads (C := fun s e _ => s.WakesLive e) hsound.fault hrun).1
  obtain ⟨hsound', hsettled', -⟩ := settled_run hsound hsettled hthreads
  exact ⟨hsound', hsettled'⟩

/-- **Termination is final.** In a run in which no process ends while a thread waits for it that has
ended already or is one of its own: a thread that has ended stays so, and no thread of a process that
has been terminated is ever selected by `preempt`. -/
theorem termination_final {host : Host} {filenames : List Name} (hboot : boot host filenames = .ok k₀)
    (hrun : Run Wakeful k₀ es k) :
    (∀ es' k', Run Wakeful k es' k' → ∀ t < k.numThreads,
      (k.thread t).state = .TERMINATED → (k'.thread t).state = .TERMINATED) ∧
    ∀ e k₁ pid, Wakeful k e k₁ → k.threads.Kills e pid → ∀ es' k', Run Wakeful k₁ es' k' →
      ∀ t ∈ (k.processList pid).threads, (k'.thread t).state = .TERMINATED ∧
        k'.scanOrder.find? (fun t => (k'.thread t).state = .READY) ≠ some t := by
  have hkeep : ∀ es k es' k', Run Wakeful k₀ es k → Run Wakeful k es' k' → ∀ t < k.numThreads,
      (k.thread t).state = .TERMINATED → (k'.thread t).state = .TERMINATED := by
    intro es k es' k' hrun hrun'
    obtain ⟨hsound, hsettled⟩ := settled_of_boot hboot hrun
    have hthreads := (run_threads (C := fun s e _ => s.WakesLive e) hsound.fault hrun').1
    exact (settled_run hsound hsettled hthreads).2.2.2
  refine ⟨fun es' k' => hkeep es k es' k' hrun, fun e k₁ pid hstep hkills es' k' hrun' t hmem => ?_⟩
  obtain ⟨hsound, -⟩ := settled_of_boot hboot hrun
  have hthreads := step_threads hsound.fault hstep.1
  have hended : (k₁.thread t).state = .TERMINATED := hthreads.ended_of_killed hstep.2 hkills hmem
  have hlt : t < k₁.numThreads := ((hsound.rooted pid t hmem).1).trans_le hthreads.num_le
  have hstays := hkeep (es ++ [e]) k₁ es' k' (hrun.snoc hstep) hrun' t hlt hended
  refine ⟨hstays, fun hfound => ?_⟩
  have hready : (k'.thread t).state = .READY := by simpa using List.find?_some hfound
  rw [hstays] at hready
  cases hready

/-- The first of two programs is killed by its second fault, and nobody waits for it. -/
theorem termination_final_segfault :
    ∃ k₀ k k', boot twoPrograms [[0x61], [0x62]] = .ok k₀ ∧ Step k₀ (.fault 0 84 true) k ∧
      Step k (.fault 0 0xFFFFFFFC false) k' ∧ (k'.thread 0).state = .TERMINATED := by
  obtain ⟨k₀, k, k', hboot, hstep, hstep', -, ⟨hparent, -, hthreads, hwaiters⟩, -⟩ := segfault_run
  have hwakes : k₀.threads.WakesLive (.fault 0 84 true) := by
    rintro pid ⟨self, hkiller, -⟩
    cases hkiller
  have hwakes' : k.threads.WakesLive (.fault 0 0xFFFFFFFC false) := by
    rintro pid ⟨self, hkiller, rfl⟩ t hmem
    cases hkiller
    have hmem' : t ∈ k.processWaiters (k.thread 0).parent := hmem
    rw [hparent, hwaiters] at hmem'
    cases hmem'
  refine ⟨k₀, k, k', hboot, hstep, hstep', ?_⟩
  refine ((termination_final hboot (.snoc .nil ⟨hstep, hwakes⟩)).2 _ k' 0 ⟨hstep', hwakes'⟩
    ⟨0, rfl, hparent⟩ [] k' .nil 0 ?_).1
  rw [hthreads]
  exact List.mem_singleton_self 0

/-- A program that makes a thread and waits for process 0, its own; the thread ends the process. -/
def waitsForItself : Host where
  files _ := some (elfFile [0x93, 0x08, 0x30, 0x00, 0x13, 0x05, 0xC0, 0x05, 0x73, 0, 0, 0,
    0x93, 0x08, 0xE0, 0x00, 0x13, 0x05, 0x00, 0x00, 0x73, 0, 0, 0])
  console := { stdin := [], answers := [], written := [] }

/-- The termination of process 0 sets its first thread READY, and `preempt` selects it. -/
theorem ended_thread_selected :
    ∃ k, simulate waitsForItself [[0x61]] 7 = .ok k ∧ k.Reachable ∧
      ¬ ∀ e k₁ pid, Step k e k₁ → k.threads.Kills e pid → ∀ t ∈ (k.processList pid).threads,
        k₁.scanOrder.find? (fun t => (k₁.thread t).state = .READY) ≠ some t := by
  have hdec : returns (simulate waitsForItself [[0x61]] 7) (fun k =>
      decide (k.currentThreadIndex = some 1 ∧ 1 < k.numThreads ∧ (k.thread 1).state = .RUNNING ∧
        (k.thread 1).parent = 0 ∧ (k.processList 0).threads = [0, 1]) &&
      returns k.tick fun call => call.1.onSyscall (fun self ctx _ =>
          decide (self = 1 ∧ ctx.id.toNat = SyscallID.SYS_EXIT)) &&
        decide (call.2.scanOrder.find? (fun t => (call.2.thread t).state = .READY) = some 0)) =
      true := by decide +kernel
  obtain ⟨k, hk, hdec⟩ := returns_iff.1 hdec
  rw [Bool.and_eq_true] at hdec
  obtain ⟨hcurrent, hdec⟩ := hdec
  obtain ⟨⟨e, k₁⟩, htick, hdec⟩ := returns_iff.1 hdec
  rw [Bool.and_eq_true] at hdec
  obtain ⟨hcall, hfound⟩ := hdec
  obtain ⟨self, ctx, r, rfl, hcall⟩ := onSyscall_iff.1 hcall
  obtain ⟨rfl, hid⟩ := of_decide_eq_true hcall
  obtain ⟨hidx, hlt, hrunning, hparent, hthreads⟩ := of_decide_eq_true hcurrent
  refine ⟨k, hk, simulate_reachable hk, fun hfinal => ?_⟩
  refine hfinal _ k₁ 0 (.tick ⟨1, hidx, hlt, hrunning⟩ htick)
    ⟨1, killer_syscall.2 ⟨rfl, .inl hid⟩, hparent⟩ 0 ?_ (of_decide_eq_true hfound)
  rw [hthreads]
  exact List.mem_cons_self

end Kernel

end Rv32umos
