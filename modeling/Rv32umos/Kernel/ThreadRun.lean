import Rv32umos.Kernel.Placement
import Rv32umos.Kernel.Simulation

/-!
# What a step does to a thread, and what holds in every run

`Change s e t thread` lists everything that an event `e` can do to thread `t`; `Step.change` is the
inversion lemma that the results on termination, on mutexes and on joins start from. `Sound` collects
what holds in every state of every run (`reachable_sound`): each process knows its threads, each
waiting thread stands in one line, only the current thread is RUNNING, and the MMU works on the page
table of its process.
-/

namespace Rv32umos

open SyscallHandler (suspend mutexError)
open Kernel (Event statesSet)
open Transition

/-- The thread that an event is an event of. -/
def Kernel.Event.actor : Event → Option TRef
  | .user t => some t
  | .fault t _ _ => some t
  | .syscall t _ _ => some t
  | _ => none

/-- The thread whose process an event kills. -/
def Kernel.Event.killer : Event → Option TRef
  | .fault t _ false => some t
  | .syscall t ctx r => if ctx.id.toNat = SyscallID.SYS_EXIT ∨ r.error = true then some t else none
  | _ => none

/-- The exit code of a process that an event kills: what it passed to `SYS_EXIT`, or -1. -/
def Kernel.Event.exitCode : Event → Word
  | .syscall _ ctx r => if r.error then -1 else ctx.arg0
  | _ => -1

theorem killer_syscall {t self : TRef} {ctx : SyscallContext} {r : SyscallResult} :
    (Event.syscall t ctx r).killer = some self ↔
      t = self ∧ (ctx.id.toNat = SyscallID.SYS_EXIT ∨ r.error = true) := by
  unfold Event.killer
  dsimp only
  split_ifs with h
  · exact ⟨fun heq => ⟨Option.some.inj heq, h⟩, fun hand => congrArg some hand.1⟩
  · exact ⟨nofun, fun hand => absurd hand.2 h⟩

namespace Threads

variable {s s' : Threads} {line : Place → List TRef} {self t u : TRef} {pid : Pid}
  {ctx : SyscallContext} {r : SyscallResult} {e : Event}

/-- The event kills process `pid`. -/
def Kills (s : Threads) (e : Event) (pid : Pid) : Prop :=
  ∃ self, e.killer = some self ∧ s.parent self = pid

/-- The event wakes up `t` where it waits for a process or for a mutex. -/
def Wakes (s : Threads) (e : Event) (t : TRef) : Prop :=
  (∃ pid, s.Kills e pid ∧ t ∈ s.waiters pid) ∨
  ∃ self ctx r id m, e = .syscall self ctx r ∧ ctx.id.toNat = SyscallID.SYS_MUTEX_UNLOCK ∧
    s.Names self ctx id m ∧ m.owner = some self ∧ t ∈ m.waitQueue

/-- What an event can do to thread `t`. -/
inductive Change (s : Threads) (e : Event) (t : TRef) : Thread → Prop
  | same : Change s e t (s.thread t)
  | ended {pid : Pid} (hkills : s.Kills e pid) (hmem : t ∈ s.members pid) (hwaits : t ∉ s.waiters pid) :
    Change s e t { s.thread t with state := .TERMINATED }
  | woken (hwakes : s.Wakes e t) : Change s e t { s.thread t with state := .READY }
  | patched {self : TRef} {ctx : SyscallContext} {r : SyscallResult} (he : e = .syscall self ctx r)
    (hid : ctx.id.toNat = SyscallID.SYS_THREAD_EXIT) (hself : s.Running self)
    (hjoiner : (s.thread self).joiner = some t) :
    Change s e t
      { s.thread t with
        state := .READY, regs := (s.thread t).regs.write 10 ctx.arg0, pc := (s.thread t).pc + 4 }
  | exited {ctx : SyscallContext} {r : SyscallResult} (he : e = .syscall t ctx r)
    (hid : ctx.id.toNat = SyscallID.SYS_THREAD_EXIT) :
    Change s e t { s.thread t with state := .TERMINATED, exitCode := ctx.arg0 }
  | blocked {ctx : SyscallContext} (he : e = .syscall t ctx suspend) (hself : s.Running t) :
    Change s e t { s.thread t with state := .BLOCKED }
  | marked {self : TRef} {ctx : SyscallContext} {r : SyscallResult} (he : e = .syscall self ctx r)
    (hid : ctx.id.toNat = SyscallID.SYS_THREAD_JOIN) (hjoins : s.Joins self ctx t)
    (hstate : s.state t = .TERMINATED) : Change s e t { s.thread t with hasBeenJoined := true }
  | awaited {self : TRef} {ctx : SyscallContext} (he : e = .syscall self ctx suspend)
    (hid : ctx.id.toNat = SyscallID.SYS_THREAD_JOIN) (hjoins : s.Joins self ctx t)
    (hstate : s.state t ≠ .TERMINATED) :
    Change s e t { s.thread t with hasBeenJoined := true, joiner := some self }
  | saved (he : e = .preempt) : Change s e t (s.saved t)
  | switched (he : e = .preempt) (hready : s.state t = .READY) (hother : s.current ≠ some t) :
    Change s e t { s.thread t with state := .RUNNING }

theorem thread_terminate (s : Threads) (pid : Pid) (exitCode : Word) (t : TRef) :
    (s.terminate pid exitCode).thread t =
      if t ∈ s.waiters pid then { s.thread t with state := .READY }
      else if t ∈ s.members pid then { s.thread t with state := .TERMINATED } else s.thread t := by
  unfold terminate statesSet
  dsimp only
  split_ifs <;> rfl

theorem change_terminate (hkills : s.Kills e pid) (exitCode : Word) (t : TRef) :
    Change s e t ((s.terminate pid exitCode).thread t) := by
  rw [thread_terminate]
  by_cases hwaits : t ∈ s.waiters pid
  · rw [if_pos hwaits]
    exact .woken (.inl ⟨pid, hkills, hwaits⟩)
  · rw [if_neg hwaits]
    split_ifs with hmem
    · exact .ended hkills hmem hwaits
    · exact .same

theorem change_block (hself : s.Running self) (t : TRef) :
    Change s (.syscall self ctx suspend) t ((s.block self).thread t) := by
  rw [block, thread_modify]
  split_ifs with ht
  · subst ht
    exact .blocked rfl hself
  · exact .same

theorem thread_spawn (pid : Pid) (entry stack : Addr) (arg : Word) (ht : t < s.numThreads) :
    (s.spawn pid entry stack arg).thread t = s.thread t :=
  Function.update_of_ne ht.ne _ _

theorem change_threadExit (h : Placed s line) (hself : s.Running self)
    (hid : ctx.id.toNat = SyscallID.SYS_THREAD_EXIT) (t : TRef) :
    Change s (.syscall self ctx r) t ((s.threadExit self ctx.arg0).thread t) := by
  unfold threadExit
  dsimp only
  split
  · rw [thread_modify]
    split_ifs with ht
    · subst ht
      exact .exited rfl hid
    · exact .same
  · rename_i joiner hsome
    -- a running thread is nobody's joiner that still waits, not even its own
    have hne : joiner ≠ self := by
      rintro rfl
      rcases h.joiner hsome with hmem | ⟨hended, -⟩
      · exact h.free_running hself _ hmem
      · rw [hself.2.2] at hended
        cases hended
    rw [thread_modify, thread_modify, thread_modify]
    split_ifs with ht htself
    · subst ht
      exact .patched rfl hid hself hsome
    · subst htself
      exact .exited rfl hid
    · exact .same

theorem change_joinThread (hself : s.Running self) (hid : ctx.id.toNat = SyscallID.SYS_THREAD_JOIN)
    (hjoins : s.Joins self ctx u) (hstate : s.state u ≠ .TERMINATED) (t : TRef) :
    Change s (.syscall self ctx suspend) t ((s.joinThread u self).thread t) := by
  have hne : u ≠ self := by
    rintro rfl
    exact hjoins.2.1 rfl
  unfold joinThread block markJoined
  simp only [thread_modify, if_true, if_neg hne.symm]
  split_ifs with ht htu
  · subst ht
    exact .blocked rfl hself
  · subst htu
    exact .awaited rfl hid hjoins hstate
  · exact .same

theorem change_switch (hready : s.state u = .READY) (hother : s.current ≠ some u) (t : TRef) :
    Change s .preempt t ((s.switch u).thread t) := by
  unfold switch
  dsimp only
  by_cases ht : t = u
  · subst ht
    rw [Function.update_self]
    exact .switched rfl hready hother
  · rw [Function.update_of_ne ht]
    exact .saved rfl

theorem Call.change (h : Placed s line) (hself : s.Running self) (hcall : s.Call self ctx r s')
    (ht : t < s.numThreads) : Change s (.syscall self ctx r) t (s'.thread t) := by
  cases hcall with
  | threadCreate =>
    rw [thread_spawn _ _ _ _ ht]
    exact .same
  | threadExit hid => exact change_threadExit h hself hid t
  | joinEnded hid hjoins hstate =>
    rw [markJoined, thread_modify]
    split_ifs with heq
    · subst heq
      exact .marked rfl hid hjoins hstate
    · exact .same
  | joinBlocks hid hjoins hstate => exact change_joinThread hself hid hjoins hstate t
  | lockBlocks hid hm => exact change_block hself t
  | @unlock id m hid hm howner =>
    show Change s _ t (statesSet s.thread m.waitQueue .READY t)
    unfold statesSet
    split_ifs with hmem
    · exact .woken (.inr ⟨self, ctx, _, id, m, rfl, hid, hm, howner, hmem⟩)
    · exact .same
  | processExit hid =>
    exact change_terminate ⟨self, killer_syscall.2 ⟨rfl, .inl hid⟩, rfl⟩ _ t
  | load =>
    rw [thread_spawn (s := s.recycle _ true) _ _ _ _ ht]
    exact .same
  | await => exact change_block hself t
  | _ => exact .same

/-- Everything a step can do to a thread. -/
theorem Step.change (h : Placed s line) (hstep : s.Step e s') (ht : t < s.numThreads) :
    Change s e t (s'.thread t) := by
  cases hstep with
  | segfault hself addr hactive => exact change_terminate ⟨_, rfl, rfl⟩ _ t
  | syscall hself hargs hcall =>
    have hchange := hcall.change h hself ht
    exact hchange
  | @badMutex self ctx hself hargs hbad hactive =>
    have hkills : s.Kills (.syscall self ctx mutexError) (s.parent self) :=
      ⟨self, killer_syscall.2 ⟨rfl, .inr rfl⟩, rfl⟩
    exact change_terminate (s := s) hkills (-1) t
  | switch hlt hready hother => exact change_switch hready hother t
  | _ => exact .same

/-! ### What no event changes -/

/-- A thread keeps its number, its process and its stack. -/
def identity (thread : Thread) : Nat × Pid × Addr := (thread.tid, thread.parent, thread.stackTop)

theorem Change.identity_eq {thread : Thread} (h : Change s e t thread) :
    identity thread = identity (s.thread t) := by
  cases h with
  | saved he =>
    unfold Threads.saved
    split <;> rfl
  | _ => rfl

theorem Change.parent_eq {thread : Thread} (h : Change s e t thread) :
    thread.parent = s.parent t := by
  have hparent := congrArg (fun i => i.2.1) h.identity_eq
  exact hparent

theorem Call.num_le (hcall : s.Call self ctx r s') : s.numThreads ≤ s'.numThreads := by
  cases hcall with
  | threadCreate => exact Nat.le_succ _
  | load => exact Nat.le_succ _
  | threadExit hid =>
    unfold Threads.threadExit
    dsimp only
    split <;> exact le_rfl
  | _ => exact le_rfl

/-- Threads are never removed. -/
theorem Step.num_le (hstep : s.Step e s') : s.numThreads ≤ s'.numThreads := by
  cases hstep with
  | syscall hself hargs hcall => exact hcall.num_le
  | _ => exact le_rfl

theorem mem_spawn {entry stack : Addr} {arg : Word} {pid' : Pid}
    (h : t ∈ (s.spawn pid entry stack arg).members pid') :
    t ∈ s.members pid' ∨ (t = s.numThreads ∧ pid' = pid) := by
  have hmem : t ∈ Function.update s.members pid (s.members pid ++ [s.numThreads]) pid' := h
  by_cases hpid : pid' = pid
  · subst hpid
    rw [Function.update_self, List.mem_append, List.mem_singleton] at hmem
    exact hmem.imp id fun heq => ⟨heq, rfl⟩
  · rw [Function.update_of_ne hpid] at hmem
    exact .inl hmem

theorem mem_recycle {active : Bool} {pid' : Pid} (h : t ∈ (s.recycle pid active).members pid') :
    t ∈ s.members pid' ∧ pid' ≠ pid := by
  have hmem : t ∈ Function.update s.members pid [] pid' := h
  by_cases hpid : pid' = pid
  · subst hpid
    rw [Function.update_self] at hmem
    cases hmem
  · rw [Function.update_of_ne hpid] at hmem
    exact ⟨hmem, hpid⟩

theorem spawn_thread_new (s : Threads) (pid : Pid) (entry stack : Addr) (arg : Word) :
    (s.spawn pid entry stack arg).state s.numThreads = .READY ∧
    (s.spawn pid entry stack arg).parent s.numThreads = pid ∧
    ((s.spawn pid entry stack arg).thread s.numThreads).joiner = none ∧
    ((s.spawn pid entry stack arg).thread s.numThreads).hasBeenJoined = false := by
  have hthread : (s.spawn pid entry stack arg).thread s.numThreads = _ :=
    Function.update_self _ _ _
  rw [state, parent, hthread]
  exact ⟨rfl, rfl, rfl, rfl⟩

theorem mem_spawn_new (s : Threads) (pid : Pid) (entry stack : Addr) (arg : Word) :
    s.numThreads ∈ (s.spawn pid entry stack arg).members
      ((s.spawn pid entry stack arg).parent s.numThreads) := by
  rw [(spawn_thread_new s pid entry stack arg).2.1]
  show s.numThreads ∈ Function.update s.members pid (s.members pid ++ [s.numThreads]) pid
  rw [Function.update_self]
  exact List.mem_append_right _ (List.mem_singleton_self _)

/-- A thread of a process was one before, or it is new. -/
theorem Call.mem_members (hcall : s.Call self ctx r s') (h : t ∈ s'.members pid) :
    t ∈ s.members pid ∨ (t = s.numThreads ∧ t < s'.numThreads ∧ s'.parent t = pid) := by
  cases hcall with
  | @threadCreate stack hid hroom =>
    refine (mem_spawn h).imp id ?_
    rintro ⟨rfl, rfl⟩
    exact ⟨rfl, Nat.lt_succ_self _, (spawn_thread_new s _ _ _ _).2.1⟩
  | @load pid' entry stack hid hslot =>
    rcases mem_spawn h with hmem | ⟨rfl, rfl⟩
    · exact .inl (mem_recycle hmem).1
    · exact .inr ⟨rfl, Nat.lt_succ_self _, (spawn_thread_new (s.recycle pid true) _ _ _ _).2.1⟩
  | loadFailed => exact .inl (mem_recycle h).1
  | threadExit hid =>
    refine .inl ?_
    unfold Threads.threadExit at h
    dsimp only at h
    split at h <;> exact h
  | _ => exact .inl h

theorem Step.mem_members (hstep : s.Step e s') (h : t ∈ s'.members pid) :
    t ∈ s.members pid ∨ (t = s.numThreads ∧ t < s'.numThreads ∧ s'.parent t = pid) := by
  cases hstep with
  | syscall hself hargs hcall => exact hcall.mem_members h
  | _ => exact .inl h

theorem Step.rooted (hrooted : s.Rooted) (h : Placed s line) (hstep : s.Step e s') : s'.Rooted := by
  intro pid t hmem
  rcases hstep.mem_members hmem with hmem | ⟨-, hlt, hparent⟩
  · obtain ⟨hlt, hparent⟩ := hrooted pid t hmem
    exact ⟨hlt.trans_le hstep.num_le, (hstep.change h hlt).parent_eq.trans hparent⟩
  · exact ⟨hlt, hparent⟩

/-- A thread is joined from its own process. -/
theorem Joins.parent_eq (hrooted : s.Rooted) (h : s.Joins u ctx t) :
    t ∈ s.members (s.parent u) ∧ s.parent t = s.parent u := by
  have hmem : t ∈ s.members (s.parent u) := List.mem_of_find?_eq_some h.1
  exact ⟨hmem, (hrooted _ t hmem).2⟩

/-! ### What a step does to a process -/

/-- A step that kills process `pid` is its termination, apart from the machine. -/
theorem Step.killed (hstep : s.Step e s') (hkills : s.Kills e pid) :
    s.active pid = true ∧ s'.thread = (s.terminate pid e.exitCode).thread ∧
      s'.active = Function.update s.active pid false ∧
      s'.waiters = Function.update s.waiters pid [] ∧
      s'.exitCodes = Function.update s.exitCodes pid (some e.exitCode) ∧
      s'.members = s.members ∧ s'.mutexes = s.mutexes ∧ s'.numThreads = s.numThreads := by
  obtain ⟨self, hkiller, rfl⟩ := hkills
  cases hstep with
  | segfault hself addr hactive =>
    cases hkiller
    exact ⟨hactive, rfl, rfl, rfl, rfl, rfl, rfl, rfl⟩
  | badMutex hself hargs hbad hactive =>
    cases (killer_syscall.1 hkiller).1
    exact ⟨hactive, rfl, rfl, rfl, rfl, rfl, rfl, rfl⟩
  | @syscall t ctx r s₁ hself hargs hcall =>
    obtain ⟨rfl, hexit⟩ := killer_syscall.1 hkiller
    have hid : ctx.id.toNat = SyscallID.SYS_EXIT := by
      rw [hcall.error] at hexit
      exact hexit.resolve_right Bool.false_ne_true
    cases hcall with
    | processExit _ hactive => exact ⟨hactive, rfl, rfl, rfl, rfl, rfl, rfl, rfl⟩
    | data hdata =>
      rw [hid] at hdata
      exact absurd hdata (by decide)
    | _ hother => exact absurd (hid.symm.trans hother) (by decide)
  | _ => cases hkiller

/-- A process keeps its threads when one is created. -/
theorem mem_spawn_of_mem (pid' : Pid) (entry stack : Addr) (arg : Word) (h : t ∈ s.members pid) :
    t ∈ (s.spawn pid' entry stack arg).members pid := by
  show t ∈ Function.update s.members pid' _ pid
  by_cases hpid : pid = pid'
  · rw [hpid, Function.update_self]
    exact List.mem_append_left _ (hpid ▸ h)
  · rw [Function.update_of_ne hpid]
    exact h

/-- An active process that is not killed stays active and keeps its threads. -/
theorem Step.spared (hstep : s.Step e s') (hactive : s.active pid = true)
    (hspared : ¬ s.Kills e pid) : s'.active pid = true ∧ ∀ t ∈ s.members pid, t ∈ s'.members pid := by
  have hrecycle : ∀ pid' active, s.active pid' = false →
      (s.recycle pid' active).active pid = true ∧
        ∀ t ∈ s.members pid, t ∈ (s.recycle pid' active).members pid := by
    intro pid' active hslot
    have hne : pid ≠ pid' := by
      rintro rfl
      rw [hactive] at hslot
      cases hslot
    unfold recycle
    dsimp only
    rw [Function.update_of_ne hne, Function.update_of_ne hne]
    exact ⟨hactive, fun _ ht => ht⟩
  cases hstep with
  | @segfault self hself addr hact =>
    have hne : pid ≠ s.parent self := fun heq => hspared ⟨self, rfl, heq.symm⟩
    exact ⟨(Function.update_of_ne hne _ _).trans hactive, fun _ ht => ht⟩
  | @badMutex self ctx hself hargs hbad hact =>
    have hne : pid ≠ s.parent self :=
      fun heq => hspared ⟨self, killer_syscall.2 ⟨rfl, .inr rfl⟩, heq.symm⟩
    exact ⟨(Function.update_of_ne hne _ _).trans hactive, fun _ ht => ht⟩
  | @syscall self ctx r s₁ hself hargs hcall =>
    cases hcall with
    | processExit hid hact =>
      have hne : pid ≠ s.parent self :=
        fun heq => hspared ⟨self, killer_syscall.2 ⟨rfl, .inl hid⟩, heq.symm⟩
      exact ⟨(Function.update_of_ne hne _ _).trans hactive, fun _ ht => ht⟩
    | @threadCreate stack =>
      exact ⟨hactive, fun _ ht => mem_spawn_of_mem _ ctx.arg0 stack ctx.arg1 ht⟩
    | threadExit =>
      unfold Threads.deliver Threads.threadExit
      dsimp only
      split <;> exact ⟨hactive, fun _ ht => ht⟩
    | loadFailed hid hslot => exact hrecycle _ _ hslot
    | @load pid' entry stack hid hslot =>
      obtain ⟨hact, hmem⟩ := hrecycle pid' true hslot
      exact ⟨hact, fun t ht => mem_spawn_of_mem pid' entry stack 0 (hmem t ht)⟩
    | _ => exact ⟨hactive, fun _ ht => ht⟩
  | _ => exact ⟨hactive, fun _ ht => ht⟩

/-- A process that is active after a step was active, or has just been loaded: then it has one
thread, a new one, and no mutex. -/
theorem Step.active_cases (hstep : s.Step e s') (hactive : s'.active pid = true) :
    s.active pid = true ∨
    (s'.members pid = [s.numThreads] ∧ s.numThreads < s'.numThreads ∧ s'.mutexes pid = [] ∧
      s'.parent s.numThreads = pid) := by
  have hold : ∀ {pid' : Pid}, Function.update s.active pid' false pid = true → s.active pid = true := by
    intro pid' hact
    by_cases hpid : pid = pid'
    · rw [hpid, Function.update_self] at hact
      cases hact
    · rwa [Function.update_of_ne hpid] at hact
  cases hstep with
  | segfault => exact .inl (hold hactive)
  | badMutex => exact .inl (hold hactive)
  | syscall hself hargs hcall =>
    cases hcall with
    | processExit => exact .inl (hold hactive)
    | threadExit =>
      unfold Threads.deliver Threads.threadExit at hactive
      dsimp only at hactive
      split at hactive <;> exact .inl hactive
    | loadFailed => exact .inl (hold hactive)
    | @load pid' entry stack hid hslot =>
      by_cases hpid : pid = pid'
      · subst hpid
        refine .inr ⟨?_, Nat.lt_succ_self _, ?_, (spawn_thread_new (s.recycle pid true) _ _ _ _).2.1⟩
        · unfold Threads.deliver spawn recycle
          dsimp only
          rw [Function.update_self, Function.update_self]
          rfl
        · exact Function.update_self _ _ _
      · exact .inl ((Function.update_of_ne hpid _ _).symm.trans hactive)
    | _ => exact .inl hactive
  | _ => exact .inl hactive

/-- Who is in the queue of a mutex after a step was there before, or has just blocked there. -/
theorem Step.mem_queue {id : Nat} (hstep : s.Step e s') (hmem : t ∈ s'.queue pid id) :
    t ∈ s.queue pid id ∨
    (s.Running t ∧ s.parent t = pid ∧ s'.state t = .BLOCKED ∧ ∃ ctx m, e = .syscall t ctx suspend ∧
      ctx.id.toNat = SyscallID.SYS_MUTEX_LOCK ∧ s.Names t ctx id m ∧ m.locked = true) := by
  cases hstep with
  | @syscall self ctx r s₁ hself hargs hcall =>
    cases hcall with
    | threadExit =>
      unfold Threads.deliver Threads.threadExit at hmem
      dsimp only at hmem
      split at hmem <;> exact .inl hmem
    | mutexCreate =>
      have hmem' : t ∈ (s.setMutexes _ (s.mutexes _ ++ [({} : Mutex)])).queue pid id := hmem
      rw [queue_newMutex] at hmem'
      exact .inl hmem'
    | @lock id' m hid hm hfree =>
      have hmem' : t ∈ (s.setMutex (s.parent self) id' _).queue pid id := hmem
      rw [queue_setMutex hm.2] at hmem'
      split_ifs at hmem' with heq
      · rw [heq.1, heq.2, queue_of_mutex hm.2]
        exact .inl hmem'
      · exact .inl hmem'
    | @lockBlocks id' m hid hm hlocked =>
      have hm' : (s.block self).mutex (s.parent self) id' = some m := hm.2
      have hmem' : t ∈ ((s.block self).setMutex (s.parent self) id' _).queue pid id := hmem
      rw [queue_setMutex hm'] at hmem'
      split_ifs at hmem' with heq
      · obtain ⟨rfl, rfl⟩ := heq
        rw [List.mem_append, List.mem_singleton] at hmem'
        rcases hmem' with hmem' | rfl
        · rw [queue_of_mutex hm.2]
          exact .inl hmem'
        · exact .inr ⟨hself, rfl, (state_block _ _ _).trans (if_pos rfl), ctx, m, rfl, hid, hm, hlocked⟩
      · exact .inl hmem'
    | @unlock id' m hid hm howner =>
      have hm' : (s.wake m.waitQueue).mutex (s.parent self) id' = some m := hm.2
      have hmem' : t ∈ ((s.wake m.waitQueue).setMutex (s.parent self) id' _).queue pid id := hmem
      rw [queue_setMutex hm'] at hmem'
      split_ifs at hmem' with heq
      · cases hmem'
      · exact .inl hmem'
    | @loadFailed pid' hid hslot =>
      have hmem' : t ∈ (s.recycle pid' false).queue pid id := hmem
      rw [queue_recycle] at hmem'
      split_ifs at hmem' with heq
      · cases hmem'
      · exact .inl hmem'
    | @load pid' entry stack hid hslot =>
      have hmem' : t ∈ (s.recycle pid' true).queue pid id := hmem
      rw [queue_recycle] at hmem'
      split_ifs at hmem' with heq
      · cases hmem'
      · exact .inl hmem'
    | _ => exact .inl hmem
  | _ => exact .inl hmem

/-! ### Threads that will never run again -/

/-- A thread that has ended and waits for nothing: nobody can wake it up. -/
def Dead (s : Threads) (t : TRef) : Prop :=
  s.state t = .TERMINATED ∧ t < s.numThreads ∧ ∃ line, Placed s line ∧ Free line t

theorem Wakes.not_free (h : Placed s line) (hwakes : s.Wakes e t) : ¬ Free line t := by
  intro hfree
  rcases hwakes with ⟨pid, -, hmem⟩ | ⟨self, ctx, r, id, m, -, -, hm, -, hmem⟩
  · exact hfree (.waiters pid) (h.waiters pid ▸ hmem)
  · refine hfree (.queue (s.parent self) id) ?_
    rw [h.queue, queue_of_mutex hm.2]
    exact hmem

/-- The joiner of a running thread stands in its line. -/
theorem Placed.joiner_running (h : Placed s line) (hself : s.Running self)
    (hjoiner : (s.thread self).joiner = some t) : t ∈ line (.join self) := by
  rcases h.joiner hjoiner with hmem | ⟨hended, -⟩
  · exact hmem
  · rw [hself.2.2] at hended
    cases hended

/-- A thread that has ended outside all lines stays as it is, but for a mark of a join. -/
theorem Change.dead {thread : Thread} (h : Change s e t thread) (hplaced : Placed s line)
    (hstate : s.state t = .TERMINATED) (hfree : Free line t) :
    thread = s.thread t ∨ thread = { s.thread t with state := .TERMINATED } ∨
      thread = { s.thread t with hasBeenJoined := true } ∨
      ∃ ctx r, e = .syscall t ctx r ∧ ¬ s.Running t ∧
        thread = { s.thread t with state := .TERMINATED, exitCode := ctx.arg0 } := by
  cases h with
  | same => exact .inl rfl
  | ended => exact .inr (.inl rfl)
  | woken hwakes => exact absurd hfree (hwakes.not_free hplaced)
  | patched he hid hself hjoiner => exact absurd (hplaced.joiner_running hself hjoiner) (hfree _)
  | exited he hid =>
    refine .inr (.inr (.inr ⟨_, _, he, fun hrunning => ?_, rfl⟩))
    rw [hrunning.2.2] at hstate
    cases hstate
  | blocked he hself =>
    rw [hself.2.2] at hstate
    cases hstate
  | marked => exact .inr (.inr (.inl rfl))
  | awaited he hid hjoins hne => exact absurd hstate hne
  | saved he =>
    refine .inl ?_
    unfold Threads.saved
    exact if_neg fun hand => hand.2 hstate
  | switched he hready =>
    rw [hready] at hstate
    cases hstate

/-- The thread that an event is of is the current one, and RUNNING. -/
theorem Step.running_of_syscall (hstep : s.Step (.syscall self ctx r) s') : s.Running self := by
  cases hstep with
  | syscall hself => exact hself
  | badMutex hself => exact hself

theorem Step.running_of_actor (hstep : s.Step e s') (hactor : e.actor = some t) : s.Running t := by
  cases hstep with
  | stay => cases hactor
  | rehash => cases hactor
  | switch => cases hactor
  | user hself => exact Option.some.inj hactor ▸ hself
  | fault hself => exact Option.some.inj hactor ▸ hself
  | segfault hself => exact Option.some.inj hactor ▸ hself
  | syscall hself => exact Option.some.inj hactor ▸ hself
  | badMutex hself => exact Option.some.inj hactor ▸ hself

/-- A dead thread keeps its context and its exit code, and stays dead. -/
theorem Dead.step (hrooted : s.Rooted) (h : s.Dead t) (hstep : s.Step e s') :
    s'.Dead t ∧ (s'.thread t).exitCode = (s.thread t).exitCode := by
  obtain ⟨hstate, hlt, line, hplaced, hfree⟩ := h
  have hcases := (hstep.change hplaced hlt).dead hplaced hstate hfree
  have hsame : s'.state t = .TERMINATED ∧ (s'.thread t).exitCode = (s.thread t).exitCode := by
    rw [state]
    rcases hcases with heq | heq | heq | ⟨ctx, r, rfl, hnot, -⟩
    · rw [heq]
      exact ⟨hstate, rfl⟩
    · rw [heq]
      exact ⟨rfl, rfl⟩
    · rw [heq]
      exact ⟨hstate, rfl⟩
    · exact absurd hstep.running_of_syscall hnot
  obtain ⟨line', hplaced', hstay⟩ := hstep.placed hrooted hplaced
  refine ⟨⟨hsame.1, hlt.trans_le hstep.num_le, line', hplaced', ?_⟩, hsame.2⟩
  rcases hstay t hfree with hfree' | ⟨hrunning, -⟩
  · exact hfree'
  · rw [hrunning.2.2] at hstate
    cases hstate

/-! ### What holds in every run -/

structure Sound (s : Threads) : Prop where
  rooted : s.Rooted
  placed : ∃ line, Placed s line
  vmEnabled : s.vmEnabled = true
  fault : s.fault = false
  /-- The MMU works on the page table of the current thread's process. -/
  current : ∃ t, s.current = some t ∧ t < s.numThreads ∧ s.table = some (s.parent t)
  running : ∀ t < s.numThreads, s.state t = .RUNNING → s.current = some t
  /-- The current thread is RUNNING, or it has blocked or ended and nobody has run since. -/
  halted : ∀ t, s.current = some t → s.state t ≠ .READY ∧ (s.state t = .TERMINATED → s.Dead t)

/-- Only a preemption makes a thread RUNNING. -/
theorem Change.running {thread : Thread} (h : Change s e t thread) (he : e ≠ .preempt)
    (hrunning : thread.state = .RUNNING) : s.state t = .RUNNING := by
  cases h with
  | same => exact hrunning
  | marked => exact hrunning
  | awaited => exact hrunning
  | saved heq => exact absurd heq he
  | switched heq => exact absurd heq he
  | _ => cases hrunning

/-- A thread whose context is saved no longer runs. -/
theorem saved_not_running (hcur : s.state t = .RUNNING → s.current = some t) :
    (s.saved t).state ≠ .RUNNING := by
  intro hrunning
  by_cases hstate : s.state t = .RUNNING
  · have hsaved : (s.saved t).state = .READY := by
      unfold saved
      rw [if_pos ⟨hcur hstate, by rw [hstate]; nofun⟩]
      exact if_pos hstate
    rw [hsaved] at hrunning
    cases hrunning
  · rcases saved_state s t with heq | ⟨heq, -⟩
    · exact hstate (heq.symm.trans hrunning)
    · exact hstate heq

/-- Everything but a switch leaves the current thread and the page table in use alone. -/
theorem Step.current_cases (hstep : s.Step e s') :
    ((e ≠ .preempt ∨ s' = s) ∧ s'.current = s.current ∧ s'.table = s.table ∧
      s'.vmEnabled = s.vmEnabled) ∨
    ∃ u < s.numThreads, s.state u = .READY ∧ s.current ≠ some u ∧ e = .preempt ∧ s' = s.switch u := by
  cases hstep with
  | syscall hself hargs hcall =>
    have hmachine := hcall.machine_eq
    have hcurrent : _ = s.current := congrArg (fun m => m.1) hmachine
    have htable : _ = s.table := congrArg (fun m => m.2.1) hmachine
    have henabled : _ = s.vmEnabled := congrArg (fun m => m.2.2.1) hmachine
    exact .inl ⟨.inl nofun, hcurrent, htable, henabled⟩
  | switch hlt hready hother => exact .inr ⟨_, hlt, hready, hother, rfl, rfl⟩
  | stay => exact .inl ⟨.inr rfl, rfl, rfl, rfl⟩
  | _ => exact .inl ⟨.inl nofun, rfl, rfl, rfl⟩

theorem thread_switch (s : Threads) (u t : TRef) :
    (s.switch u).thread t = if t = u then { s.thread u with state := .RUNNING } else s.saved t := by
  unfold switch
  dsimp only
  split_ifs with ht
  · rw [ht, Function.update_self]
  · rw [Function.update_of_ne ht]

theorem switch_parent (s : Threads) (u t : TRef) : (s.switch u).parent t = s.parent t := by
  rw [parent, thread_switch]
  split_ifs with ht
  · rw [ht]
    rfl
  · unfold saved
    split <;> rfl

/-- A thread born in a step is READY. -/
theorem Step.state_new (hstep : s.Step e s') (hge : s.numThreads ≤ t) (hlt : t < s'.numThreads) :
    s'.state t = .READY := by
  cases hstep with
  | syscall hself hargs hcall =>
    cases hcall with
    | threadCreate =>
      have ht : t = s.numThreads := Nat.le_antisymm (Nat.le_of_lt_succ hlt) hge
      rw [ht]
      exact (spawn_thread_new s _ _ _ _).1
    | load =>
      have ht : t = s.numThreads := Nat.le_antisymm (Nat.le_of_lt_succ hlt) hge
      rw [ht]
      exact (spawn_thread_new (s.recycle _ true) _ _ _ _).1
    | threadExit hid =>
      refine absurd hlt (Nat.not_lt.2 ?_)
      unfold Threads.deliver Threads.threadExit
      dsimp only
      split <;> exact hge
    | _ => exact absurd hlt (Nat.not_lt.2 hge)
  | _ => exact absurd hlt (Nat.not_lt.2 hge)

/-- A step other than a preemption is an event of the running thread, or changes nothing. -/
theorem Step.actor (hstep : s.Step e s') (he : e ≠ .preempt) :
    s' = s ∨ ∃ self, s.Running self := by
  cases hstep with
  | stay => exact .inl rfl
  | switch => exact absurd rfl he
  | rehash => exact .inl rfl
  | user hself => exact .inr ⟨_, hself⟩
  | fault hself => exact .inr ⟨_, hself⟩
  | segfault hself => exact .inr ⟨_, hself⟩
  | syscall hself => exact .inr ⟨_, hself⟩
  | badMutex hself => exact .inr ⟨_, hself⟩

/-- The running thread does not wake itself up. -/
theorem Change.not_ready {thread : Thread} (h : Change s e self thread) (hplaced : Placed s line)
    (hself : s.Running self) (he : e ≠ .preempt) : thread.state ≠ .READY := by
  have hfree := hplaced.free_running hself
  have hstate : (s.thread self).state = .RUNNING := hself.2.2
  cases h with
  | same => rw [hstate]; nofun
  | woken hwakes => exact absurd hfree (hwakes.not_free hplaced)
  | patched he hid hself' hjoiner =>
    exact absurd (hplaced.joiner_running hself' hjoiner) (hfree _)
  | marked =>
    dsimp only
    rw [hstate]
    nofun
  | awaited =>
    dsimp only
    rw [hstate]
    nofun
  | saved heq => exact absurd heq he
  | switched heq => exact absurd heq he
  | _ => nofun

theorem Step.halted (h : s.Sound) (hstep : s.Step e s') (hcur : s'.current = some t) :
    s'.state t ≠ .READY ∧ (s'.state t = .TERMINATED → s'.Dead t) := by
  rcases hstep.current_cases with ⟨hkind, hsame, -⟩ | ⟨u, -, -, -, rfl, rfl⟩
  · rw [hsame] at hcur
    have hact : s' = s ∨ ∃ self, s.Running self ∧ e ≠ .preempt := by
      rcases hkind with hne | rfl
      · exact (hstep.actor hne).imp id fun hself => ⟨hself.choose, hself.choose_spec, hne⟩
      · exact .inl rfl
    rcases hact with rfl | ⟨self, hself, hne⟩
    · exact h.halted t hcur
    · obtain rfl : self = t := Option.some.inj (hself.1.symm.trans hcur)
      obtain ⟨line, hplaced⟩ := h.placed
      have hchange := hstep.change hplaced hself.2.1
      refine ⟨hchange.not_ready hplaced hself hne, fun hended => ⟨hended, ?_, ?_⟩⟩
      · exact hself.2.1.trans_le hstep.num_le
      · obtain ⟨line', hplaced', hstay⟩ := hstep.placed h.rooted hplaced
        refine ⟨line', hplaced', ?_⟩
        rcases hstay self (hplaced.free_running hself) with hfree | ⟨-, hblocked⟩
        · exact hfree
        · rw [hended] at hblocked
          cases hblocked
  · obtain rfl : u = t := Option.some.inj hcur
    have hrunning : (s.switch u).state u = .RUNNING := by
      rw [state, thread_switch, if_pos rfl]
    rw [hrunning]
    refine ⟨fun hready => ?_, fun hended => ?_⟩
    · cases hready
    · cases hended

theorem Step.sound (h : s.Sound) (hstep : s.Step e s') : s'.Sound := by
  obtain ⟨line, hplaced⟩ := h.placed
  obtain ⟨cur, hcur, hlt, htable⟩ := h.current
  have hparent : ∀ t < s.numThreads, s'.parent t = s.parent t :=
    fun t ht => (hstep.change hplaced ht).parent_eq
  obtain ⟨line', hplaced', -⟩ := hstep.placed h.rooted hplaced
  refine ⟨hstep.rooted h.rooted hplaced, ⟨line', hplaced'⟩, ?_, hstep.fault_eq.trans h.fault, ?_,
    fun t ht hrunning => ?_, fun t hcur' => hstep.halted h hcur'⟩
  · rcases hstep.current_cases with ⟨-, -, -, heq⟩ | ⟨u, -, -, -, -, rfl⟩
    · exact heq.trans h.vmEnabled
    · exact h.vmEnabled
  · rcases hstep.current_cases with ⟨-, hsame, htable', -⟩ | ⟨u, hu, -, -, -, rfl⟩
    · refine ⟨cur, hsame.trans hcur, hlt.trans_le hstep.num_le, ?_⟩
      rw [htable', htable, hparent cur hlt]
    · refine ⟨u, rfl, hu, ?_⟩
      rw [switch_parent]
      show s.switchedTable u = _
      unfold switchedTable
      rw [hcur]
      dsimp only
      split_ifs with hne
      · rfl
      · rw [htable, not_not.1 hne]
  · by_cases hold : t < s.numThreads
    · rcases hstep.current_cases with ⟨hkind, hsame, -⟩ | ⟨u, hu, hready, hother, rfl, rfl⟩
      · rw [hsame]
        rcases hkind with hne | rfl
        · exact h.running t hold ((hstep.change hplaced hold).running hne hrunning)
        · exact h.running t hold hrunning
      · show some u = some t
        rw [state, thread_switch] at hrunning
        split_ifs at hrunning with ht
        · rw [ht]
        · exact absurd hrunning (saved_not_running (h.running t hold))
    · have hready := hstep.state_new (Nat.le_of_not_lt hold) ht
      rw [hrunning] at hready
      cases hready

theorem Sound.run {es : List Event} (h : s.Sound) (hrun : Run Step s es s') : s'.Sound :=
  hrun.invariant Sound h fun _ _ _ h hstep => hstep.sound h

/-- A thread ends by the end of its process, or by its own exit. -/
theorem Step.ends (h : s.Sound) (hstep : s.Step e s') (hlt : t < s.numThreads)
    (hlive : s.state t ≠ .TERMINATED) (hended : s'.state t = .TERMINATED) :
    s.Kills e (s.parent t) ∨
    ∃ ctx r, e = .syscall t ctx r ∧ ctx.id.toNat = SyscallID.SYS_THREAD_EXIT := by
  obtain ⟨line, hplaced⟩ := h.placed
  have hchange := hstep.change hplaced hlt
  rw [state] at hended
  generalize s'.thread t = thread at hchange hended
  cases hchange with
  | same => exact absurd hended hlive
  | @ended pid hkills hmem =>
    obtain rfl := (h.rooted pid t hmem).2
    exact .inl hkills
  | exited he hid => exact .inr ⟨_, _, he, hid⟩
  | marked => exact absurd hended hlive
  | awaited => exact absurd hended hlive
  | saved =>
    rcases saved_state s t with heq | ⟨-, heq⟩
    · exact absurd (heq.symm.trans hended) hlive
    · rw [heq] at hended
      cases hended
  | _ => cases hended

/-- A thread born in a step is the last of its process: of the one that the caller runs in, or of one
that has just been loaded. -/
theorem Step.born (hstep : s.Step e s') (hge : s.numThreads ≤ t) (hlt : t < s'.numThreads) :
    t ∈ s'.members (s'.parent t) ∧ (s'.thread t).joiner = none ∧
    (s'.active (s'.parent t) = true ∨
      ∃ self, s.Running self ∧ s'.parent t = s.parent self ∧ s'.active = s.active) := by
  cases hstep with
  | @syscall self ctx r s₁ hself hargs hcall =>
    cases hcall with
    | @threadCreate stack hid hroom =>
      obtain rfl : t = s.numThreads := Nat.le_antisymm (Nat.le_of_lt_succ hlt) hge
      obtain ⟨-, hparent, hjoiner, -⟩ := spawn_thread_new s (s.parent self) ctx.arg0 stack ctx.arg1
      have hmem := mem_spawn_new s (s.parent self) ctx.arg0 stack ctx.arg1
      exact ⟨hmem, hjoiner, .inr ⟨self, hself, hparent, rfl⟩⟩
    | @load pid entry stack hid hslot =>
      obtain rfl : t = s.numThreads := Nat.le_antisymm (Nat.le_of_lt_succ hlt) hge
      obtain ⟨-, hparent, hjoiner, -⟩ := spawn_thread_new (s.recycle pid true) pid entry stack 0
      have hmem := mem_spawn_new (s.recycle pid true) pid entry stack 0
      have hactive : ((s.recycle pid true).spawn pid entry stack 0).active
          (((s.recycle pid true).spawn pid entry stack 0).parent (s.recycle pid true).numThreads) =
          true := by
        rw [hparent]
        exact Function.update_self _ _ _
      exact ⟨hmem, hjoiner, .inl hactive⟩
    | threadExit hid =>
      refine absurd hlt (Nat.not_lt.2 ?_)
      unfold Threads.deliver Threads.threadExit
      dsimp only
      split <;> exact hge
    | _ => exact absurd hlt (Nat.not_lt.2 hge)
  | _ => exact absurd hlt (Nat.not_lt.2 hge)

/-! ### Boot -/

/-- The threads while the applications are loaded: every thread is READY, in an active process, and
nobody waits. -/
structure Fresh (s : Threads) : Prop where
  rooted : s.Rooted
  waiters : ∀ pid, s.waiters pid = []
  mutexes : ∀ pid, s.mutexes pid = []
  exitCodes : ∀ pid, s.exitCodes pid = none
  joiner : ∀ t, (s.thread t).joiner = none
  unjoined : ∀ t, (s.thread t).hasBeenJoined = false
  ready : ∀ t < s.numThreads, s.state t = .READY
  member : ∀ t < s.numThreads, s.active (s.parent t) = true ∧ t ∈ s.members (s.parent t)
  live : ∀ pid, s.active pid = true → s.members pid ≠ []
  current : s.current = none
  fault : s.fault = false

theorem Fresh.load {entry stack : Addr} {arg : Word} (h : s.Fresh) (hslot : s.active pid = false) :
    ((s.recycle pid true).spawn pid entry stack arg).Fresh := by
  obtain ⟨hstate, hparent, hjoiner, hjoined⟩ := spawn_thread_new (s.recycle pid true) pid entry stack arg
  have hthread : ∀ t ≠ s.numThreads,
      ((s.recycle pid true).spawn pid entry stack arg).thread t = s.thread t :=
    fun t ht => Function.update_of_ne ht _ _
  have hmembers : ((s.recycle pid true).spawn pid entry stack arg).members pid = [s.numThreads] := by
    unfold spawn recycle
    dsimp only
    rw [Function.update_self, Function.update_self]
    rfl
  have hother : ∀ pid' ≠ pid,
      ((s.recycle pid true).spawn pid entry stack arg).members pid' = s.members pid' ∧
      ((s.recycle pid true).spawn pid entry stack arg).active pid' = s.active pid' := by
    intro pid' hpid
    unfold spawn recycle
    dsimp only
    rw [Function.update_of_ne hpid, Function.update_of_ne hpid, Function.update_of_ne hpid]
    exact ⟨rfl, rfl⟩
  have hactive : ((s.recycle pid true).spawn pid entry stack arg).active pid = true :=
    Function.update_self _ _ _
  refine ⟨?_, h.waiters, fun pid' => ?_, h.exitCodes, fun t => ?_, fun t => ?_, fun t ht => ?_,
    fun t ht => ?_, fun pid' hpid => ?_, h.current, h.fault⟩
  · intro pid' t hmem
    rcases mem_spawn hmem with hmem | ⟨rfl, rfl⟩
    · obtain ⟨hlt, hroot⟩ := h.rooted pid' t (mem_recycle hmem).1
      rw [parent, hthread t hlt.ne]
      exact ⟨Nat.lt_succ_of_lt hlt, hroot⟩
    · exact ⟨Nat.lt_succ_self _, hparent⟩
  · unfold spawn recycle
    dsimp only
    by_cases hpid : pid' = pid
    · rw [hpid, Function.update_self]
    · rw [Function.update_of_ne hpid]
      exact h.mutexes pid'
  · by_cases ht : t = s.numThreads
    · rw [ht]
      exact hjoiner
    · rw [hthread t ht]
      exact h.joiner t
  · by_cases ht : t = s.numThreads
    · rw [ht]
      exact hjoined
    · rw [hthread t ht]
      exact h.unjoined t
  · rcases Nat.lt_succ_iff_lt_or_eq.1 ht with hlt | rfl
    · rw [state, hthread t hlt.ne]
      exact h.ready t hlt
    · exact hstate
  · rcases Nat.lt_succ_iff_lt_or_eq.1 ht with hlt | rfl
    · rw [parent, hthread t hlt.ne]
      obtain ⟨hact, hmem⟩ := h.member t hlt
      have hne : (s.thread t).parent ≠ pid := by
        intro heq
        rw [parent, heq, hslot] at hact
        cases hact
      obtain ⟨hm, ha⟩ := hother _ hne
      rw [hm, ha]
      exact ⟨hact, hmem⟩
    · rw [hparent, hmembers]
      exact ⟨hactive, List.mem_singleton_self _⟩
  · by_cases heq : pid' = pid
    · rw [heq, hmembers]
      exact List.cons_ne_nil _ _
    · obtain ⟨hm, ha⟩ := hother _ heq
      rw [hm]
      exact h.live pid' (ha ▸ hpid)

/-- The threads when the first of them has been switched to. -/
theorem Fresh.sound (h : s.Fresh) (henabled : s.vmEnabled = true) (hlt : u < s.numThreads) :
    (s.switch u).Sound := by
  have hplaced : Placed s fun _ => [] := by
    refine ⟨.empty, fun pid => (h.waiters pid).symm, fun pid id => ?_, ?_, fun {t u} hsome => ?_,
      fun {t} hne => absurd (h.joiner t) hne, ?_, fun {t} _ => ⟨h.joiner t, free_nil t⟩⟩
    · rw [queue, mutex, h.mutexes]
      rfl
    · intro t u hmem
      cases hmem
    · rw [h.joiner t] at hsome
      cases hsome
    · intro p t hmem
      cases hmem
  have hsaved : ∀ t, s.saved t = s.thread t := by
    intro t
    unfold saved
    rw [if_neg]
    rw [h.current]
    rintro ⟨⟨⟩, -⟩
  refine ⟨fun pid t hmem => ?_, ⟨_, hplaced.switch (h.ready u hlt)⟩, henabled, h.fault,
    ⟨u, rfl, hlt, ?_⟩, fun t ht hrunning => ?_, fun t hcur => ?_⟩
  · rw [switch_parent]
    exact h.rooted pid t hmem
  · rw [switch_parent]
    show s.switchedTable u = _
    unfold switchedTable
    rw [h.current]
  · rw [state, thread_switch] at hrunning
    split_ifs at hrunning with heq
    · rw [heq]
      rfl
    · rw [hsaved t] at hrunning
      have hready := h.ready t ht
      rw [state, hrunning] at hready
      cases hready
  · obtain rfl : u = t := Option.some.inj hcur
    rw [state, thread_switch, if_pos rfl]
    refine ⟨fun hready => ?_, fun hended => ?_⟩
    · cases hready
    · cases hended

end Threads

namespace Kernel

open Threads

variable {k k' : Kernel}

theorem loadApplications_fresh {filenames : List Name} (hfresh : k.threads.Fresh)
    (h : k.loadApplications filenames = .ok k') : k'.threads.Fresh := by
  induction filenames generalizing k with
  | nil =>
    cases h
    exact hfresh
  | cons filename rest ih =>
    obtain ⟨⟨created, k₁⟩, hload, h⟩ := bind_eq_ok.1 h
    dsimp only at h
    split_ifs at h with hnone
    refine ih ?_ h
    rcases loadELF_threads hload with ⟨rfl, -⟩ | ⟨pid, hslot, ⟨rfl, -⟩ | ⟨-, entry, stack, heq⟩⟩
    · exact absurd rfl hnone
    · exact absurd rfl hnone
    · rw [heq]
      exact hfresh.load hslot

theorem init_fresh (host : Host) : (init host).threads.Fresh where
  rooted _ _ hmem := by cases hmem
  waiters _ := rfl
  mutexes _ := rfl
  exitCodes _ := rfl
  joiner _ := rfl
  unjoined _ := rfl
  ready _ hlt := absurd hlt (Nat.not_lt_zero _)
  member _ hlt := absurd hlt (Nat.not_lt_zero _)
  live _ hactive := by cases hactive
  current := rfl
  fault := rfl

/-- A preemption that finds a READY thread other than the current one switches. -/
theorem preempt_of_ready {t : TRef} (hlt : t < k.numThreads) (hready : (k.thread t).state = .READY)
    (hnone : k.currentThreadIndex = none) :
    ∃ u < k.numThreads, (k.thread u).state = .READY ∧ k.preempt = k.contextSwitch u := by
  have horder : k.scanOrder = (List.range k.numThreads).map fun i => (0 + i) % k.numThreads := by
    unfold scanOrder
    rw [hnone]
  have hmem : t ∈ k.scanOrder := by
    rw [horder]
    exact List.mem_map.2 ⟨t, List.mem_range.2 hlt, by rw [Nat.zero_add, Nat.mod_eq_of_lt hlt]⟩
  cases hfind : k.scanOrder.find? fun t => decide ((k.thread t).state = .READY) with
  | none =>
    have hnot := List.find?_eq_none.1 hfind t hmem
    exact absurd hready (by simpa using hnot)
  | some u =>
    have hu : u ∈ k.scanOrder := List.mem_of_find?_eq_some hfind
    rw [horder] at hu
    obtain ⟨i, -, hi⟩ := List.mem_map.1 hu
    refine ⟨u, hi ▸ Nat.mod_lt _ (Nat.zero_lt_of_lt hlt), by simpa using List.find?_some hfind, ?_⟩
    unfold preempt
    simp only [hfind]
    rw [if_neg]
    rw [hnone]
    nofun

/-- After boot, the first thread has been switched to. -/
theorem boot_threads {host : Host} {filenames : List Name} (h : boot host filenames = .ok k) :
    ∃ (s : Threads) (u : TRef), s.Fresh ∧ s.vmEnabled = true ∧ u < s.numThreads ∧
      k.threads = s.switch u := by
  obtain ⟨k₁, hload, h⟩ := bind_eq_ok.1 h
  split_ifs at h with hzero
  cases h
  have hfresh := loadApplications_fresh (init_fresh host) hload
  have hlt : 0 < k₁.numThreads := Nat.pos_of_ne_zero hzero
  obtain ⟨u, hu, hready, heq⟩ := preempt_of_ready
    (k := { k₁ with cpu := { k₁.cpu with vmEnabled := true } }) hlt (hfresh.ready 0 hlt) hfresh.current
  refine ⟨({ k₁ with cpu := { k₁.cpu with vmEnabled := true } } : Kernel).threads, u, ?_, rfl, hu, ?_⟩
  · exact { hfresh with }
  · rw [heq]
    refine contextSwitch_threads ?_
    rw [show ({ k₁ with cpu := { k₁.cpu with vmEnabled := true } } : Kernel).currentThreadIndex = none
      from hfresh.current]
    nofun

/-- The threads in every state of every run. -/
theorem run_sound {host : Host} {filenames : List Name} {k₀ : Kernel} {es : List Event}
    (hboot : boot host filenames = .ok k₀) (hrun : Run Step k₀ es k) :
    k.threads.Sound ∧ Run Threads.Step k₀.threads es k.threads := by
  obtain ⟨s, u, hfresh, henabled, hlt, heq⟩ := boot_threads hboot
  have hsound : k₀.threads.Sound := heq ▸ hfresh.sound henabled hlt
  have hplain : Run (fun k e k' => Step k e k' ∧ True) k₀ es k :=
    hrun.mono fun _ _ _ hstep => ⟨hstep, trivial⟩
  have hthreads : Run Threads.Step k₀.threads es k.threads :=
    (run_threads (C := fun _ _ _ => True) hsound.fault hplain).1.mono fun _ _ _ hstep => hstep.1
  exact ⟨hsound.run hthreads, hthreads⟩

theorem reachable_sound (h : k.Reachable) : k.threads.Sound := by
  obtain ⟨host, filenames, k₀, es, hboot, hrun⟩ := h
  exact (run_sound hboot hrun).1

/-- A run in which nothing kills a process. -/
theorem unkilled_run {pid : Pid} {es : List Event} (hrun : Run Step k es k')
    (hall : ∀ e ∈ es, e.killer = none) :
    Run (Guarded Step fun k e => ¬ k.threads.Kills e pid) k es k' :=
  (hrun.labelled hall).mono fun _ _ _ ⟨hstep, hnone⟩ => ⟨hstep, by
    rintro ⟨self, hkiller, -⟩
    rw [hnone] at hkiller
    cases hkiller⟩

end Kernel

end Rv32umos
