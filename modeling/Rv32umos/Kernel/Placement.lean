import Rv32umos.Kernel.Threads
import Rv32umos.Lib.Lines

/-!
# Where threads wait

A thread that waits stands in one line: of the threads that wait for a process, in the wait queue of
a mutex, or as the joiner of a thread. `Placed s line` says that the lists of the kernel are such
lines, and that whoever stands in one is BLOCKED or TERMINATED. A `joiner` that has been woken up, or
whose target has been killed, is still in the field of its target; hence the lines of joiners are
not read off the kernel, but a joiner outside its line belongs to a thread that will never run again.
Every step keeps the placement (`Step.placed`), whatever happens to the processes.
-/

namespace Rv32umos

open SyscallHandler (suspend mutexError)
open Kernel (Event statesSet)

inductive Place where
  | waiters (pid : Pid)
  | queue (pid : Pid) (id : Nat)
  | join (t : TRef)
  deriving DecidableEq

namespace Threads

variable {s s' : Threads} {line line' : Place → List TRef} {self t : TRef} {pid : Pid}
  {ctx : SyscallContext} {r : SyscallResult} {e : Event}

/-- The wait queue of mutex `id` of process `pid`. -/
def queue (s : Threads) (pid : Pid) (id : Nat) : List TRef :=
  ((s.mutex pid id).map Mutex.waitQueue).getD []

structure Placed (s : Threads) (line : Place → List TRef) : Prop where
  oneLine : OneLine line
  waiters : ∀ pid, line (.waiters pid) = s.waiters pid
  queue : ∀ pid id, line (.queue pid id) = s.queue pid id
  join : ∀ {t u}, u ∈ line (.join t) → (s.thread t).joiner = some u
  joiner : ∀ {t u}, (s.thread t).joiner = some u →
    u ∈ line (.join t) ∨ (s.state t = .TERMINATED ∧ Free line t)
  once : ∀ {t}, (s.thread t).joiner ≠ none → (s.thread t).hasBeenJoined = true
  stopped : ∀ {p t}, t ∈ line p → s.state t = .BLOCKED ∨ s.state t = .TERMINATED
  unborn : ∀ {t}, s.numThreads ≤ t → (s.thread t).joiner = none ∧ Free line t

namespace Placed

/-- A thread that runs or is ready stands in no line. -/
theorem free (h : Placed s line) (hblocked : s.state t ≠ .BLOCKED)
    (hterminated : s.state t ≠ .TERMINATED) : Free line t := by
  intro p hmem
  rcases h.stopped hmem with hstate | hstate
  · exact hblocked hstate
  · exact hterminated hstate

theorem free_running (h : Placed s line) (hself : s.Running self) : Free line self :=
  h.free (by rw [hself.2.2]; nofun) (by rw [hself.2.2]; nofun)

/-- Lines lose members, and threads change state: a thread may end, and a thread may become anything
else once it stands in no line, unless it has ended outside all lines. -/
theorem shrink (h : Placed s line) (hsub : ∀ p, (line' p).Sublist (line p))
    (hwaiters : ∀ pid, line' (.waiters pid) = s'.waiters pid)
    (hqueue : ∀ pid id, line' (.queue pid id) = s'.queue pid id)
    (hjoin : ∀ t, line' (.join t) = line (.join t) ∨ (s'.state t = .TERMINATED ∧ Free line t))
    (hjoiner : ∀ t, (s'.thread t).joiner = (s.thread t).joiner)
    (honce : ∀ t, (s.thread t).hasBeenJoined = true → (s'.thread t).hasBeenJoined = true)
    (hnum : s.numThreads ≤ s'.numThreads)
    (hstate : ∀ t, s'.state t = s.state t ∨ s'.state t = .TERMINATED ∨
      (Free line' t ∧ ¬ (s.state t = .TERMINATED ∧ Free line t))) : Placed s' line' where
  oneLine := h.oneLine.shrink hsub
  waiters := hwaiters
  queue := hqueue
  join hmem := by
    rw [hjoiner]
    exact h.join ((hsub _).subset hmem)
  joiner {t u} hsome := by
    rw [hjoiner] at hsome
    rcases h.joiner hsome with hmem | ⟨hended, hfree⟩
    · rcases hjoin t with heq | ⟨hended, hfree⟩
      · exact .inl (heq ▸ hmem)
      · exact .inr ⟨hended, hfree.shrink hsub⟩
    · refine .inr ⟨?_, hfree.shrink hsub⟩
      rcases hstate t with heq | heq | ⟨-, hnot⟩
      · exact heq.trans hended
      · exact heq
      · exact absurd ⟨hended, hfree⟩ hnot
  once hne := honce _ (h.once (hjoiner _ ▸ hne))
  stopped {p t} hmem := by
    rcases hstate t with heq | heq | ⟨hfree, -⟩
    · rw [heq]
      exact h.stopped ((hsub p).subset hmem)
    · exact .inr heq
    · exact absurd hmem (hfree p)
  unborn {t} ht := by
    obtain ⟨hnone, hfree⟩ := h.unborn (hnum.trans ht)
    exact ⟨(hjoiner t).trans hnone, hfree.shrink hsub⟩

/-- The lines stay. -/
theorem congr (h : Placed s line) (hwaiters : s'.waiters = s.waiters)
    (hqueue : ∀ pid id, s'.queue pid id = s.queue pid id)
    (hjoiner : ∀ t, (s'.thread t).joiner = (s.thread t).joiner)
    (honce : ∀ t, (s.thread t).hasBeenJoined = true → (s'.thread t).hasBeenJoined = true)
    (hnum : s.numThreads ≤ s'.numThreads)
    (hstate : ∀ t, s'.state t = s.state t ∨ s'.state t = .TERMINATED ∨
      (Free line t ∧ s.state t ≠ .TERMINATED)) : Placed s' line := by
  refine h.shrink (fun _ => .refl _) (fun pid => ?_) (fun pid id => ?_) (fun _ => .inl rfl) hjoiner
    honce hnum fun t => ?_
  · rw [hwaiters]
    exact h.waiters pid
  · rw [hqueue]
    exact h.queue pid id
  · rcases hstate t with heq | heq | ⟨hfree, hlive⟩
    · exact .inl heq
    · exact .inr (.inl heq)
    · exact .inr (.inr ⟨hfree, fun hand => hlive hand.1⟩)

/-- A change outside the threads, the waiters and the queues. -/
theorem congr_thread (h : Placed s line) (hwaiters : s'.waiters = s.waiters)
    (hqueue : ∀ pid id, s'.queue pid id = s.queue pid id) (hthread : s'.thread = s.thread)
    (hnum : s'.numThreads = s.numThreads) : Placed s' line :=
  h.congr hwaiters hqueue (fun t => by rw [hthread]) (fun t hjoined => by rwa [hthread]) hnum.ge
    fun t => .inl (by rw [state, state, hthread])

/-- A running thread blocks, at the end of line `p`. -/
theorem enter (h : Placed s line) (hself : s.Running self) (p : Place)
    (hwaiters : ∀ pid, s'.waiters pid = s.waiters pid ++ if p = .waiters pid then [self] else [])
    (hqueue : ∀ pid id, s'.queue pid id = s.queue pid id ++ if p = .queue pid id then [self] else [])
    (hjoiner : ∀ t, (p ≠ .join t ∧ (s'.thread t).joiner = (s.thread t).joiner) ∨
      (p = .join t ∧ (s.thread t).joiner = none ∧ (s'.thread t).joiner = some self ∧
        (s'.thread t).hasBeenJoined = true))
    (honce : ∀ t, (s.thread t).hasBeenJoined = true → (s'.thread t).hasBeenJoined = true)
    (hnum : s'.numThreads = s.numThreads) (hblocked : s'.state self = .BLOCKED)
    (hstate : ∀ t ≠ self, s'.state t = s.state t)
    (hborn : ∀ t, p = .join t → t < s.numThreads) :
    Placed s' (Function.update line p (line p ++ [self])) := by
  have hfree := h.free_running hself
  have hline : ∀ q, Function.update line p (line p ++ [self]) q =
      line q ++ if p = q then [self] else [] := by
    intro q
    by_cases hq : q = p
    · rw [hq, Function.update_self, if_pos rfl]
    · rw [Function.update_of_ne hq, if_neg (Ne.symm hq), List.append_nil]
  have hmem : ∀ {q u}, u ∈ Function.update line p (line p ++ [self]) q →
      u ∈ line q ∨ (q = p ∧ u = self) := by
    intro q u hu
    rw [hline, List.mem_append] at hu
    rcases hu with hu | hu
    · exact .inl hu
    · split_ifs at hu with hq
      · exact .inr ⟨hq.symm, List.mem_singleton.1 hu⟩
      · cases hu
  refine ⟨h.oneLine.enter hfree p, fun pid => ?_, fun pid id => ?_, ?_, ?_, ?_, ?_, ?_⟩
  · rw [hline, hwaiters, h.waiters]
  · rw [hline, hqueue, h.queue]
  · intro t u hu
    rcases hjoiner t with ⟨hne, heq⟩ | ⟨rfl, hnone, hsome, -⟩
    · rcases hmem hu with hu | ⟨hp, -⟩
      · exact heq.trans (h.join hu)
      · exact absurd hp.symm hne
    · rcases hmem hu with hu | ⟨-, rfl⟩
      · rw [h.join hu] at hnone
        cases hnone
      · exact hsome
  · intro t u hsome
    rcases hjoiner t with ⟨hne, heq⟩ | ⟨rfl, -, hself', -⟩
    · rcases h.joiner (heq ▸ hsome) with hu | ⟨hended, hfree'⟩
      · refine .inl ?_
        rw [Function.update_of_ne (Ne.symm hne)]
        exact hu
      · have hne' : t ≠ self := by
          rintro rfl
          rw [hself.2.2] at hended
          cases hended
        exact .inr ⟨(hstate t hne').trans hended, hfree'.enter hne' p⟩
    · cases hsome.symm.trans hself'
      refine .inl ?_
      rw [Function.update_self]
      simp
  · intro t hne
    rcases hjoiner t with ⟨-, heq⟩ | ⟨-, -, -, honce'⟩
    · exact honce t (h.once (heq ▸ hne))
    · exact honce'
  · intro q t ht
    by_cases hne : t = self
    · exact .inl (hne ▸ hblocked)
    · rw [hstate t hne]
      rcases hmem ht with ht | ⟨-, heq⟩
      · exact h.stopped ht
      · exact absurd heq hne
  · intro t ht
    rw [hnum] at ht
    obtain ⟨hnone, hfree'⟩ := h.unborn ht
    have hne : t ≠ self := fun heq => absurd (heq ▸ hself.2.1) (Nat.not_lt.2 ht)
    rcases hjoiner t with ⟨-, heq⟩ | ⟨hp, -⟩
    · exact ⟨heq.trans hnone, hfree'.enter hne p⟩
    · exact absurd (hborn t hp) (Nat.not_lt.2 ht)

end Placed

/-! ### What the operations do to a thread -/

theorem thread_modify (s : Threads) (t u : TRef) (f : Thread → Thread) :
    (s.modify t f).thread u = if u = t then f (s.thread t) else s.thread u := by
  show Function.update s.thread t (f (s.thread t)) u = _
  split_ifs with h
  · rw [h, Function.update_self]
  · rw [Function.update_of_ne h]

theorem state_block (s : Threads) (t u : TRef) :
    (s.block t).state u = if u = t then .BLOCKED else s.state u := by
  unfold state block
  rw [thread_modify]
  split_ifs <;> rfl

theorem statesSet_joiner (thread : TRef → Thread) (ts : List TRef) (state : ThreadState) (t : TRef) :
    (statesSet thread ts state t).joiner = (thread t).joiner := by
  unfold statesSet
  split <;> rfl

theorem statesSet_hasBeenJoined (thread : TRef → Thread) (ts : List TRef) (state : ThreadState)
    (t : TRef) : (statesSet thread ts state t).hasBeenJoined = (thread t).hasBeenJoined := by
  unfold statesSet
  split <;> rfl

theorem statesSet_state (thread : TRef → Thread) (ts : List TRef) (state : ThreadState) (t : TRef) :
    (statesSet thread ts state t).state = if t ∈ ts then state else (thread t).state := by
  unfold statesSet
  split <;> rfl

theorem saved_joiner (s : Threads) (t : TRef) : (s.saved t).joiner = (s.thread t).joiner := by
  unfold saved
  split <;> rfl

theorem saved_hasBeenJoined (s : Threads) (t : TRef) :
    (s.saved t).hasBeenJoined = (s.thread t).hasBeenJoined := by
  unfold saved
  split <;> rfl

/-- A thread is saved as READY if it was RUNNING, and else in the state it was in. -/
theorem saved_state (s : Threads) (t : TRef) :
    (s.saved t).state = s.state t ∨ (s.state t = .RUNNING ∧ (s.saved t).state = .READY) := by
  unfold saved
  split
  · by_cases hrunning : s.state t = .RUNNING
    · exact .inr ⟨hrunning, if_pos hrunning⟩
    · exact .inl (if_neg hrunning)
  · exact .inl rfl

theorem mutex_setMutex {id : Nat} {m m₀ : Mutex} (hm : s.mutex pid id = some m₀) (pid' : Pid)
    (id' : Nat) : (s.setMutex pid id m).mutex pid' id' =
      if pid' = pid ∧ id' = id then some m else s.mutex pid' id' := by
  show (Function.update s.mutexes pid ((s.mutexes pid).set id m) pid')[id']? = _
  obtain ⟨hlt, -⟩ := List.getElem?_eq_some_iff.1 hm
  by_cases hpid : pid' = pid
  · subst hpid
    rw [Function.update_self, List.getElem?_set]
    by_cases hid : id = id'
    · rw [if_pos hid, if_pos hlt, if_pos ⟨rfl, hid.symm⟩]
    · rw [if_neg hid, if_neg fun h => hid h.2.symm]
      rfl
  · rw [Function.update_of_ne hpid, if_neg fun h => hpid h.1]
    rfl

theorem queue_setMutex {id : Nat} {m m₀ : Mutex} (hm : s.mutex pid id = some m₀) (pid' : Pid)
    (id' : Nat) : (s.setMutex pid id m).queue pid' id' =
      if pid' = pid ∧ id' = id then m.waitQueue else s.queue pid' id' := by
  unfold queue
  rw [mutex_setMutex hm]
  split_ifs <;> rfl

theorem queue_of_mutex {id : Nat} {m : Mutex} (hm : s.mutex pid id = some m) :
    s.queue pid id = m.waitQueue := by
  rw [queue, hm]
  rfl

/-- A new mutex has an empty queue, as has a mutex that is not there. -/
theorem queue_newMutex (s : Threads) (pid pid' : Pid) (id : Nat) :
    (s.setMutexes pid (s.mutexes pid ++ [({} : Mutex)])).queue pid' id = s.queue pid' id := by
  unfold queue mutex
  show ((((Function.update s.mutexes pid _) pid')[id]?).map _).getD [] = _
  by_cases hpid : pid' = pid
  · subst hpid
    rw [Function.update_self, List.getElem?_append]
    split_ifs with hlt
    · rfl
    · rw [List.getElem?_eq_none (Nat.le_of_not_lt hlt)]
      rcases id - (s.mutexes pid').length with _ | n
      · rfl
      · rfl
  · rw [Function.update_of_ne hpid]

theorem queue_recycle (s : Threads) (pid pid' : Pid) (active : Bool) (id : Nat) :
    (s.recycle pid active).queue pid' id = if pid' = pid then [] else s.queue pid' id := by
  unfold queue mutex
  show ((((Function.update s.mutexes pid []) pid')[id]?).map _).getD [] = _
  split_ifs with hpid
  · rw [hpid, Function.update_self]
    rfl
  · rw [Function.update_of_ne hpid]

/-- The lines without the wait queues of the mutexes of process `pid`. -/
def recycled (line : Place → List TRef) (pid : Pid) : Place → List TRef
  | .queue pid' id => if pid' = pid then [] else line (.queue pid' id)
  | p => line p

theorem recycled_sublist (line : Place → List TRef) (pid : Pid) (p : Place) :
    (recycled line pid p).Sublist (line p) := by
  cases p with
  | queue pid' id =>
    unfold recycled
    dsimp only
    split_ifs
    · exact List.nil_sublist _
    · exact .refl _
  | _ => exact .refl _

/-! ### The operations keep the placement -/

namespace Placed

theorem terminate (h : Placed s line) (pid : Pid) (exitCode : Word) :
    Placed (s.terminate pid exitCode) (Function.update line (.waiters pid) []) := by
  refine h.shrink (OneLine.dissolve_sublist line _) (fun pid' => ?_) (fun pid' id => ?_)
    (fun t => .inl ?_) (fun t => ?_) (fun t hjoined => ?_) le_rfl fun t => ?_
  · show _ = Function.update s.waiters pid [] pid'
    by_cases hpid : pid' = pid
    · rw [hpid, Function.update_self, Function.update_self]
    · rw [Function.update_of_ne (by rintro ⟨⟩; exact hpid rfl), Function.update_of_ne hpid, h.waiters]
  · exact (Function.update_of_ne (by nofun) _ _).trans (h.queue pid' id)
  · exact Function.update_of_ne (by nofun) _ _
  · exact (statesSet_joiner _ _ _ _).trans (statesSet_joiner _ _ _ _)
  · exact ((statesSet_hasBeenJoined _ _ _ _).trans (statesSet_hasBeenJoined _ _ _ _)).trans hjoined
  · have hstate : (s.terminate pid exitCode).state t =
        if t ∈ s.waiters pid then .READY else
          if t ∈ s.members pid then .TERMINATED else s.state t := by
      unfold state
      exact (statesSet_state _ _ _ _).trans (by rw [statesSet_state])
    rw [hstate]
    by_cases hwaits : t ∈ s.waiters pid
    · rw [← h.waiters] at hwaits
      exact .inr (.inr ⟨h.oneLine.free_dissolved hwaits, fun hand => hand.2 _ hwaits⟩)
    · rw [if_neg hwaits]
      split_ifs
      · exact .inr (.inl rfl)
      · exact .inl rfl

theorem unlock {id : Nat} {m m' : Mutex} (h : Placed s line) (hm : s.mutex pid id = some m)
    (hempty : m'.waitQueue = []) :
    Placed ((s.wake m.waitQueue).setMutex pid id m') (Function.update line (.queue pid id) []) := by
  have hqueue : line (.queue pid id) = m.waitQueue := (h.queue pid id).trans (queue_of_mutex hm)
  refine h.shrink (OneLine.dissolve_sublist line _) (fun pid' => ?_) (fun pid' id' => ?_)
    (fun t => .inl ?_) (fun t => statesSet_joiner _ _ _ _)
    (fun t hjoined => (statesSet_hasBeenJoined _ _ _ _).trans hjoined) le_rfl fun t => ?_
  · exact (Function.update_of_ne (by nofun) _ _).trans (h.waiters pid')
  · have hm' : (s.wake m.waitQueue).mutex pid id = some m := hm
    rw [queue_setMutex hm']
    split_ifs with heq
    · rw [heq.1, heq.2, Function.update_self, hempty]
    · rw [Function.update_of_ne (by rintro ⟨⟩; exact heq ⟨rfl, rfl⟩), h.queue]
      rfl
  · exact Function.update_of_ne (by nofun) _ _
  · have hstate : ((s.wake m.waitQueue).setMutex pid id m').state t =
        if t ∈ m.waitQueue then .READY else s.state t := statesSet_state _ _ _ _
    rw [hstate]
    by_cases hmem : t ∈ m.waitQueue
    · rw [← hqueue] at hmem
      exact .inr (.inr ⟨h.oneLine.free_dissolved hmem, fun hand => hand.2 _ hmem⟩)
    · exact .inl (if_neg hmem)

theorem threadExit (h : Placed s line) (hself : s.Running self) (exitCode : Word) :
    Placed (s.threadExit self exitCode) (Function.update line (.join self) []) := by
  have hfree := h.free_running hself
  have hlive : s.state self ≠ .TERMINATED := by
    rw [hself.2.2]
    nofun
  -- the joiner, if there is one, stands in the line of `self` and in no other
  have hwoken : ∀ {u}, (s.thread self).joiner = some u → u ∈ line (.join self) := by
    intro u hsome
    rcases h.joiner hsome with hmem | ⟨hended, -⟩
    · exact hmem
    · exact absurd hended hlive
  have hthread : ∀ t, ((s.threadExit self exitCode).thread t).joiner = (s.thread t).joiner ∧
      ((s.threadExit self exitCode).thread t).hasBeenJoined = (s.thread t).hasBeenJoined ∧
      ((s.threadExit self exitCode).state t = s.state t ∧ t ≠ self ∨
        t = self ∧ (s.threadExit self exitCode).state t = .TERMINATED ∨
        t ∈ line (.join self)) := by
    intro t
    unfold Threads.threadExit state
    dsimp only
    split
    · rw [thread_modify]
      split_ifs with ht
      · subst ht
        exact ⟨rfl, rfl, .inr (.inl ⟨rfl, rfl⟩)⟩
      · exact ⟨rfl, rfl, .inl ⟨rfl, ht⟩⟩
    · rename_i u hsome
      have hne : u ≠ self := by
        rintro rfl
        exact hfree _ (hwoken hsome)
      rw [thread_modify, thread_modify, thread_modify]
      by_cases hu : t = u
      · subst hu
        rw [if_pos rfl, if_neg hne]
        exact ⟨rfl, rfl, .inr (.inr (hwoken hsome))⟩
      · rw [if_neg hu]
        split_ifs with ht
        · subst ht
          exact ⟨rfl, rfl, .inr (.inl ⟨rfl, rfl⟩)⟩
        · exact ⟨rfl, rfl, .inl ⟨rfl, ht⟩⟩
  have hrest : (s.threadExit self exitCode).waiters = s.waiters ∧
      (s.threadExit self exitCode).mutexes = s.mutexes ∧
      (s.threadExit self exitCode).numThreads = s.numThreads := by
    unfold Threads.threadExit
    dsimp only
    split <;> exact ⟨rfl, rfl, rfl⟩
  refine h.shrink (OneLine.dissolve_sublist line _) (fun pid => ?_) (fun pid id => ?_)
    (fun t => ?_) (fun t => (hthread t).1) (fun t hjoined => (hthread t).2.1.trans hjoined)
    hrest.2.2.ge fun t => ?_
  · rw [hrest.1]
    exact (Function.update_of_ne (by nofun) _ _).trans (h.waiters pid)
  · rw [Threads.queue, mutex, hrest.2.1]
    exact (Function.update_of_ne (by nofun) _ _).trans (h.queue pid id)
  · by_cases ht : t = self
    · subst ht
      refine .inr ⟨?_, hfree⟩
      rcases (hthread t).2.2 with ⟨-, hne⟩ | ⟨-, hended⟩ | hmem
      · exact absurd rfl hne
      · exact hended
      · exact absurd hmem (hfree _)
    · rw [Function.update_of_ne (by rintro ⟨⟩; exact ht rfl)]
      exact .inl rfl
  · rcases (hthread t).2.2 with ⟨heq, -⟩ | ⟨-, hended⟩ | hmem
    · exact .inl heq
    · exact .inr (.inl hended)
    · exact .inr (.inr ⟨h.oneLine.free_dissolved hmem, fun hand => hand.2 _ hmem⟩)

theorem recycle (h : Placed s line) (pid : Pid) (active : Bool) :
    Placed (s.recycle pid active) (recycled line pid) := by
  refine h.shrink (recycled_sublist line pid) h.waiters (fun pid' id => ?_) (fun _ => .inl rfl)
    (fun _ => rfl) (fun _ => id) le_rfl fun _ => .inl rfl
  rw [queue_recycle, ← h.queue]
  rfl

theorem spawn (h : Placed s line) (pid : Pid) (entry stack : Addr) (arg : Word) :
    Placed (s.spawn pid entry stack arg) line := by
  obtain ⟨hnone, hfree⟩ := h.unborn le_rfl
  have hthread : ∀ t, (s.spawn pid entry stack arg).thread t =
      if t = s.numThreads then (s.spawn pid entry stack arg).thread s.numThreads
      else s.thread t := by
    intro t
    split_ifs with ht
    · rw [ht]
    · exact Function.update_of_ne ht _ _
  have hnew : ((s.spawn pid entry stack arg).thread s.numThreads).joiner = none := by
    unfold Threads.spawn
    dsimp only
    rw [Function.update_self]
    rfl
  refine ⟨h.oneLine, h.waiters, h.queue, fun {t u} hmem => ?_, fun {t u} hsome => ?_,
    fun {t} hne => ?_, fun {p t} hmem => ?_, fun {t} ht => ?_⟩
  · have ht : t ≠ s.numThreads := by
      rintro rfl
      rw [h.join hmem] at hnone
      cases hnone
    rw [hthread, if_neg ht]
    exact h.join hmem
  · have ht : t ≠ s.numThreads := by
      rintro rfl
      rw [hnew] at hsome
      cases hsome
    rw [state, hthread, if_neg ht] at *
    exact h.joiner hsome
  · have ht : t ≠ s.numThreads := by
      rintro rfl
      exact hne hnew
    rw [hthread, if_neg ht] at *
    exact h.once hne
  · have ht : t ≠ s.numThreads := by
      rintro rfl
      exact hfree p hmem
    rw [state, hthread, if_neg ht]
    exact h.stopped hmem
  · have hlt : s.numThreads < t := ht
    rw [hthread, if_neg hlt.ne']
    exact h.unborn hlt.le

theorem switch (h : Placed s line) (hready : s.state t = .READY) : Placed (s.switch t) line := by
  have hthread : ∀ u, (s.switch t).thread u =
      if u = t then { s.thread t with state := .RUNNING } else s.saved u := by
    intro u
    unfold Threads.switch
    dsimp only
    split_ifs with hu
    · rw [hu, Function.update_self]
    · rw [Function.update_of_ne hu]
  refine h.congr rfl (fun _ _ => rfl) (fun u => ?_) (fun u hjoined => ?_) le_rfl fun u => ?_
  · rw [hthread]
    split_ifs with hu
    · rw [hu]
    · exact saved_joiner s u
  · rw [hthread]
    split_ifs with hu
    · rwa [hu] at hjoined
    · exact (saved_hasBeenJoined s u).trans hjoined
  · rw [state, hthread]
    split_ifs with hu
    · rw [hu]
      exact .inr (.inr ⟨h.free (by rw [hready]; nofun) (by rw [hready]; nofun),
        by rw [hready]; nofun⟩)
    · rcases saved_state s u with heq | ⟨hrunning, -⟩
      · exact .inl heq
      · exact .inr (.inr ⟨h.free (by rw [hrunning]; nofun) (by rw [hrunning]; nofun),
          by rw [hrunning]; nofun⟩)

end Placed

/-! ### Steps -/

/-- The threads of a process exist, and know that they are its threads. -/
def Rooted (s : Threads) : Prop := ∀ pid, ∀ t ∈ s.members pid, t < s.numThreads ∧ s.parent t = pid

theorem Joins.born (hrooted : s.Rooted) (h : s.Joins self ctx t) :
    t < s.numThreads ∧ s.parent t = s.parent self :=
  hrooted _ t (List.mem_of_find?_eq_some h.1)

namespace Placed

theorem markJoined (h : Placed s line) (t : TRef) : Placed (s.markJoined t) line := by
  have hthread : ∀ u, (s.markJoined t).thread u =
      if u = t then { s.thread t with hasBeenJoined := true } else s.thread u :=
    fun u => thread_modify s t u _
  refine h.congr rfl (fun _ _ => rfl) (fun u => ?_) (fun u hjoined => ?_) le_rfl fun u => .inl ?_
  · rw [hthread]
    split_ifs with hu
    · rw [hu]
    · rfl
  · rw [hthread]
    split_ifs
    · rfl
    · exact hjoined
  · rw [state, hthread]
    split_ifs with hu
    · rw [hu]
      rfl
    · rfl

theorem joinThread (h : Placed s line) (hrooted : s.Rooted) (hself : s.Running self)
    (hjoins : s.Joins self ctx t) :
    Placed (s.joinThread t self) (Function.update line (.join t) (line (.join t) ++ [self])) := by
  have hnone : (s.thread t).joiner = none := by
    by_contra hsome
    have honce := h.once hsome
    rw [hjoins.2.2] at honce
    cases honce
  have hne : t ≠ self := by
    rintro rfl
    exact hjoins.2.1 rfl
  have hthread : ∀ u, (s.joinThread t self).thread u =
      if u = self then { s.thread self with state := .BLOCKED }
      else if u = t then { s.thread t with hasBeenJoined := true, joiner := some self }
      else s.thread u := by
    intro u
    unfold Threads.joinThread block Threads.markJoined
    simp only [thread_modify, if_true, if_neg hne.symm]
    split_ifs <;> rfl
  refine h.enter hself (.join t) (fun _ => ?_) (fun _ _ => ?_) (fun u => ?_) (fun u hjoined => ?_) rfl
    ?_ (fun u hu => ?_) ?_
  · rw [if_neg nofun, List.append_nil]
    rfl
  · rw [if_neg nofun, List.append_nil]
    rfl
  · by_cases hu : u = t
    · subst hu
      rw [hthread, if_neg hne, if_pos rfl]
      exact .inr ⟨rfl, hnone, rfl, rfl⟩
    · refine .inl ⟨by rintro ⟨⟩; exact hu rfl, ?_⟩
      rw [hthread, if_neg hu]
      split_ifs with heq
      · rw [heq]
      · rfl
  · rw [hthread]
    split_ifs with heq
    · rwa [heq] at hjoined
    · rfl
    · exact hjoined
  · rw [state, hthread, if_pos rfl]
  · rw [state, hthread, if_neg hu]
    split_ifs with heq
    · rw [heq]
      rfl
    · rfl
  · rintro u ⟨⟩
    exact (hjoins.born hrooted).1

theorem await (h : Placed s line) (hself : s.Running self) (pid : Pid) :
    Placed (s.await pid self) (Function.update line (.waiters pid) (line (.waiters pid) ++ [self])) := by
  have hthread : ∀ u, (s.await pid self).thread u =
      if u = self then { s.thread self with state := .BLOCKED } else s.thread u :=
    fun u => thread_modify s self u fun thread => { thread with state := .BLOCKED }
  refine h.enter hself (.waiters pid) (fun pid' => ?_) (fun _ _ => ?_) (fun u => .inl ⟨nofun, ?_⟩)
    (fun u hjoined => ?_) rfl ?_ (fun u hu => ?_) nofun
  · show Function.update s.waiters pid _ pid' = _
    by_cases hpid : pid' = pid
    · rw [hpid, Function.update_self, if_pos rfl]
    · rw [Function.update_of_ne hpid, if_neg (by rintro ⟨⟩; exact hpid rfl), List.append_nil]
  · rw [if_neg nofun, List.append_nil]
    rfl
  · rw [hthread]
    split_ifs with heq
    · rw [heq]
    · rfl
  · rw [hthread]
    split_ifs with heq
    · rwa [heq] at hjoined
    · exact hjoined
  · rw [state, hthread, if_pos rfl]
  · rw [state, hthread, if_neg hu]
    rfl

theorem lockBlocks {id : Nat} {m : Mutex} (h : Placed s line) (hself : s.Running self)
    (hm : s.mutex pid id = some m) :
    Placed ((s.block self).setMutex pid id { m with waitQueue := m.waitQueue ++ [self] })
      (Function.update line (.queue pid id) (line (.queue pid id) ++ [self])) := by
  have hm' : (s.block self).mutex pid id = some m := hm
  have hstate := state_block s self
  refine h.enter hself (.queue pid id) (fun _ => ?_) (fun pid' id' => ?_) (fun u => .inl ⟨nofun, ?_⟩)
    (fun u hjoined => ?_) rfl ?_ (fun u hu => ?_) nofun
  · rw [if_neg nofun, List.append_nil]
    rfl
  · rw [queue_setMutex hm']
    by_cases heq : pid' = pid ∧ id' = id
    · obtain ⟨rfl, rfl⟩ := heq
      rw [if_pos ⟨rfl, rfl⟩, if_pos rfl, queue_of_mutex hm]
    · rw [if_neg heq, if_neg (by rintro ⟨⟩; exact heq ⟨rfl, rfl⟩), List.append_nil]
      rfl
  · show ((s.block self).thread u).joiner = _
    rw [block, thread_modify]
    split_ifs with heq
    · rw [heq]
    · rfl
  · show ((s.block self).thread u).hasBeenJoined = true
    rw [block, thread_modify]
    split_ifs with heq
    · rwa [heq] at hjoined
    · exact hjoined
  · exact (hstate self).trans (if_pos rfl)
  · exact (hstate u).trans (if_neg hu)

theorem lock {id : Nat} {m m' : Mutex} (h : Placed s line) (hm : s.mutex pid id = some m)
    (hsame : m'.waitQueue = m.waitQueue) : Placed (s.setMutex pid id m') line := by
  refine h.congr_thread rfl (fun pid' id' => ?_) rfl rfl
  rw [queue_setMutex hm]
  split_ifs with heq
  · rw [heq.1, heq.2, hsame, queue_of_mutex hm]
  · rfl

end Placed

/-- The threads stand in new lines, which nobody has joined but a thread that ran and has blocked. -/
def Replaced (s s' : Threads) (line : Place → List TRef) : Prop :=
  ∃ line', Placed s' line' ∧
    ∀ t, Free line t → Free line' t ∨ (s.Running t ∧ s'.state t = .BLOCKED)

theorem Placed.replaced (h : Placed s' line') (hsub : ∀ p, (line' p).Sublist (line p)) :
    Replaced s s' line := ⟨line', h, fun _ hfree => .inl (hfree.shrink hsub)⟩

theorem Placed.replaced_enter {p : Place}
    (h : Placed s' (Function.update line p (line p ++ [self]))) (hself : s.Running self)
    (hblocked : s'.state self = .BLOCKED) : Replaced s s' line := by
  refine ⟨_, h, fun t hfree => ?_⟩
  by_cases ht : t = self
  · subst ht
    exact .inr ⟨hself, hblocked⟩
  · exact .inl (hfree.enter ht p)

/-- Every system call keeps the placement. -/
theorem Call.placed (hrooted : s.Rooted) (hself : s.Running self) (h : Placed s line)
    (hcall : s.Call self ctx r s') : Replaced s s' line := by
  have hrefl : ∀ p, (line p).Sublist (line p) := fun _ => .refl _
  cases hcall with
  | data => exact h.replaced hrefl
  | threadRefused => exact h.replaced hrefl
  | threadCreate => exact (h.spawn _ _ _ _).replaced hrefl
  | threadExit => exact (h.threadExit hself _).replaced (OneLine.dissolve_sublist line _)
  | joinRefused => exact h.replaced hrefl
  | joinEnded => exact (h.markJoined _).replaced hrefl
  | joinBlocks hid hjoins =>
    exact (h.joinThread hrooted hself hjoins).replaced_enter hself
      ((state_block _ _ _).trans (if_pos rfl))
  | mutexCreate =>
    refine Placed.replaced ?_ hrefl
    exact h.congr_thread rfl (fun _ _ => queue_newMutex _ _ _ _) rfl rfl
  | lock hid hm =>
    refine Placed.replaced ?_ hrefl
    exact h.lock hm.2 rfl
  | lockBlocks hid hm =>
    exact (h.lockBlocks hself hm.2).replaced_enter hself ((state_block _ _ _).trans (if_pos rfl))
  | unlock hid hm => exact (h.unlock hm.2 rfl).replaced (OneLine.dissolve_sublist line _)
  | processExit => exact (h.terminate _ _).replaced (OneLine.dissolve_sublist line _)
  | processRefused => exact h.replaced hrefl
  | loadFailed => exact (h.recycle _ _).replaced (recycled_sublist _ _)
  | load => exact ((h.recycle _ true).spawn _ _ _ _).replaced (recycled_sublist _ _)
  | joinProcessRefused => exact h.replaced hrefl
  | reap =>
    refine Placed.replaced ?_ hrefl
    exact h.congr_thread rfl (fun _ _ => rfl) rfl rfl
  | await => exact (h.await hself _).replaced_enter hself ((state_block _ _ _).trans (if_pos rfl))

/-- Every step keeps the placement. -/
theorem Step.placed (hrooted : s.Rooted) (h : Placed s line) (hstep : s.Step e s') :
    Replaced s s' line := by
  have hrefl : ∀ p, (line p).Sublist (line p) := fun _ => .refl _
  cases hstep with
  | user =>
    refine Placed.replaced ?_ hrefl
    exact h.congr_thread rfl (fun _ _ => rfl) rfl rfl
  | fault => exact h.replaced hrefl
  | segfault => exact (h.terminate _ _).replaced (OneLine.dissolve_sublist line _)
  | syscall hself hargs hcall =>
    obtain ⟨line', h', hfree⟩ := hcall.placed hrooted hself h
    exact ⟨line', h'.congr_thread rfl (fun _ _ => rfl) rfl rfl, hfree⟩
  | badMutex =>
    have hdelivered : Placed (s.deliver mutexError) line :=
      h.congr_thread rfl (fun _ _ => rfl) rfl rfl
    exact (hdelivered.terminate _ _).replaced (OneLine.dissolve_sublist line _)
  | stay => exact h.replaced hrefl
  | switch ht hready => exact (h.switch hready).replaced hrefl
  | rehash => exact h.replaced hrefl

end Threads

end Rv32umos
