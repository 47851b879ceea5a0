import Rv32umos.Kernel.Process

/-!
# The scheduler

`scheduler/Scheduler.cpp`. `preempt` looks at the threads after the current one, cyclically, for one
that is READY, and switches to it.
-/

namespace Rv32umos

namespace Kernel

/-- The order in which `preempt` looks at `activeThreads`. -/
def scanOrder (k : Kernel) : List TRef :=
  let start := match k.currentThreadIndex with
    | none => 0
    | some prevIndex => prevIndex + 1
  (List.range k.numThreads).map fun i => (start + i) % k.numThreads

/-- The first half of `contextSwitch`: the context of the previous thread, unless it is
TERMINATED. -/
def saveContext (k : Kernel) : Kernel :=
  match k.currentThreadIndex with
  | none => k
  | some prevThread =>
    if (k.thread prevThread).state = .TERMINATED then k
    else k.modifyThread prevThread fun thread =>
      { thread with
        regs := k.cpu.regs
        pc := k.cpu.pc
        state := if thread.state = .RUNNING then .READY else thread.state }

/-- The second half of `contextSwitch`. -/
def loadContext (k : Kernel) (nextIndex : TRef) : Kernel :=
  let nextThread := k.thread nextIndex
  let k' := k.setState nextIndex .RUNNING
  let currentTable :=
    match k.currentThreadIndex with
    | none => some nextThread.parent
    | some prevThread =>
      -- switch page table on process change
      if (k.thread prevThread).parent ≠ nextThread.parent then some nextThread.parent
      else k.cpu.currentTable
  { k' with
    cpu := { k.cpu with regs := nextThread.regs, pc := nextThread.pc, currentTable }
    currentThreadIndex := some nextIndex }

def contextSwitch (k : Kernel) (nextIndex : TRef) : Kernel := k.saveContext.loadContext nextIndex

/-- `Scheduler::preempt`. -/
def preempt (k : Kernel) : Kernel :=
  match k.scanOrder.find? fun t => (k.thread t).state = .READY with
  | none => k
  | some nextIndex =>
    if some nextIndex = k.currentThreadIndex then k else k.contextSwitch nextIndex

def checkAllTerminated (k : Kernel) : Bool :=
  (List.range k.numThreads).all fun t => (k.thread t).state = .TERMINATED

/-! ### The threads after a switch -/

/-- Thread `t` after `saveContext`. -/
def savedThread (k : Kernel) (t : TRef) : Thread :=
  if k.currentThreadIndex = some t ∧ (k.thread t).state ≠ .TERMINATED then
    { k.thread t with
      regs := k.cpu.regs
      pc := k.cpu.pc
      state := if (k.thread t).state = .RUNNING then .READY else (k.thread t).state }
  else k.thread t

theorem saveContext_eq (k : Kernel) : k.saveContext = { k with thread := k.savedThread } := by
  have hsame : (∀ t, k.savedThread t = k.thread t) → { k with thread := k.savedThread } = k := by
    intro h
    rw [show k.savedThread = k.thread from funext h]
  unfold saveContext
  split
  · rename_i hidx
    refine (hsame fun t => if_neg ?_).symm
    rw [hidx]
    simp
  · rename_i prev hidx
    by_cases hdead : (k.thread prev).state = .TERMINATED
    · rw [if_pos hdead]
      refine (hsame fun t => if_neg ?_).symm
      rintro ⟨ht, hstate⟩
      rw [hidx] at ht
      exact hstate (Option.some.inj ht ▸ hdead)
    · rw [if_neg hdead]
      unfold modifyThread
      refine congrArg (fun thread => { k with thread }) (funext fun t => ?_)
      unfold savedThread
      by_cases ht : t = prev
      · subst ht
        rw [Function.update_self, if_pos ⟨hidx, hdead⟩]
      · rw [Function.update_of_ne ht, if_neg]
        rw [hidx]
        exact fun hand => ht (Option.some.inj hand.1).symm

theorem savedThread_parent (k : Kernel) (t : TRef) :
    (k.savedThread t).parent = (k.thread t).parent := by
  unfold savedThread
  split <;> rfl

/-- The page table in use after a switch. -/
def switchedTable (k : Kernel) (nextIndex : TRef) : Option Pid :=
  match k.currentThreadIndex with
  | none => some (k.thread nextIndex).parent
  | some prevThread =>
    if (k.thread prevThread).parent ≠ (k.thread nextIndex).parent then
      some (k.thread nextIndex).parent
    else k.cpu.currentTable

/-- What a switch changes: the machine, the states and contexts of the two threads, and who is
current. -/
theorem contextSwitch_eq (k : Kernel) (nextIndex : TRef) :
    k.contextSwitch nextIndex =
      { k with
        cpu :=
          { k.cpu with
            regs := (k.savedThread nextIndex).regs
            pc := (k.savedThread nextIndex).pc
            currentTable := k.switchedTable nextIndex }
        thread := Function.update k.savedThread nextIndex
          { k.savedThread nextIndex with state := .RUNNING }
        currentThreadIndex := some nextIndex } := by
  unfold contextSwitch
  rw [saveContext_eq]
  unfold loadContext switchedTable setState modifyThread
  simp only [savedThread_parent]

/-- A preemption changes nothing, or switches to a READY thread that is not the current one. -/
theorem preempt_cases (k : Kernel) :
    k.preempt = k ∨ ∃ t < k.numThreads, (k.thread t).state = .READY ∧
      k.currentThreadIndex ≠ some t ∧ k.preempt = k.contextSwitch t := by
  unfold preempt
  cases hfind : k.scanOrder.find? fun t => decide ((k.thread t).state = .READY) with
  | none => exact .inl rfl
  | some t =>
    dsimp only
    split
    · exact .inl rfl
    · rename_i hne
      refine .inr ⟨t, ?_, by simpa using List.find?_some hfind, fun heq => hne heq.symm, rfl⟩
      have hmem : t ∈ k.scanOrder := List.mem_of_find?_eq_some hfind
      unfold scanOrder at hmem
      obtain ⟨i, hi, rfl⟩ := List.mem_map.1 hmem
      exact Nat.mod_lt _ (Nat.zero_lt_of_lt (List.mem_range.1 hi))

end Kernel

end Rv32umos
