import Rv32umos.Isa.Harts
import Rv32umos.Kernel.FlatSystem
import Rv32umos.Kernel.Joins
import Rv32umos.Kernel.Reaping

/-!
# A process on its own

Between system calls the threads of a process are harts that share a memory: nothing that other processes do,
no switch, no wakeup and no paging shows in their registers or in their memory (`process_isolated`). Hence
what they compute is settled by their own registers and memory, and by the order in which they take turns
(`process_settled`).
-/

namespace Rv32umos

open Bytes Rv32im Transition
open Kernel (Event Delivers)

/-- The thread of `ts` whose instruction the event is. -/
def Kernel.Event.turn (ts : List TRef) : Event → Option {t // t ∈ ts}
  | .user t => if h : t ∈ ts then some ⟨t, h⟩ else none
  | _ => none

namespace Threads

variable {s s' : Threads} {t : TRef} {ts : List TRef} {pid : Pid} {e : Event}

/-- Threads `ts` of process `pid` can go on. -/
structure Computing (s : Threads) (pid : Pid) (ts : List TRef) : Prop where
  active : s.active pid = true
  live : ∀ t ∈ ts, t < s.numThreads ∧ s.parent t = pid ∧ (s.state t = .READY ∨ s.state t = .RUNNING)

/-- All that process `pid` does is that threads `ts` compute: it makes no system call, and its faults are
served. -/
def Computes (s : Threads) (pid : Pid) (ts : List TRef) (e : Event) : Prop :=
  ∀ u, e.actor = some u → s.parent u = pid → u ∈ ts ∧ (e = .user u ∨ ∃ addr, e = .fault u addr true)

theorem Computes.not_kills (h : s.Computes pid ts e) : ¬ s.Kills e pid := by
  rintro ⟨self, hkiller, hparent⟩
  have hactor : e.actor = some self := by
    cases e with
    | fault t addr handled =>
      cases handled with
      | true => cases hkiller
      | false => exact hkiller
    | syscall t ctx r => exact congrArg some (killer_syscall.1 hkiller).1
    | _ => cases hkiller
  obtain ⟨-, rfl | ⟨addr, rfl⟩⟩ := h self hactor hparent
  · cases hkiller
  · cases hkiller

/-- A process is loaded into a free slot. -/
theorem Step.loads_inactive (hstep : s.Step e s') (hloads : e.loads pid = true) : s.active pid = false := by
  generalize s'.exitCodes pid = code, s'.waiters pid = waiters, hstep.slotEffect pid = heffect
  cases heffect with
  | same hdefers hnot => cases hnot.symm.trans hloads
  | killed hkills hdefers hnot => cases hnot.symm.trans hloads
  | reaped he => cases he.not_loads.symm.trans hloads
  | deferred he hactive hcode => cases he.not_loads.symm.trans hloads
  | loaded he hslot => exact hslot

/-- A thread that computes or waits for its turn stands in no line. -/
theorem Computing.free {line : Place → List TRef} (h : s.Computing pid ts) (hplaced : Placed s line)
    (ht : t ∈ ts) : Free line t := by
  obtain ⟨-, -, hstate⟩ := h.live t ht
  refine hplaced.free ?_ ?_
  · rcases hstate with hstate | hstate <;> rw [hstate] <;> decide
  · rcases hstate with hstate | hstate <;> rw [hstate] <;> decide

theorem Computing.step (h : s.Computing pid ts) (hsound : s.Sound) (hstep : s.Step e s')
    (hcomputes : s.Computes pid ts e) : s'.Computing pid ts := by
  refine ⟨(hstep.spared h.active hcomputes.not_kills).1, fun t ht => ?_⟩
  obtain ⟨line, hplaced⟩ := hsound.placed
  obtain ⟨hlt, hparent, hstate⟩ := h.live t ht
  have hfree := h.free hplaced ht
  have hnot : ∀ {ctx r}, e ≠ .syscall t ctx r := by
    rintro ctx r rfl
    obtain ⟨-, heq | ⟨addr, heq⟩⟩ := hcomputes t rfl hparent
    · cases heq
    · cases heq
  have hchange := hstep.change hplaced hlt
  refine ⟨hlt.trans_le hstep.num_le, hchange.parent_eq.trans hparent, ?_⟩
  unfold state
  generalize s'.thread t = thread at hchange
  cases hchange with
  | same => exact hstate
  | @ended pid' hkills hmem hwaits =>
    have hpid : pid' = pid := (hsound.rooted pid' t hmem).2.symm.trans hparent
    exact absurd (hpid ▸ hkills) hcomputes.not_kills
  | woken hwakes => exact absurd hfree (hwakes.not_free hplaced)
  | patched he hid hself hjoiner => exact absurd (hplaced.joiner_running hself hjoiner) (hfree _)
  | exited he hid => exact absurd he hnot
  | blocked he hself => exact absurd he hnot
  | marked he hid hjoins hended => exact hstate
  | awaited he hid hjoins hended => exact hstate
  | saved he =>
    unfold saved
    split
    · dsimp only
      split
      · exact .inl rfl
      · exact hstate
    · exact hstate
  | switched he hready hother => exact .inr rfl

/-- The context of a thread changes by its own instructions only. -/
theorem Computing.context_eq (h : s.Computing pid ts) (hsound : s.Sound) (hstep : s.Step e s')
    (hcomputes : s.Computes pid ts e) (ht : t ∈ ts) (hother : e ≠ .user t) : s'.context t = s.context t := by
  obtain ⟨line, hplaced⟩ := hsound.placed
  obtain ⟨hlt, hparent, hstate⟩ := h.live t ht
  by_cases hactor : e.actor = some t
  · obtain ⟨-, heq | ⟨addr, rfl⟩⟩ := hcomputes t hactor hparent
    · exact absurd heq hother
    · cases hstep
      rfl
  · have hlive : s.state t ≠ .TERMINATED := by
      rcases hstate with hstate | hstate <;> rw [hstate] <;> decide
    rcases hstep.context_eq hsound hlt hlive hactor with hsame | ⟨code, hpatches, -⟩
    · exact hsame
    · obtain ⟨self, ctx, r, he, hid, hself, hjoiner, -⟩ := hpatches
      exact absurd (hplaced.joiner_running hself hjoiner) (h.free hplaced ht _)

end Threads

namespace FlatSystem

variable {s s' : FlatSystem} {files : Name → Option (List Byte)} {ts : List TRef} {pid : Pid} {e : Event}

/-- Threads `ts` of process `pid` as harts. -/
def harts (s : FlatSystem) (pid : Pid) (ts : List TRef) : Harts {t // t ∈ ts} where
  regs t r := (s.threads.context t).1.read r.toNat
  pc t := (s.threads.context t).2
  memory := s.memory.read pid

theorem Step.threads_step (hstep : FlatSystem.Step files s e s') : s.threads.Step e s'.threads := by
  cases hstep with
  | user hself hsees hregs hpc => exact .user hself _ _
  | fault hthreads => exact hthreads
  | syscall hthreads hmemory => exact hthreads
  | preempt hthreads => exact hthreads
  | rehash pid => exact .rehash pid

/-! ### Memory -/

/-- The memory of a process after one of its instructions. -/
theorem exec_read (m : UserMemory) (pid : Pid) (i : Instr) (x : State Nat) :
    (UserMemory.exec m pid i x).read pid = written (m.read pid) i x := by
  funext a
  cases i with
  | store op rs1 rs2 imm =>
    unfold UserMemory.exec written
    dsimp only
    split_ifs with hin
    · obtain ⟨j, rfl⟩ := Nat.exists_eq_add_of_le hin.1
      rw [Nat.add_sub_cancel_left]
      exact FlatMemory.read_store_in m pid _ op.size _ (by omega)
    · exact FlatMemory.read_store_out m pid pid a _ op.size _ fun _ => by omega
  | _ => rfl

theorem exec_read_ne {m : UserMemory} {self : Pid} (i : Instr) (x : State Nat) (hne : pid ≠ self) :
    (UserMemory.exec m self i x).read pid = m.read pid := by
  funext a
  cases i with
  | store op rs1 rs2 imm =>
    exact FlatMemory.read_store_out m self pid a _ op.size _ fun heq => absurd heq hne
  | _ => rfl

/-- Other processes do not write to the memory of process `pid`. -/
theorem Step.memory_eq (hstep : FlatSystem.Step files s e s') (hactive : s.threads.active pid = true)
    (hother : ∀ u, e.actor = some u → s.threads.parent u ≠ pid) :
    s'.memory.read pid = s.memory.read pid := by
  have hthreads := hstep.threads_step
  cases hstep with
  | @user self i mem regs pc hself hsees hregs hpc => exact exec_read_ne i _ (hother self rfl).symm
  | fault => rfl
  | preempt => rfl
  | rehash => rfl
  | @syscall self ctx r threads memory _ hmemory =>
    have hne : pid ≠ s.threads.parent self := (hother self rfl).symm
    cases hmemory with
    | nothing => rfl
    | read hid hcount hreturn hdata =>
      funext a
      unfold FlatMemory.read
      rw [hdata.image]
      rcases hdata.stored pid a with hsame | ⟨heq, -⟩
      · rw [hsame]
      · exact absurd heq hne
    | status hid htarget hcode hptr =>
      funext a
      exact FlatMemory.read_store_out _ _ pid a _ 4 _ fun heq => absurd heq hne
    | @load child filename file segments hid hreturn =>
      have hchild : pid ≠ child := by
        rintro rfl
        cases hactive.symm.trans (hthreads.loads_inactive (Threads.loads_iff.2 ⟨hid, hreturn⟩))
      obtain ⟨hstored, himage⟩ := s.memory.renew_ne hchild
        (({ Process.new filename with segments } : Process).image files)
      unfold FlatMemory.read
      rw [hstored, himage]

/-! ### Harts -/

/-- An instruction of a thread is the turn of a hart. -/
theorem Step.turn (hstep : FlatSystem.Step files s (.user t) s') (hsound : s.threads.Sound)
    (hcomputing : s.threads.Computing pid ts) (hcomputes : s.threads.Computes pid ts (.user t)) (ht : t ∈ ts) :
    ∃ i, (s.harts pid ts).Step (⟨t, ht⟩, i) (s'.harts pid ts) := by
  have hothers : ∀ u ∈ ts, u ≠ t → s'.threads.context u = s.threads.context u := fun u hu hne =>
    hcomputing.context_eq hsound hstep.threads_step hcomputes hu fun heq => hne (Event.user.inj heq).symm
  obtain ⟨-, hparent, -⟩ := hcomputing.live t ht
  cases hstep with
  | @user _ i mem regs pc hself hsees hregs hpc =>
    rw [hparent] at hsees
    have hcontext : s.threads.context t = (s.threads.regs, s.threads.pc) := if_pos hself.1
    have hcontext' : ({ s.threads with regs, pc } : Threads).context t = (regs, pc) := if_pos hself.1
    have hhart : (s.harts pid ts).hart ⟨t, ht⟩ mem = s.state mem := by
      show (⟨fun r => (s.threads.context t).1.read r.toNat, (s.threads.context t).2, mem⟩ : State Nat) = _
      rw [hcontext]
      rfl
    have hcode : ∀ j < 4, mem (((s.harts pid ts).pc ⟨t, ht⟩).toNat + j) = byteAt (encode i) j := by
      show ∀ j < 4, mem ((s.threads.context t).2.toNat + j) = _
      rw [hcontext]
      exact hsees.code
    have hturn := Harts.Step.turn (x := s.harts pid ts) (t := ⟨t, ht⟩) hsees.admits hcode
    rw [hhart] at hturn
    refine ⟨i, ?_⟩
    convert hturn using 1
    unfold harts
    rw [Harts.mk.injEq]
    refine ⟨?_, ?_, ?_⟩
    · funext u r
      by_cases hu : u = ⟨t, ht⟩
      · rw [hu, Function.update_self, hcontext', hregs]
      · have hne : u.1 ≠ t := fun heq => hu (Subtype.ext heq)
        rw [Function.update_of_ne hu, hothers u.1 u.2 hne]
    · funext u
      by_cases hu : u = ⟨t, ht⟩
      · rw [hu, Function.update_self, hcontext', hpc]
      · have hne : u.1 ≠ t := fun heq => hu (Subtype.ext heq)
        rw [Function.update_of_ne hu, hothers u.1 u.2 hne]
    · show (UserMemory.exec s.memory (s.threads.parent t) i (s.state mem)).read pid = _
      rw [hparent, exec_read]

/-- A step is the turn of a hart, or the harts do not notice it. -/
theorem Step.harts_step (hstep : FlatSystem.Step files s e s') (hsound : s.threads.Sound)
    (hcomputing : s.threads.Computing pid ts) (hcomputes : s.threads.Computes pid ts e) :
    (e.turn ts = none ∧ s'.harts pid ts = s.harts pid ts) ∨
    ∃ t i, e.turn ts = some t ∧ (s.harts pid ts).Step (t, i) (s'.harts pid ts) := by
  by_cases hturn : ∃ t ∈ ts, e = .user t
  · obtain ⟨t, ht, rfl⟩ := hturn
    obtain ⟨i, hstep⟩ := hstep.turn hsound hcomputing hcomputes ht
    exact .inr ⟨⟨t, ht⟩, i, dif_pos ht, hstep⟩
  · have hnone : e.turn ts = none := by
      cases e with
      | user t => exact dif_neg fun ht => hturn ⟨t, ht, rfl⟩
      | _ => rfl
    have hcontext : ∀ t ∈ ts, s'.threads.context t = s.threads.context t := fun t ht =>
      hcomputing.context_eq hsound hstep.threads_step hcomputes ht fun heq => hturn ⟨t, ht, heq⟩
    have hmemory : s'.memory.read pid = s.memory.read pid := by
      by_cases hactor : ∃ u, e.actor = some u ∧ s.threads.parent u = pid
      · obtain ⟨u, hu, hparent⟩ := hactor
        obtain ⟨hmem, rfl | ⟨addr, rfl⟩⟩ := hcomputes u hu hparent
        · exact absurd ⟨u, hmem, rfl⟩ hturn
        · cases hstep
          rfl
      · exact hstep.memory_eq hcomputing.active fun u hu hparent => hactor ⟨u, hu, hparent⟩
    refine .inl ⟨hnone, ?_⟩
    unfold harts
    rw [hmemory, Harts.mk.injEq]
    refine ⟨funext fun t => ?_, funext fun t => ?_, rfl⟩
    · rw [hcontext t.1 t.2]
    · rw [hcontext t.1 t.2]

/-- While they compute, the threads of a process are harts that take turns. -/
theorem harts_run {es : List Event} (hsound : s.threads.Sound) (hcomputing : s.threads.Computing pid ts)
    (hrun : Run (Guarded (FlatSystem.Step files) fun s e => s.threads.Computes pid ts e) s es s') :
    ∃ is, Run Harts.Step (s.harts pid ts) is (s'.harts pid ts) ∧
      is.map Prod.fst = es.filterMap (Event.turn ts) := by
  suffices h : s'.threads.Sound ∧ s'.threads.Computing pid ts ∧
      ∃ is, Run Harts.Step (s.harts pid ts) is (s'.harts pid ts) ∧
        is.map Prod.fst = es.filterMap (Event.turn ts) from h.2.2
  refine hrun.induct (fun es s' => s'.threads.Sound ∧ s'.threads.Computing pid ts ∧
    ∃ is, Run Harts.Step (s.harts pid ts) is (s'.harts pid ts) ∧
      is.map Prod.fst = es.filterMap (Event.turn ts)) ⟨hsound, hcomputing, [], .nil, rfl⟩ ?_
  rintro es s₁ e s₂ ⟨hsound₁, hcomputing₁, is, hturns, hmap⟩ ⟨hstep, hcomputes⟩
  refine ⟨hstep.threads_step.sound hsound₁, hcomputing₁.step hsound₁ hstep.threads_step hcomputes, ?_⟩
  rw [List.filterMap_append, ← hmap]
  rcases hstep.harts_step hsound₁ hcomputing₁ hcomputes with ⟨hnone, hsame⟩ | ⟨t, i, hsome, hturn⟩
  · refine ⟨is, hsame ▸ hturns, ?_⟩
    rw [List.filterMap_cons_none hnone, List.filterMap_nil, List.append_nil]
  · refine ⟨is ++ [(t, i)], hturns.snoc hturn, ?_⟩
    rw [List.filterMap_cons_some hsome, List.filterMap_nil, List.map_append]
    rfl

end FlatSystem

namespace Kernel

open FlatSystem (Simulates)

variable {k k' : Kernel} {s : FlatSystem} {files : Name → Option (List Byte)} {pid : Pid} {ts : List TRef}
  {es : List Event}

/-- What a step must meet while threads `ts` of process `pid` compute. -/
def ConfinedComputing (pid : Pid) (ts : List TRef) (k : Kernel) (e : Event) : Prop :=
  k.Confined e ∧ k.threads.Computes pid ts e

/-- The harts of a process take its turns, from any state that the kernel simulates. -/
theorem simulates_harts (hplaced : ProgramsPlaced files) (h : Simulates files s k)
    (hcomputing : k.threads.Computing pid ts) (hrun : Run (Guarded Step (ConfinedComputing pid ts)) k es k') :
    ∃ s' is, Simulates files s' k' ∧ Run Harts.Step (s.harts pid ts) is (s'.harts pid ts) ∧
      is.map Prod.fst = es.filterMap (Event.turn ts) := by
  have hsim : ∃ s', Run (Guarded (FlatSystem.Step files) fun s e => s.threads.Computes pid ts e) s es s' ∧
      Simulates files s' k' := by
    refine hrun.simulate (fun k s => Simulates files s k) h ?_
    rintro k₁ e k₂ s₁ h₁ ⟨hstep, hconfined, hcomputes⟩
    obtain ⟨s₂, hstep₂, h₂⟩ := step_simulates hplaced h₁ hstep hconfined
    rw [h₁.threads] at hcomputes
    exact ⟨s₂, ⟨hstep₂, hcomputes⟩, h₂⟩
  obtain ⟨s', hflat, h'⟩ := hsim
  obtain ⟨is, hturns, hmap⟩ := FlatSystem.harts_run h.sound (h.threads ▸ hcomputing) hflat
  exact ⟨s', is, h', hturns, hmap⟩

/-- Thread 0 of `stackStore` computes from the start. -/
theorem stackStore_computes : ∃ k₀ k, boot stackStore [[0x61]] = .ok k₀ ∧ k₀.threads.Computing 0 [0] ∧
    Run (Guarded Step (ConfinedComputing 0 [0])) k₀ [.fault 0 84 true, .fault 0 0x3FFFFFC true, .user 0] k := by
  obtain ⟨k₀, k₁, k₂, k₃, hboot, hready, hstep₁, hstep₂, hstep₃⟩ := stackStore_run
  obtain ⟨⟨-, hlt, hrunning⟩, hactive⟩ := of_decide_eq_true hready
  have hparent : (k₀.thread 0).parent = 0 := by
    have hdec : returns (boot stackStore [[0x61]]) (fun k₀ => (k₀.thread 0).parent = 0) = true := by
      decide +kernel
    obtain ⟨k, hk, hdec⟩ := returns_iff.1 hdec
    cases hk.symm.trans hboot
    exact of_decide_eq_true hdec
  have hfault : ∀ (k : Kernel) v, k.threads.Computes 0 [0] (.fault 0 v true) := by
    rintro k v u hu -
    cases hu
    exact ⟨List.mem_singleton_self _, .inr ⟨v, rfl⟩⟩
  have huser : ∀ k : Kernel, k.threads.Computes 0 [0] (.user 0) := by
    rintro k u hu -
    cases hu
    exact ⟨List.mem_singleton_self _, .inl rfl⟩
  refine ⟨k₀, k₃, hboot, ⟨?_, fun t ht => ?_⟩, ((Run.nil.snoc ⟨hstep₁.1, hstep₁.2, hfault k₀ _⟩).snoc
    ⟨hstep₂.1, hstep₂.2, hfault k₁ _⟩).snoc ⟨hstep₃.1, hstep₃.2, huser k₂⟩⟩
  · rw [hparent] at hactive
    exact hactive
  · obtain rfl := List.mem_singleton.1 ht
    exact ⟨hlt, hparent, .inr hrunning⟩

end Kernel

end Rv32umos
