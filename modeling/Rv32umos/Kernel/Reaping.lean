import Rv32umos.Kernel.Mutexes

/-!
# Whose exit code a join of a process returns

A pid is a slot of the process list, and the slots are used again: the process in slot `pid` is told
from the others by how many have been loaded there before (`instances`). `SYS_JOIN_PROCESS` answers
from the cached exit code of the slot, or blocks its caller, which tries again once a process of the
slot has ended. Loading a process leaves the cached code and the waiting callers as they are, so the
answer may be about another process; it is right in a run that loads no process into the slot while
its code has not been reaped or while a call on it is under way (`join_process`).
-/

namespace Rv32umos

open SyscallHandler (suspend mutexError)
open Kernel (Event)
open Transition

namespace Kernel

/-- Thread `t` calls `SYS_JOIN_PROCESS` on process `pid`, with result `r`. -/
def JoinsProcess (e : Event) (t : TRef) (pid : Pid) (r : SyscallResult) : Prop :=
  ∃ ctx, e = .syscall t ctx r ∧ ctx.id.toNat = SyscallID.SYS_JOIN_PROCESS ∧
    Pid.ofInt? ctx.arg0.toInt = some pid

/-- The call returns 1: the exit code is handed to the caller. -/
def Reaps (e : Event) (t : TRef) (pid : Pid) : Prop := JoinsProcess e t pid { returnValue := 1 }

/-- The call blocks its caller, which makes it again when it is woken up. -/
def Defers (e : Event) (t : TRef) (pid : Pid) : Prop := JoinsProcess e t pid suspend

/-- `SYS_CREATE_PROCESS` returns `pid`. -/
def Event.loads (e : Event) (pid : Pid) : Bool :=
  match e with
  | .syscall _ ctx r =>
    ctx.id.toNat = SyscallID.SYS_CREATE_PROCESS && r.returnValue = BitVec.ofNat 32 pid
  | _ => false

/-- How many processes have been loaded into slot `pid` since the boot. -/
def instances (es : List Event) (pid : Pid) : Nat := es.countP fun e => e.loads pid

/-- Since the start of `es` thread `t` is in a call of `SYS_JOIN_PROCESS` on `pid`: it has blocked
there, and has done nothing since but to try again, and to have its page brought in. -/
def Issued (es : List Event) (t : TRef) (pid : Pid) : Prop :=
  ∃ first rest, es = first :: rest ∧ Defers first t pid ∧
    ∀ e ∈ rest, e.actor = some t → Defers e t pid ∨ ∃ addr, e = .fault t addr true

/-- A call of `t` on `pid` is under way. -/
def Pending (es : List Event) (t : TRef) (pid : Pid) : Prop :=
  ∃ past rest, es = past ++ rest ∧ Issued rest t pid

section Events

variable {e : Event} {es : List Event} {t u : TRef} {pid pid' : Pid} {r : SyscallResult}

theorem JoinsProcess.actor (h : JoinsProcess e t pid r) : e.actor = some t := by
  obtain ⟨ctx, rfl, -⟩ := h
  rfl

theorem JoinsProcess.not_loads (h : JoinsProcess e t pid r) : e.loads pid' = false := by
  obtain ⟨ctx, rfl, hid, -⟩ := h
  unfold Event.loads
  dsimp only
  rw [hid]
  rfl

theorem Defers.not_reaps (h : Defers e t pid) : ¬ Reaps e u pid' := by
  rintro ⟨ctx', heq, -⟩
  obtain ⟨ctx, rfl, -⟩ := h
  cases heq

theorem instances_snoc : instances (es ++ [e]) pid = instances es pid + if e.loads pid then 1 else 0 := by
  unfold instances
  rw [List.countP_append, List.countP_singleton]

theorem instances_append {es' : List Event} (h : ∀ e ∈ es', e.loads pid = false) :
    instances (es ++ es') pid = instances es pid := by
  have hnone : es'.countP (fun e => e.loads pid) = 0 :=
    List.countP_eq_zero.2 fun e he => by rw [h e he]; nofun
  unfold instances
  rw [List.countP_append, hnone, Nat.add_zero]

theorem issued_snoc : Issued (es ++ [e]) t pid ↔
    (es = [] ∧ Defers e t pid) ∨
    (Issued es t pid ∧ (e.actor = some t → Defers e t pid ∨ ∃ addr, e = .fault t addr true)) := by
  constructor
  · rintro ⟨first, rest, heq, hfirst, hrest⟩
    cases es with
    | nil =>
      cases heq
      exact .inl ⟨rfl, hfirst⟩
    | cons e₀ es =>
      rw [List.cons_append] at heq
      obtain ⟨rfl, rfl⟩ := List.cons.inj heq
      exact .inr ⟨⟨e₀, es, rfl, hfirst, fun e' he => hrest e' (List.mem_append_left _ he)⟩,
        hrest e (List.mem_append_right _ (List.mem_singleton_self e))⟩
  · rintro (⟨rfl, hdefers⟩ | ⟨⟨first, rest, rfl, hfirst, hrest⟩, hlast⟩)
    · exact ⟨e, [], rfl, hdefers, nofun⟩
    · refine ⟨first, rest ++ [e], rfl, hfirst, fun e' he => ?_⟩
      rcases List.mem_append.1 he with he | he
      · exact hrest e' he
      · rw [List.mem_singleton] at he
        subst he
        exact hlast

theorem not_issued_nil : ¬ Issued [] t pid := by
  rintro ⟨first, rest, heq, -⟩
  cases heq

theorem pending_snoc (h : Pending (es ++ [e]) t pid) : Defers e t pid ∨
    (Pending es t pid ∧ (e.actor = some t → Defers e t pid ∨ ∃ addr, e = .fault t addr true)) := by
  obtain ⟨past, rest, heq, hissued⟩ := h
  rcases rest.eq_nil_or_concat with rfl | ⟨rest, last, rfl⟩
  · exact absurd hissued not_issued_nil
  · rw [List.concat_eq_append, ← List.append_assoc] at heq
    obtain ⟨rfl, hlast⟩ := List.append_inj' heq rfl
    cases hlast
    rw [List.concat_eq_append] at hissued
    rcases issued_snoc.1 hissued with ⟨-, hdefers⟩ | ⟨hissued, hlast⟩
    · exact .inl hdefers
    · exact .inr ⟨⟨past, rest, rfl, hissued⟩, hlast⟩

end Events

end Kernel

namespace Threads

open Kernel (JoinsProcess Reaps Defers Issued Pending)

variable {s s' : Threads} {line : Place → List TRef} {self t u : TRef} {pid : Pid}
  {ctx : SyscallContext} {r : SyscallResult} {e : Event} {es : List Event}

/-! ### What a step does to a slot -/

/-- What an event can do to the exit code of a slot and to those who wait for it. -/
inductive SlotEffect (s : Threads) (e : Event) (pid : Pid) : Option Word → List TRef → Prop
  | same (hdefers : ∀ t, ¬ Defers e t pid) (hloads : e.loads pid = false) :
    SlotEffect s e pid (s.exitCodes pid) (s.waiters pid)
  | killed (hkills : s.Kills e pid) (hdefers : ∀ t, ¬ Defers e t pid) (hloads : e.loads pid = false) :
    SlotEffect s e pid (some e.exitCode) []
  | reaped {t : TRef} (he : Reaps e t pid) : SlotEffect s e pid none (s.waiters pid)
  | deferred {t : TRef} (he : Defers e t pid) (hactive : s.active pid = true)
    (hcode : s.exitCodes pid = none) : SlotEffect s e pid none (s.waiters pid ++ [t])
  | loaded (he : e.loads pid = true) (hslot : s.active pid = false) :
    SlotEffect s e pid (s.exitCodes pid) (s.waiters pid)

theorem not_defers (hjoin : ctx.id.toNat ≠ SyscallID.SYS_JOIN_PROCESS) (t : TRef) :
    ¬ Defers (.syscall self ctx r) t pid := by
  rintro ⟨ctx', heq, hid, -⟩
  cases heq
  exact hjoin hid

theorem loads_iff : (Event.syscall self ctx r).loads pid = true ↔
    ctx.id.toNat = SyscallID.SYS_CREATE_PROCESS ∧ r.returnValue = BitVec.ofNat 32 pid := by
  unfold Event.loads
  dsimp only
  rw [Bool.and_eq_true, decide_eq_true_iff, decide_eq_true_iff]

theorem not_loads (hcreate : ctx.id.toNat ≠ SyscallID.SYS_CREATE_PROCESS) :
    (Event.syscall self ctx r).loads pid = false := by
  rw [Bool.eq_false_iff]
  exact fun hloads => hcreate (loads_iff.1 hloads).1

theorem error_ne_pid (pid : Pid) : (-1 : Word) ≠ BitVec.ofNat 32 pid := by
  intro heq
  have hnat := congrArg BitVec.toNat heq
  have hone : (-1 : Word).toNat = 2 ^ 32 - 1 := rfl
  have hlt : (pid : Nat) < MAX_PROCESS := pid.isLt
  unfold MAX_PROCESS at hlt
  rw [hone, BitVec.toNat_ofNat] at hnat
  omega

theorem pid_word {pid' : Pid} (h : BitVec.ofNat 32 pid' = BitVec.ofNat 32 pid) : pid' = pid := by
  have hnat := congrArg BitVec.toNat h
  rw [BitVec.toNat_ofNat, BitVec.toNat_ofNat] at hnat
  have hlt : (pid : Nat) < MAX_PROCESS := pid.isLt
  have hlt' : (pid' : Nat) < MAX_PROCESS := pid'.isLt
  unfold MAX_PROCESS at hlt hlt'
  apply Fin.ext
  omega

theorem Call.slotEffect (hcall : s.Call self ctx r s') :
    SlotEffect s (.syscall self ctx r) pid (s'.exitCodes pid) (s'.waiters pid) := by
  have hplain : ctx.id.toNat ≠ SyscallID.SYS_JOIN_PROCESS →
      ctx.id.toNat ≠ SyscallID.SYS_CREATE_PROCESS →
      SlotEffect s (.syscall self ctx r) pid (s.exitCodes pid) (s.waiters pid) := by
    exact fun hjoin hcreate => .same (not_defers hjoin) (not_loads hcreate)
  have hfailed : ctx.id.toNat = SyscallID.SYS_CREATE_PROCESS → r = { returnValue := -1 } →
      SlotEffect s (.syscall self ctx r) pid (s.exitCodes pid) (s.waiters pid) := by
    rintro hid rfl
    refine .same (not_defers (by rw [hid]; decide)) ?_
    · rw [Bool.eq_false_iff]
      exact fun hloads => error_ne_pid pid (loads_iff.1 hloads).2
  cases hcall with
  | processExit hid hactive =>
    have hdefers : ∀ t, ¬ Defers (.syscall self ctx suspend) t pid := not_defers (by rw [hid]; decide)
    have hloads : (Event.syscall self ctx suspend).loads pid = false := not_loads (by rw [hid]; decide)
    by_cases hpid : pid = s.parent self
    · have hkills : s.Kills (.syscall self ctx suspend) pid :=
        ⟨self, killer_syscall.2 ⟨rfl, .inl hid⟩, hpid.symm⟩
      have heffect := SlotEffect.killed hkills hdefers hloads
      unfold Threads.terminate
      dsimp only
      rw [hpid, Function.update_self, Function.update_self, ← hpid]
      exact heffect
    · unfold Threads.terminate
      dsimp only
      rw [Function.update_of_ne hpid, Function.update_of_ne hpid]
      exact .same hdefers hloads
  | threadExit hid =>
    have hkeep := hplain (by rw [hid]; decide) (by rw [hid]; decide)
    unfold Threads.threadExit
    dsimp only
    split <;> exact hkeep
  | data hid =>
    refine hplain (fun heq => ?_) fun heq => ?_
    · rw [heq] at hid
      exact absurd hid (by decide)
    · rw [heq] at hid
      exact absurd hid (by decide)
  | processRefused hid => exact hfailed hid rfl
  | loadFailed hid => exact hfailed hid rfl
  | @load pid' entry stack hid hslot =>
    by_cases hpid : pid' = pid
    · subst hpid
      exact .loaded (loads_iff.2 ⟨hid, rfl⟩) hslot
    · refine .same (not_defers (by rw [hid]; decide)) ?_
      rw [Bool.eq_false_iff]
      exact fun hloads => hpid (pid_word (loads_iff.1 hloads).2)
  | joinProcessRefused hid =>
    refine .same ?_ (not_loads (by rw [hid]; decide))
    rintro t ⟨ctx', heq, -⟩
    cases heq
  | @reap pid' exitCode hid hpid hcode =>
    by_cases heq : pid = pid'
    · subst heq
      have hnone : (s.reap pid).exitCodes pid = none := Function.update_self _ _ _
      rw [hnone]
      exact .reaped ⟨ctx, rfl, hid, hpid⟩
    · have hsame : (s.reap pid').exitCodes pid = s.exitCodes pid := Function.update_of_ne heq _ _
      rw [hsame]
      refine .same ?_ (not_loads (by rw [hid]; decide))
      rintro t ⟨ctx', heq, -⟩
      cases heq
  | @await pid' hid hpid hcode hactive =>
    by_cases heq : pid = pid'
    · subst heq
      have hwaiters : (s.await pid self).waiters pid = s.waiters pid ++ [self] :=
        Function.update_self _ _ _
      have hnone : (s.await pid self).exitCodes pid = none := hcode
      rw [hwaiters, hnone]
      exact .deferred ⟨ctx, rfl, hid, hpid⟩ hactive hcode
    · have hwaiters : (s.await pid' self).waiters pid = s.waiters pid := Function.update_of_ne heq _ _
      rw [hwaiters]
      refine .same ?_ (not_loads (by rw [hid]; decide))
      rintro t ⟨ctx', hctx, -, hpid'⟩
      cases hctx
      rw [hpid] at hpid'
      exact heq (Option.some.inj hpid').symm
  | _ hid => exact hplain (by rw [hid]; decide) (by rw [hid]; decide)

theorem Step.slotEffect (hstep : s.Step e s') (pid : Pid) :
    SlotEffect s e pid (s'.exitCodes pid) (s'.waiters pid) := by
  have hend : ∀ {e : Event}, (∀ t, ¬ Defers e t pid) → e.loads pid = false →
      ∀ self, e.killer = some self → SlotEffect s e pid
        (Function.update s.exitCodes (s.parent self) (some e.exitCode) pid)
        (Function.update s.waiters (s.parent self) [] pid) := by
    intro e hdefers hloads self hkiller
    by_cases hpid : pid = s.parent self
    · subst hpid
      rw [Function.update_self, Function.update_self]
      exact .killed ⟨self, hkiller, rfl⟩ hdefers hloads
    · rw [Function.update_of_ne hpid, Function.update_of_ne hpid]
      exact .same hdefers hloads
  cases hstep with
  | syscall hself hargs hcall => exact hcall.slotEffect
  | @segfault self hself addr hactive =>
    refine hend ?_ rfl self rfl
    rintro t ⟨ctx, heq, -⟩
    cases heq
  | @badMutex self ctx hself hargs hbad hactive =>
    refine hend (e := .syscall self ctx mutexError) ?_ ?_ self (killer_syscall.2 ⟨rfl, .inr rfl⟩)
    · rintro t ⟨ctx', heq, -⟩
      cases heq
    · apply not_loads
      rcases hbad with ⟨hlock | hunlock, -⟩ | ⟨hunlock, -⟩
      · rw [hlock]
        decide
      · rw [hunlock]
        decide
      · rw [hunlock]
        decide
  | _ =>
    refine .same ?_ rfl
    rintro t ⟨ctx, heq, -⟩
    cases heq

/-- A slot that is loaded becomes active. -/
theorem Step.loaded_active (hstep : s.Step e s') (hloads : e.loads pid = true) :
    s'.active pid = true := by
  cases hstep with
  | @syscall self ctx r s' hself hargs hcall =>
    obtain ⟨hid, hvalue⟩ := loads_iff.1 hloads
    cases hcall with
    | processRefused => exact absurd hvalue (error_ne_pid pid)
    | loadFailed => exact absurd hvalue (error_ne_pid pid)
    | @load pid' =>
      obtain rfl := pid_word hvalue
      exact Function.update_self _ _ _
    | data hdata =>
      rw [hid] at hdata
      exact absurd hdata (by decide)
    | _ hother => exact absurd (hid.symm.trans hother) (by decide)
  | @badMutex self ctx hself hargs hbad =>
    have hid := (loads_iff.1 hloads).1
    rcases hbad with ⟨hlock | hunlock, -⟩ | ⟨hunlock, -⟩
    · exact absurd (hid.symm.trans hlock) (by decide)
    · exact absurd (hid.symm.trans hunlock) (by decide)
    · exact absurd (hid.symm.trans hunlock) (by decide)
  | _ => cases hloads

/-- Only a free slot is loaded. -/
theorem Step.loads_free (hstep : s.Step e s') (hloads : e.loads pid = true) :
    s.active pid = false := by
  have heffect := hstep.slotEffect pid
  generalize s'.exitCodes pid = code at heffect
  generalize s'.waiters pid = waiters at heffect
  cases heffect with
  | loaded _ hslot => exact hslot
  | same _ hnot =>
    rw [hloads] at hnot
    cases hnot
  | killed _ _ hnot =>
    rw [hloads] at hnot
    cases hnot
  | reaped he =>
    rw [he.not_loads] at hloads
    cases hloads
  | deferred he =>
    rw [he.not_loads] at hloads
    cases hloads

/-- Only an active process has threads that wait for it. -/
theorem Step.waiters_active (hstep : s.Step e s') (h : s.waiters pid ≠ [] → s.active pid = true)
    (hwaiters : s'.waiters pid ≠ []) : s'.active pid = true := by
  by_cases hkills : s.Kills e pid
  · rw [(hstep.killed hkills).2.2.2.1, Function.update_self] at hwaiters
    exact absurd rfl hwaiters
  · have heffect := hstep.slotEffect pid
    refine (hstep.spared ?_ hkills).1
    generalize s'.exitCodes pid = code at heffect
    generalize s'.waiters pid = waiters at heffect hwaiters
    cases heffect with
    | same => exact h hwaiters
    | killed hkills' => exact absurd hkills' hkills
    | reaped => exact h hwaiters
    | deferred he hactive => exact hactive
    | loaded he hslot => exact h hwaiters

/-- A call that returns 1 has found an exit code. -/
theorem Step.reaps_code (hstep : s.Step e s') (hreaps : Reaps e t pid) :
    ∃ code, s.exitCodes pid = some code := by
  obtain ⟨ctx, rfl, hid, hpid⟩ := hreaps
  cases hstep with
  | syscall hself hargs hcall =>
    generalize hr : ({ returnValue := 1 } : SyscallResult) = r at hcall
    cases hcall with
    | reap _ hpid' hcode =>
      cases hpid.symm.trans hpid'
      exact ⟨_, hcode⟩
    | joinProcessRefused =>
      cases hr
    | await =>
      cases hr
    | data hdata =>
      rw [hid] at hdata
      exact absurd hdata (by decide)
    | _ hother => exact absurd (hid.symm.trans hother) (by decide)

/-- The threads that wait for a process leave their line when it ends. -/
theorem Step.killed_placed (hstep : s.Step e s') (hkills : s.Kills e pid) (h : Placed s line) :
    Placed s' (Function.update line (.waiters pid) []) := by
  obtain ⟨-, hthread, -, hwaiters, -, -, hmutexes, hnum⟩ := hstep.killed hkills
  refine (h.terminate pid e.exitCode).congr_thread hwaiters (fun pid' id => ?_) hthread hnum
  unfold queue mutex
  rw [hmutexes]
  rfl

/-! ### A call under way -/

/-- A thread whose call is under way waits for the process, or has been woken up. -/
def Attends (s : Threads) (t : TRef) (pid : Pid) : Prop :=
  t < s.numThreads ∧ ∃ line, Placed s line ∧ (t ∈ s.waiters pid ∨ Free line t)

theorem Attends.step (hsound : s.Sound) (hstep : s.Step e s') (h : s.Attends t pid)
    (hact : e.actor = some t → ∃ addr, e = .fault t addr true) : s'.Attends t pid := by
  obtain ⟨hlt, line, hplaced, hwhere⟩ := h
  refine ⟨hlt.trans_le hstep.num_le, ?_⟩
  obtain ⟨line', hplaced', hstay⟩ := hstep.placed hsound.rooted hplaced
  have hfree : Free line t → Free line' t := by
    intro hfree
    rcases hstay t hfree with hfree' | ⟨hrunning, hblocked⟩
    · exact hfree'
    · exfalso
      by_cases hactor : e.actor = some t
      · obtain ⟨addr, rfl⟩ := hact hactor
        cases hstep
        rw [hrunning.2.2] at hblocked
        cases hblocked
      · have hbefore := (hstep.change hplaced hlt).blocked_before hblocked hactor
        rw [hrunning.2.2] at hbefore
        cases hbefore
  rcases hwhere with hmem | hfree'
  · by_cases hkills : s.Kills e pid
    · refine ⟨_, hstep.killed_placed hkills hplaced, .inr ?_⟩
      apply hplaced.oneLine.free_dissolved
      rw [hplaced.waiters]
      exact hmem
    · refine ⟨line', hplaced', .inl ?_⟩
      have heffect := hstep.slotEffect pid
      generalize s'.exitCodes pid = code at heffect
      generalize s'.waiters pid = waiters at heffect
      cases heffect with
      | killed hkills' => exact absurd hkills' hkills
      | deferred => exact List.mem_append_left _ hmem
      | _ => exact hmem
  · exact ⟨line', hplaced', .inr (hfree hfree')⟩

theorem Step.attends (hsound : s.Sound) (hstep : s.Step e s') (hdefers : Defers e t pid) :
    s'.Attends t pid := by
  obtain ⟨line, hplaced⟩ := (hstep.sound hsound).placed
  have hself := hstep.running_of_actor hdefers.actor
  refine ⟨hself.2.1.trans_le hstep.num_le, line, hplaced, .inl ?_⟩
  have heffect := hstep.slotEffect pid
  generalize s'.exitCodes pid = code at heffect
  generalize s'.waiters pid = waiters at heffect
  cases heffect with
  | same hnot => exact absurd hdefers (hnot t)
  | killed hkills hnot => exact absurd hdefers (hnot t)
  | reaped he => exact absurd he hdefers.not_reaps
  | loaded he =>
    rw [hdefers.not_loads] at he
    cases he
  | deferred he =>
    have hactor := he.actor
    rw [hdefers.actor] at hactor
    cases hactor
    exact List.mem_append_right _ (List.mem_singleton_self t)

/-- A thread that has ended with its call under way never runs again once its process is gone. -/
theorem Attends.dead (h : s.Attends t pid) (hended : s.state t = .TERMINATED)
    (hnone : s.waiters pid = []) : s.Dead t := by
  obtain ⟨hlt, line, hplaced, hmem | hfree⟩ := h
  · rw [hnone] at hmem
    cases hmem
  · exact ⟨hended, hlt, line, hplaced, hfree⟩

end Threads

namespace Kernel

open Threads (Placed)

variable {k k' k₀ : Kernel} {es : List Event} {e : Event} {t : TRef} {pid : Pid}

/-! ### Runs -/

/-- When a process is loaded into slot `pid`, the exit code of the one before has been reaped, and no
thread that can still run is in a call on `pid`. -/
def LoadsClean (pid : Pid) (x : List Event × Kernel) (e : Event) : Prop :=
  e.loads pid = true → x.2.exitCodes pid = none ∧
    ∀ t, Pending x.1 t pid → (x.2.thread t).state = .TERMINATED

/-- A process of slot `pid` has ended with `code`, and `past` are the events before. -/
def Ended (k₀ : Kernel) (es : List Event) (pid : Pid) (code : Word) (past : List Event) : Prop :=
  ∃ kill rest k₁ k₂, es = past ++ kill :: rest ∧ Run Step k₀ past k₁ ∧ Step k₁ kill k₂ ∧
    k₁.threads.Kills kill pid ∧ kill.exitCode = code

/-- The exit code that a call of `t` on `pid` is about to hand out is that of the process that was in
the slot when the call was issued; it has ended. If the pid comes from a `SYS_CREATE_PROCESS` and has
not been reaped since, it is the process created there. -/
def ReapsRight (k₀ : Kernel) (es : List Event) (k : Kernel) (t : TRef) (pid : Pid) : Prop :=
  ∃ code past, k.exitCodes pid = some code ∧ Ended k₀ es pid code past ∧
    (∀ before rest, es = before ++ rest → rest = [] ∨ Issued rest t pid →
      instances past pid = instances before pid) ∧
    ∀ before made rest, es = before ++ made :: rest → made.loads pid = true →
      (∀ e ∈ rest, ∀ u, ¬ Reaps e u pid) → instances past pid = instances (before ++ [made]) pid

structure Ledger (k₀ : Kernel) (pid : Pid) (es : List Event) (k : Kernel) : Prop where
  run : Run Step k₀ es k
  code : ∀ code, k.exitCodes pid = some code →
    ∃ past, Ended k₀ es pid code past ∧ instances es pid = instances past pid
  waiters : k.processWaiters pid ≠ [] → (k.processList pid).active = true
  attends : ∀ t, Pending es t pid → k.threads.Attends t pid
  unloaded : ∀ t past rest, es = past ++ rest → Issued rest t pid →
    k.threads.Dead t ∨ ∀ e ∈ rest, e.loads pid = false
  child : ∀ past made rest, es = past ++ made :: rest → made.loads pid = true →
    (∀ e ∈ rest, ∀ u, ¬ Reaps e u pid) →
    ((k.processList pid).active = true ∨ k.exitCodes pid ≠ none) ∧ ∀ e ∈ rest, e.loads pid = false

theorem Ended.snoc {code : Word} {past : List Event} (h : Ended k₀ es pid code past) (e : Event) :
    Ended k₀ (es ++ [e]) pid code past := by
  obtain ⟨kill, rest, k₁, k₂, rfl, hrun, hstep, hkills, hcode⟩ := h
  exact ⟨kill, rest ++ [e], k₁, k₂, by simp, hrun, hstep, hkills, hcode⟩

theorem Ledger.snoc_code (h : Ledger k₀ pid es k) (hsound : k.threads.Sound) (hstep : Step k e k')
    (hclean : LoadsClean pid (es, k) e) (code : Word) (hcode : k'.exitCodes pid = some code) :
    ∃ past, Ended k₀ (es ++ [e]) pid code past ∧ instances (es ++ [e]) pid = instances past pid := by
  have heffect := (step_threads hsound.fault hstep).slotEffect pid
  have hcode' : k'.threads.exitCodes pid = some code := hcode
  rw [hcode'] at heffect
  have hkeep : k.exitCodes pid = some code → e.loads pid = false →
      ∃ past, Ended k₀ (es ++ [e]) pid code past ∧ instances (es ++ [e]) pid = instances past pid := by
    intro hbefore hloads
    obtain ⟨past, hended, hcount⟩ := h.code code hbefore
    refine ⟨past, hended.snoc e, ?_⟩
    rw [instances_snoc, hloads]
    exact hcount
  generalize hsome : some code = after at heffect
  generalize k'.threads.waiters pid = waiters at heffect
  cases heffect with
  | same hdefers hloads => exact hkeep hsome.symm hloads
  | killed hkills hdefers hloads =>
    cases hsome
    refine ⟨es, ⟨e, [], k, k', rfl, h.run, hstep, hkills, rfl⟩, ?_⟩
    rw [instances_snoc, hloads]
    rfl
  | reaped => cases hsome
  | deferred => cases hsome
  | loaded he =>
    have hnone := (hclean he).1
    rw [show k.exitCodes pid = some code from hsome.symm] at hnone
    cases hnone

theorem Ledger.snoc_attends (h : Ledger k₀ pid es k) (hsound : k.threads.Sound) (hstep : Step k e k')
    (t : TRef) (hpending : Pending (es ++ [e]) t pid) : k'.threads.Attends t pid := by
  have hthreads := step_threads hsound.fault hstep
  by_cases hdefers : Defers e t pid
  · exact hthreads.attends hsound hdefers
  · rcases pending_snoc hpending with hnow | ⟨hbefore, hact⟩
    · exact absurd hnow hdefers
    · exact (h.attends t hbefore).step hsound hthreads fun hactor => (hact hactor).resolve_left hdefers

theorem Ledger.snoc_unloaded (h : Ledger k₀ pid es k) (hsound : k.threads.Sound) (hstep : Step k e k')
    (hclean : LoadsClean pid (es, k) e) (t : TRef) (past rest : List Event)
    (heq : es ++ [e] = past ++ rest) (hissued : Issued rest t pid) :
    k'.threads.Dead t ∨ ∀ e ∈ rest, e.loads pid = false := by
  have hthreads := step_threads hsound.fault hstep
  rcases rest.eq_nil_or_concat with rfl | ⟨rest, last, rfl⟩
  · exact absurd hissued not_issued_nil
  · rw [List.concat_eq_append, ← List.append_assoc] at heq
    obtain ⟨rfl, hlast⟩ := List.append_inj' heq rfl
    cases hlast
    rw [List.concat_eq_append] at hissued ⊢
    have hsnoc : (∀ e ∈ rest, e.loads pid = false) → e.loads pid = false →
        ∀ e' ∈ rest ++ [e], e'.loads pid = false := by
      intro hrest hlast e' he
      rcases List.mem_append.1 he with he | he
      · exact hrest e' he
      · rw [List.mem_singleton] at he
        exact he ▸ hlast
    rcases issued_snoc.1 hissued with ⟨rfl, hdefers⟩ | ⟨hissued, -⟩
    · exact .inr (hsnoc (fun _ he => by cases he) hdefers.not_loads)
    · rcases h.unloaded t past rest rfl hissued with hdead | hrest
      · exact .inl (hdead.step hsound.rooted hthreads).1
      · cases hloads : e.loads pid with
        | false => exact .inr (hsnoc hrest hloads)
        | true =>
          -- the slot is free, so nobody stands in its line any more
          have hpending : Pending (past ++ rest) t pid := ⟨past, rest, rfl, hissued⟩
          have hended := (hclean hloads).2 t hpending
          have hnone : k.processWaiters pid = [] := by
            by_contra hne
            have hfree := hthreads.loads_free hloads
            rw [show k.threads.active pid = true from h.waiters hne] at hfree
            cases hfree
          have hdead := (h.attends t hpending).dead hended hnone
          exact .inl (hdead.step hsound.rooted hthreads).1

theorem Ledger.snoc_child (h : Ledger k₀ pid es k) (hsound : k.threads.Sound) (hstep : Step k e k')
    (hclean : LoadsClean pid (es, k) e) (past : List Event) (made : Event) (rest : List Event)
    (heq : es ++ [e] = past ++ made :: rest) (hmade : made.loads pid = true)
    (hreaps : ∀ e ∈ rest, ∀ u, ¬ Reaps e u pid) :
    ((k'.processList pid).active = true ∨ k'.exitCodes pid ≠ none) ∧
      ∀ e ∈ rest, e.loads pid = false := by
  have hthreads := step_threads hsound.fault hstep
  rcases rest.eq_nil_or_concat with rfl | ⟨rest, last, rfl⟩
  · obtain ⟨rfl, hlast⟩ := List.append_inj' heq rfl
    cases hlast
    exact ⟨.inl (hthreads.loaded_active hmade), fun _ he => by cases he⟩
  · rw [List.concat_eq_append, ← List.cons_append, ← List.append_assoc] at heq
    obtain ⟨rfl, hlast⟩ := List.append_inj' heq rfl
    cases hlast
    rw [List.concat_eq_append] at hreaps ⊢
    obtain ⟨halive, hrest⟩ := h.child past made rest rfl hmade fun e' he =>
      hreaps e' (List.mem_append_left _ he)
    have hloads : e.loads pid = false := by
      rw [Bool.eq_false_iff]
      intro hloads
      rcases halive with hactive | hcode
      · have hfree := hthreads.loads_free hloads
        rw [show k.threads.active pid = true from hactive] at hfree
        cases hfree
      · exact hcode (hclean hloads).1
    refine ⟨?_, fun e' he => ?_⟩
    · by_cases hkills : k.threads.Kills e pid
      · have hcodes := congrFun (hthreads.killed hkills).2.2.2.2.1 pid
        rw [Function.update_self] at hcodes
        have hcodes' : k'.exitCodes pid = some e.exitCode := hcodes
        exact .inr (by rw [hcodes']; nofun)
      · rcases halive with hactive | hcode
        · exact .inl (hthreads.spared hactive hkills).1
        · refine .inr ?_
          have heffect := hthreads.slotEffect pid
          show k'.threads.exitCodes pid ≠ none
          generalize k'.threads.exitCodes pid = code at heffect
          generalize k'.threads.waiters pid = waiters at heffect
          cases heffect with
          | same => exact hcode
          | killed => nofun
          | reaped he => exact absurd he (hreaps e (List.mem_append_right _ (List.mem_singleton_self e)) _)
          | deferred _ _ hnone => exact absurd hnone hcode
          | loaded => exact hcode
    · rcases List.mem_append.1 he with he | he
      · exact hrest e' he
      · rw [List.mem_singleton] at he
        exact he ▸ hloads

theorem Ledger.snoc (h : Ledger k₀ pid es k) (hsound : k.threads.Sound) (hstep : Step k e k')
    (hclean : LoadsClean pid (es, k) e) : Ledger k₀ pid (es ++ [e]) k' where
  run := h.run.snoc hstep
  code := h.snoc_code hsound hstep hclean
  waiters := (step_threads hsound.fault hstep).waiters_active h.waiters
  attends := h.snoc_attends hsound hstep
  unloaded := h.snoc_unloaded hsound hstep hclean
  child := h.snoc_child hsound hstep hclean

theorem Ledger.init (hcodes : k₀.exitCodes pid = none) (hwaiters : k₀.processWaiters pid = []) :
    Ledger k₀ pid [] k₀ where
  run := .nil
  code code hcode := by
    rw [hcodes] at hcode
    cases hcode
  waiters hne := absurd hwaiters hne
  attends t hpending := by
    obtain ⟨past, rest, heq, hissued⟩ := hpending
    rw [(List.append_eq_nil_iff.1 heq.symm).2] at hissued
    exact absurd hissued not_issued_nil
  unloaded t past rest heq hissued := by
    rw [(List.append_eq_nil_iff.1 heq.symm).2] at hissued
    exact absurd hissued not_issued_nil
  child past made rest heq := by
    have hnil := (List.append_eq_nil_iff.1 heq.symm).2
    cases hnil

theorem ledger_run {host : Host} {filenames : List Name} (hboot : boot host filenames = .ok k₀)
    (hrun : Run (Guarded (Logged Step) (LoadsClean pid)) ([], k₀) es (es, k)) :
    Ledger k₀ pid es k := by
  obtain ⟨s, u, hfresh, -, -, heq⟩ := boot_threads hboot
  have hcodes : k₀.threads.exitCodes pid = none := by
    rw [heq]
    exact hfresh.exitCodes pid
  have hwaiters : k₀.threads.waiters pid = [] := by
    rw [heq]
    exact hfresh.waiters pid
  have hinv := hrun.invariant (fun x => Ledger k₀ pid x.1 x.2) (Ledger.init hcodes hwaiters)
    fun x e x' h hstep => by
      have hnext := h.snoc (run_sound hboot h.run).1 hstep.1.1 hstep.2
      rw [← hstep.1.2] at hnext
      exact hnext
  exact hinv

/-- A stretch of a run that loads nothing into the slot. -/
theorem unloaded_run {past : List Event} (hrun : Run Step k es k')
    (hall : ∀ e ∈ es, e.loads pid = false) :
    Run (Guarded (Logged Step) (LoadsClean pid)) (past, k) es (past ++ es, k') := by
  refine (hrun.logged.labelled hall).mono ?_
  rintro x e x' ⟨hstep, hnot⟩
  refine ⟨hstep, fun hloads => ?_⟩
  rw [hnot] at hloads
  cases hloads

/-- A program that creates a process from the file whose name is at address 0, the magic number of
its own header, and joins process 0 or the one it has created, if there is only one. -/
def createsAndJoins : List Byte :=
  elfFile [0x93, 0x08, 0xD0, 0x00, 0x73, 0, 0, 0, 0x93, 0x08, 0xE0, 0x00, 0x73, 0, 0, 0]

/-- `a.elf` loads from an address that nothing maps, `b.elf` creates and joins a process. The process
created is a `b.elf` if `again` holds, else an `a.elf`. -/
def joinsProcess (again : Bool) : Host where
  files name :=
    if name = [0x61] then some (elfFile [0x83, 0x20, 0xC0, 0xFF])
    else if name = [0x62] then some createsAndJoins
    else if name = [0x7F, 0x45, 0x4C, 0x46] then
      some (if again then createsAndJoins else elfFile [0x83, 0x20, 0xC0, 0xFF])
    else none
  console := { stdin := [], answers := [], written := [] }

/-- The current thread is RUNNING, as something to compute. -/
def runs (k : Kernel) (t : TRef) : Bool :=
  decide (k.currentThreadIndex = some t ∧ t < k.numThreads ∧ (k.thread t).state = .RUNNING)

end Kernel

end Rv32umos
