import Rv32umos.Kernel.ThreadRun

/-!
# Mutexes

In a process that lives, a mutex is locked exactly as long as one thread has locked it and not
unlocked it since, and that thread is its owner; who is blocked in a lock call stands once in the
queue of a locked mutex (`mutex_safety`). `MutexEffect` is what a step can do to the mutexes of a
process, and `MutexOk` relates them to the history of the calls.
-/

namespace Rv32umos

open SyscallHandler (suspend mutexError)
open Kernel (Event)
open Transition

namespace Kernel

/-- Thread `t` completes a lock of mutex `id`. -/
def Locks (e : Event) (t : TRef) (id : Nat) : Prop :=
  ∃ ctx, e = .syscall t ctx { returnValue := 0 } ∧ ctx.id.toNat = SyscallID.SYS_MUTEX_LOCK ∧
    ctx.arg0.toInt = id

/-- Thread `t` unlocks mutex `id`. -/
def Unlocks (e : Event) (t : TRef) (id : Nat) : Prop :=
  ∃ ctx r, e = .syscall t ctx r ∧ ctx.id.toNat = SyscallID.SYS_MUTEX_UNLOCK ∧
    ctx.arg0.toInt = id ∧ r.error = false

/-- Thread `t` blocks in a lock of mutex `id`. -/
def Blocks (e : Event) (t : TRef) (id : Nat) : Prop :=
  ∃ ctx, e = .syscall t ctx suspend ∧ ctx.id.toNat = SyscallID.SYS_MUTEX_LOCK ∧
    ctx.arg0.toInt = id

/-- Thread `t` has locked mutex `id`, and not unlocked it since. -/
def Holds (es : List Event) (t : TRef) (id : Nat) : Prop :=
  Since (fun e => Locks e t id) (fun e => Unlocks e t id) es

/-- The last thing that thread `t` has done is to block in a lock of mutex `id`. -/
def Awaits (es : List Event) (t : TRef) (id : Nat) : Prop :=
  Since (fun e => Blocks e t id) (fun e => e.actor = some t) es

section Events

variable {e : Event} {t u : TRef} {id id' : Nat}

theorem Locks.actor (h : Locks e t id) : e.actor = some t := by
  obtain ⟨ctx, rfl, -⟩ := h
  rfl

theorem Blocks.actor (h : Blocks e t id) : e.actor = some t := by
  obtain ⟨ctx, rfl, -⟩ := h
  rfl

theorem Locks.unique (h : Locks e t id) (h' : Locks e u id') : u = t ∧ id' = id := by
  obtain ⟨ctx, rfl, -, hid⟩ := h
  obtain ⟨ctx', heq, -, hid'⟩ := h'
  cases heq
  exact ⟨rfl, by omega⟩

theorem Unlocks.unique (h : Unlocks e t id) (h' : Unlocks e u id') : u = t ∧ id' = id := by
  obtain ⟨ctx, r, rfl, -, hid, -⟩ := h
  obtain ⟨ctx', r', heq, -, hid', -⟩ := h'
  cases heq
  exact ⟨rfl, by omega⟩

theorem Blocks.unique (h : Blocks e t id) (h' : Blocks e u id') : u = t ∧ id' = id := by
  obtain ⟨ctx, rfl, -, hid⟩ := h
  obtain ⟨ctx', heq, -, hid'⟩ := h'
  cases heq
  exact ⟨rfl, by omega⟩

theorem Locks.not_unlocks (h : Locks e t id) : ¬ Unlocks e u id' := by
  obtain ⟨ctx, rfl, hcall, -⟩ := h
  rintro ⟨ctx', r', heq, hcall', -⟩
  cases heq
  rw [hcall] at hcall'
  cases hcall'

theorem Locks.not_blocks (h : Locks e t id) : ¬ Blocks e u id' := by
  obtain ⟨ctx, rfl, -⟩ := h
  rintro ⟨ctx', heq, -⟩
  cases heq

theorem Unlocks.not_blocks (h : Unlocks e t id) : ¬ Blocks e u id' := by
  obtain ⟨ctx, r, rfl, hcall, -⟩ := h
  rintro ⟨ctx', heq, hcall', -⟩
  cases heq
  rw [hcall] at hcall'
  cases hcall'

theorem holds_snoc {es : List Event} :
    Holds (es ++ [e]) t id ↔ Locks e t id ∨ (Holds es t id ∧ ¬ Unlocks e t id) := since_snoc

theorem awaits_snoc {es : List Event} :
    Awaits (es ++ [e]) t id ↔ Blocks e t id ∨ (Awaits es t id ∧ e.actor ≠ some t) := since_snoc

end Events

/-- The event is no call of thread `t` on a mutex, or one that fails. -/
def Idle (e : Event) (t : TRef) : Prop :=
  ∀ id, ¬ Locks e t id ∧ ¬ Unlocks e t id ∧ ¬ Blocks e t id

theorem idle_of_id {self t : TRef} {ctx : SyscallContext} {r : SyscallResult}
    (hlock : ctx.id.toNat ≠ SyscallID.SYS_MUTEX_LOCK)
    (hunlock : ctx.id.toNat ≠ SyscallID.SYS_MUTEX_UNLOCK) : Idle (.syscall self ctx r) t := by
  intro id
  refine ⟨?_, ?_, ?_⟩
  · rintro ⟨ctx', heq, hid, -⟩
    cases heq
    exact hlock hid
  · rintro ⟨ctx', r', heq, hid, -⟩
    cases heq
    exact hunlock hid
  · rintro ⟨ctx', heq, hid, -⟩
    cases heq
    exact hlock hid

theorem idle_of_ne {self t : TRef} {ctx : SyscallContext} {r : SyscallResult} (hne : t ≠ self) :
    Idle (.syscall self ctx r) t := by
  intro id
  refine ⟨?_, ?_, ?_⟩
  · rintro ⟨ctx', heq, -⟩
    cases heq
    exact hne rfl
  · rintro ⟨ctx', r', heq, -⟩
    cases heq
    exact hne rfl
  · rintro ⟨ctx', heq, -⟩
    cases heq
    exact hne rfl

theorem idle_error {self t : TRef} {ctx : SyscallContext} : Idle (.syscall self ctx mutexError) t := by
  intro id
  refine ⟨?_, ?_, ?_⟩
  · rintro ⟨ctx', heq, -⟩
    cases heq
  · rintro ⟨ctx', r', heq, -, -, herror⟩
    cases heq
    cases herror
  · rintro ⟨ctx', heq, -⟩
    cases heq

/-- An event that is no system call. -/
theorem idle_of_no_call {e : Event} {t : TRef} (hne : ∀ self ctx r, e ≠ .syscall self ctx r) :
    Idle e t := by
  intro id
  refine ⟨?_, ?_, ?_⟩
  · rintro ⟨ctx, heq, -⟩
    exact hne _ _ _ heq
  · rintro ⟨ctx, r, heq, -⟩
    exact hne _ _ _ heq
  · rintro ⟨ctx, heq, -⟩
    exact hne _ _ _ heq

end Kernel

namespace Threads

open Kernel (Locks Unlocks Blocks Holds Awaits Idle idle_of_id idle_of_ne idle_error idle_of_no_call
  holds_snoc awaits_snoc)

variable {s s' s₀ : Threads} {line : Place → List TRef} {self t u : TRef} {pid : Pid} {id : Nat}
  {ctx : SyscallContext} {r : SyscallResult} {e : Event} {es : List Event} {m : Mutex}

/-- What an event can do to the mutexes of a process. -/
inductive MutexEffect (s : Threads) (e : Event) (pid : Pid) : List Mutex → Prop
  | same (hidle : ∀ t, s.parent t = pid → Idle e t) : MutexEffect s e pid (s.mutexes pid)
  | create (hidle : ∀ t, Idle e t) : MutexEffect s e pid (s.mutexes pid ++ [({} : Mutex)])
  | lock {t : TRef} {id : Nat} {m : Mutex} (he : Locks e t id) (hself : s.Running t)
    (hparent : s.parent t = pid) (hm : s.mutex pid id = some m) (hfree : m.locked = false) :
    MutexEffect s e pid ((s.mutexes pid).set id { m with locked := true, owner := some t })
  | block {t : TRef} {id : Nat} {m : Mutex} (he : Blocks e t id) (hself : s.Running t)
    (hparent : s.parent t = pid) (hm : s.mutex pid id = some m) (hlocked : m.locked = true) :
    MutexEffect s e pid ((s.mutexes pid).set id { m with waitQueue := m.waitQueue ++ [t] })
  | unlock {t : TRef} {id : Nat} {m : Mutex} (he : Unlocks e t id) (hself : s.Running t)
    (hparent : s.parent t = pid) (hm : s.mutex pid id = some m) (howner : m.owner = some t) :
    MutexEffect s e pid
      ((s.mutexes pid).set id { m with locked := false, owner := none, waitQueue := [] })

/-- A call on a mutex of another process. -/
theorem setMutexes_other (s : Threads) {pid' : Pid} (mutexes : List Mutex) (hne : pid ≠ pid') :
    (s.setMutexes pid' mutexes).mutexes pid = s.mutexes pid :=
  Function.update_of_ne hne _ _

theorem setMutexes_self (s : Threads) (pid : Pid) (mutexes : List Mutex) :
    (s.setMutexes pid mutexes).mutexes pid = mutexes :=
  Function.update_self _ _ _

theorem Call.mutexEffect (hcall : s.Call self ctx r s') (hself : s.Running self)
    (hactive : s.active pid = true) : MutexEffect s (.syscall self ctx r) pid (s'.mutexes pid) := by
  have hother : s.parent self ≠ pid → ∀ t, s.parent t = pid → Idle (.syscall self ctx r) t := by
    rintro hne t rfl
    exact idle_of_ne fun heq => hne (heq ▸ rfl)
  have hplain : ctx.id.toNat ≠ SyscallID.SYS_MUTEX_LOCK → ctx.id.toNat ≠ SyscallID.SYS_MUTEX_UNLOCK →
      MutexEffect s (.syscall self ctx r) pid (s.mutexes pid) :=
    fun hlock hunlock => .same fun t _ => idle_of_id hlock hunlock
  have hslot : ∀ pid', s.active pid' = false → pid ≠ pid' := by
    rintro pid' hinactive rfl
    rw [hactive] at hinactive
    cases hinactive
  cases hcall with
  | mutexCreate hid =>
    by_cases hpid : pid = s.parent self
    · subst hpid
      rw [setMutexes_self]
      exact .create fun t => idle_of_id (by rw [hid]; decide) (by rw [hid]; decide)
    · rw [setMutexes_other _ _ hpid]
      exact .same (hother (Ne.symm hpid))
  | lock hid hm hfree =>
    by_cases hpid : pid = s.parent self
    · subst hpid
      rw [setMutex, setMutexes_self]
      exact .lock ⟨ctx, rfl, hid, hm.1⟩ hself rfl hm.2 hfree
    · rw [setMutex, setMutexes_other _ _ hpid]
      exact .same (hother (Ne.symm hpid))
  | lockBlocks hid hm hlocked =>
    by_cases hpid : pid = s.parent self
    · subst hpid
      rw [setMutex, setMutexes_self]
      exact .block ⟨ctx, rfl, hid, hm.1⟩ hself rfl hm.2 hlocked
    · rw [setMutex, setMutexes_other _ _ hpid]
      exact .same (hother (Ne.symm hpid))
  | unlock hid hm howner =>
    by_cases hpid : pid = s.parent self
    · subst hpid
      rw [setMutex, setMutexes_self]
      exact .unlock ⟨ctx, _, rfl, hid, hm.1, rfl⟩ hself rfl hm.2 howner
    · rw [setMutex, setMutexes_other _ _ hpid]
      exact .same (hother (Ne.symm hpid))
  | loadFailed hid hinactive =>
    have hkeep : (s.recycle _ false).mutexes pid = s.mutexes pid :=
      Function.update_of_ne (hslot _ hinactive) _ _
    rw [hkeep]
    exact hplain (by rw [hid]; decide) (by rw [hid]; decide)
  | load hid hinactive =>
    have hkeep : (s.recycle _ true).mutexes pid = s.mutexes pid :=
      Function.update_of_ne (hslot _ hinactive) _ _
    show MutexEffect s _ pid ((s.recycle _ true).mutexes pid)
    rw [hkeep]
    exact hplain (by rw [hid]; decide) (by rw [hid]; decide)
  | threadExit hid =>
    have hkeep : (s.threadExit self ctx.arg0).mutexes = s.mutexes := by
      unfold Threads.threadExit
      dsimp only
      split <;> rfl
    rw [hkeep]
    exact hplain (by rw [hid]; decide) (by rw [hid]; decide)
  | data hid =>
    refine hplain (fun heq => ?_) fun heq => ?_
    · rw [heq] at hid
      exact absurd hid (by decide)
    · rw [heq] at hid
      exact absurd hid (by decide)
  | _ hid => exact hplain (by rw [hid]; decide) (by rw [hid]; decide)

theorem Step.mutexEffect (hstep : s.Step e s') (hactive : s.active pid = true) :
    MutexEffect s e pid (s'.mutexes pid) := by
  cases hstep with
  | syscall hself hargs hcall => exact hcall.mutexEffect hself hactive
  | badMutex => exact .same fun t _ => idle_error
  | _ => exact .same fun t _ => idle_of_no_call nofun

/-! ### The mutexes against the history -/

structure MutexOk (s : Threads) (pid : Pid) (es : List Event) : Prop where
  born : ∀ e ∈ es, ∀ t, e.actor = some t → t < s.numThreads
  held : ∀ t < s.numThreads, s.parent t = pid → ∀ id,
    (Holds es t id ↔ ∃ m, s.mutex pid id = some m ∧ m.owner = some t)
  locked : ∀ id m, s.mutex pid id = some m → (m.locked = true ↔ m.owner ≠ none)
  owner : ∀ id m t, s.mutex pid id = some m → m.owner = some t →
    t < s.numThreads ∧ s.parent t = pid
  queued : ∀ id m, s.mutex pid id = some m → m.waitQueue ≠ [] → m.locked = true

theorem getElem?_set_iff {l : List Mutex} {m₀ m' : Mutex} {id' : Nat} (hm : l[id]? = some m₀) :
    (l.set id m')[id']? = some m ↔ (id' = id ∧ m = m') ∨ (id' ≠ id ∧ l[id']? = some m) := by
  obtain ⟨hlt, -⟩ := List.getElem?_eq_some_iff.1 hm
  rw [List.getElem?_set]
  by_cases hid : id = id'
  · subst hid
    rw [if_pos rfl, if_pos hlt, Option.some.injEq]
    constructor
    · intro heq
      exact .inl ⟨rfl, heq.symm⟩
    · rintro (⟨-, heq⟩ | ⟨hne, -⟩)
      · exact heq.symm
      · exact absurd rfl hne
  · rw [if_neg hid]
    constructor
    · intro hsome
      exact .inr ⟨Ne.symm hid, hsome⟩
    · rintro (⟨heq, -⟩ | ⟨-, hsome⟩)
      · exact absurd heq.symm hid
      · exact hsome

theorem getElem?_new_iff {l : List Mutex} :
    (l ++ [({} : Mutex)])[id]? = some m ↔ l[id]? = some m ∨ (id = l.length ∧ m = {}) := by
  rw [List.getElem?_append]
  by_cases hlt : id < l.length
  · rw [if_pos hlt]
    constructor
    · exact .inl
    · rintro (hsome | ⟨heq, -⟩)
      · exact hsome
      · omega
  · rw [if_neg hlt, List.getElem?_eq_none (Nat.le_of_not_lt hlt)]
    constructor
    · intro hsome
      obtain ⟨hlt', heq⟩ := List.getElem?_eq_some_iff.1 hsome
      rw [List.length_singleton] at hlt'
      have hzero : id - l.length = 0 := by omega
      simp only [hzero, List.getElem_cons_zero] at heq
      exact .inr ⟨by omega, heq.symm⟩
    · rintro (hsome | ⟨rfl, rfl⟩)
      · cases hsome
      · simp

/-- What an event makes of an owner: nothing, or it is the event's thread, or nobody. -/
theorem MutexEffect.held {mutexes : List Mutex} (h : MutexEffect s e pid mutexes)
    (hok : MutexOk s pid es) (hlt : t < s.numThreads) (hparent : s.parent t = pid) (id : Nat) :
    Holds (es ++ [e]) t id ↔ ∃ m, mutexes[id]? = some m ∧ m.owner = some t := by
  have hheld : Holds es t id ↔ ∃ m, (s.mutexes pid)[id]? = some m ∧ m.owner = some t :=
    hok.held t hlt hparent id
  rw [holds_snoc]
  cases h with
  | same hidle =>
    obtain ⟨hlock, hunlock, -⟩ := hidle t hparent id
    rw [hheld, iff_false_intro hlock, false_or, iff_true_intro hunlock, and_true]
  | create hidle =>
    obtain ⟨hlock, hunlock, -⟩ := hidle t id
    rw [hheld, iff_false_intro hlock, false_or, iff_true_intro hunlock, and_true]
    simp only [getElem?_new_iff]
    constructor
    · rintro ⟨m, hm, howner⟩
      exact ⟨m, .inl hm, howner⟩
    · rintro ⟨m, hm | ⟨-, rfl⟩, howner⟩
      · exact ⟨m, hm, howner⟩
      · cases howner
  | @lock t₀ id₀ m₀ he hself hparent₀ hm₀ hfree =>
    have hunlock : ¬ Unlocks e t id := he.not_unlocks
    rw [iff_true_intro hunlock, and_true]
    have hm₀' : (s.mutexes pid)[id₀]? = some m₀ := hm₀
    simp only [getElem?_set_iff hm₀']
    constructor
    · rintro (hlock | hholds)
      · obtain ⟨rfl, rfl⟩ := he.unique hlock
        exact ⟨_, .inl ⟨rfl, rfl⟩, rfl⟩
      · obtain ⟨m, hm, howner⟩ := hheld.1 hholds
        refine ⟨m, .inr ⟨?_, hm⟩, howner⟩
        rintro rfl
        rw [hm₀'] at hm
        cases hm
        have hlocked := (hok.locked id m₀ hm₀).2 (by rw [howner]; nofun)
        rw [hfree] at hlocked
        cases hlocked
    · rintro ⟨m, ⟨rfl, rfl⟩ | ⟨hne, hm⟩, howner⟩
      · cases howner
        exact .inl he
      · exact .inr (hheld.2 ⟨m, hm, howner⟩)
  | @block t₀ id₀ m₀ he hself hparent₀ hm₀ hlocked =>
    have hlock : ¬ Locks e t id := fun hlock => hlock.not_blocks he
    have hunlock : ¬ Unlocks e t id := fun hunlock => hunlock.not_blocks he
    rw [hheld, iff_false_intro hlock, false_or, iff_true_intro hunlock, and_true]
    have hm₀' : (s.mutexes pid)[id₀]? = some m₀ := hm₀
    simp only [getElem?_set_iff hm₀']
    constructor
    · rintro ⟨m, hm, howner⟩
      by_cases hid : id = id₀
      · subst hid
        cases hm₀'.symm.trans hm
        exact ⟨_, .inl ⟨rfl, rfl⟩, howner⟩
      · exact ⟨m, .inr ⟨hid, hm⟩, howner⟩
    · rintro ⟨m, ⟨rfl, rfl⟩ | ⟨-, hm⟩, howner⟩
      · exact ⟨m₀, hm₀', howner⟩
      · exact ⟨m, hm, howner⟩
  | @unlock t₀ id₀ m₀ he hself hparent₀ hm₀ howner₀ =>
    have hlock : ¬ Locks e t id := fun hlock => hlock.not_unlocks he
    rw [hheld, iff_false_intro hlock, false_or]
    have hm₀' : (s.mutexes pid)[id₀]? = some m₀ := hm₀
    simp only [getElem?_set_iff hm₀']
    constructor
    · rintro ⟨⟨m, hm, howner⟩, hnot⟩
      refine ⟨m, .inr ⟨?_, hm⟩, howner⟩
      rintro rfl
      cases hm₀'.symm.trans hm
      cases howner₀.symm.trans howner
      exact hnot he
    · rintro ⟨m, ⟨rfl, rfl⟩ | ⟨hne, hm⟩, howner⟩
      · cases howner
      · exact ⟨⟨m, hm, howner⟩, fun hunlock => hne (he.unique hunlock).2⟩

/-- The other parts of `MutexOk`, mutex by mutex. -/
theorem MutexEffect.wellFormed {mutexes : List Mutex} (h : MutexEffect s e pid mutexes)
    (hok : MutexOk s pid es) (hm : mutexes[id]? = some m) :
    (m.locked = true ↔ m.owner ≠ none) ∧
    (∀ t, m.owner = some t → t < s.numThreads ∧ s.parent t = pid) ∧
    (m.waitQueue ≠ [] → m.locked = true) := by
  have hold : ∀ m, (s.mutexes pid)[id]? = some m → (m.locked = true ↔ m.owner ≠ none) ∧
      (∀ t, m.owner = some t → t < s.numThreads ∧ s.parent t = pid) ∧
      (m.waitQueue ≠ [] → m.locked = true) :=
    fun m hm => ⟨hok.locked id m hm, fun t => hok.owner id m t hm, hok.queued id m hm⟩
  cases h with
  | same => exact hold m hm
  | create =>
    rcases getElem?_new_iff.1 hm with hm | ⟨-, rfl⟩
    · exact hold m hm
    · exact ⟨⟨nofun, fun hne => absurd rfl hne⟩, nofun, fun hne => absurd rfl hne⟩
  | @lock t₀ id₀ m₀ he hself hparent₀ hm₀ hfree =>
    rcases (getElem?_set_iff hm₀).1 hm with ⟨rfl, rfl⟩ | ⟨-, hm⟩
    · refine ⟨⟨fun _ => nofun, fun _ => rfl⟩, fun t ht => ?_, fun _ => rfl⟩
      cases ht
      exact ⟨hself.2.1, hparent₀⟩
    · exact hold m hm
  | @block t₀ id₀ m₀ he hself hparent₀ hm₀ hlocked =>
    rcases (getElem?_set_iff hm₀).1 hm with ⟨rfl, rfl⟩ | ⟨-, hm⟩
    · obtain ⟨hiff, howner, -⟩ := hold m₀ hm₀
      exact ⟨hiff, howner, fun _ => hlocked⟩
    · exact hold m hm
  | @unlock t₀ id₀ m₀ he hself hparent₀ hm₀ howner₀ =>
    rcases (getElem?_set_iff hm₀).1 hm with ⟨rfl, rfl⟩ | ⟨-, hm⟩
    · exact ⟨⟨nofun, fun hne => absurd rfl hne⟩, nofun, fun hne => absurd rfl hne⟩
    · exact hold m hm

theorem MutexOk.owner_iff (hok : MutexOk s pid es) (id : Nat) (t : TRef) (hparent : s.parent t = pid) :
    Holds es t id ↔ ∃ m, s.mutex pid id = some m ∧ m.owner = some t := by
  by_cases hlt : t < s.numThreads
  · exact hok.held t hlt hparent id
  · constructor
    · intro hholds
      obtain ⟨e, hmem, hlock⟩ := Since.mem hholds
      exact absurd (hok.born e hmem t hlock.actor) hlt
    · rintro ⟨m, hm, howner⟩
      exact absurd (hok.owner id m t hm howner).1 hlt

/-- The mutexes of a process that is active before a step. -/
theorem Step.mutexOk (h : s.Sound) (hstep : s.Step e s') (hactive : s.active pid = true)
    (hok : MutexOk s pid es) : MutexOk s' pid (es ++ [e]) := by
  obtain ⟨line, hplaced⟩ := h.placed
  have heffect := hstep.mutexEffect hactive
  have hparent : ∀ t < s.numThreads, s'.parent t = s.parent t :=
    fun t ht => (hstep.change hplaced ht).parent_eq
  have hwell : ∀ id m, s'.mutex pid id = some m → _ := fun id m hm => heffect.wellFormed hok hm
  have hborn : ∀ e' ∈ es ++ [e], ∀ t, e'.actor = some t → t < s.numThreads := by
    intro e' hmem t hactor
    rcases List.mem_append.1 hmem with hmem | hmem
    · exact hok.born e' hmem t hactor
    · rw [List.mem_singleton] at hmem
      subst hmem
      exact (hstep.running_of_actor hactor).2.1
  refine ⟨fun e' hmem t hactor => (hborn e' hmem t hactor).trans_le hstep.num_le, fun t hlt hpid id => ?_,
    fun id m hm => (hwell id m hm).1, fun id m t hm howner => ?_, fun id m hm => (hwell id m hm).2.2⟩
  · by_cases hlt' : t < s.numThreads
    · exact heffect.held hok hlt' ((hparent t hlt').symm.trans hpid) id
    · -- a new thread has locked nothing and owns nothing
      constructor
      · intro hholds
        obtain ⟨e', hmem, hlock⟩ := Since.mem hholds
        exact absurd (hborn e' hmem t hlock.actor) hlt'
      · rintro ⟨m, hm, howner⟩
        exact absurd ((hwell id m hm).2.1 t howner).1 hlt'
  · obtain ⟨hlt, hpid⟩ := (hwell id m hm).2.1 t howner
    exact ⟨hlt.trans_le hstep.num_le, (hparent t hlt).trans hpid⟩

/-! ### Who waits for a mutex -/

/-- A thread only blocks by a call of its own. -/
theorem Change.blocked_before {thread : Thread} (h : Change s e t thread)
    (hblocked : thread.state = .BLOCKED) (hnot : e.actor ≠ some t) : s.state t = .BLOCKED := by
  cases h with
  | same => exact hblocked
  | blocked he =>
    rw [he] at hnot
    exact absurd rfl hnot
  | marked => exact hblocked
  | awaited => exact hblocked
  | saved =>
    rcases saved_state s t with heq | ⟨-, heq⟩
    · exact heq.symm.trans hblocked
    · rw [heq] at hblocked
      cases hblocked
  | _ => cases hblocked

/-- An unlock wakes up the whole queue. -/
theorem Step.unlock_wakes (hstep : s.Step e s') (he : Unlocks e t id)
    (hm : s.mutex (s.parent t) id = some m) (hmem : u ∈ m.waitQueue) : s'.state u = .READY := by
  obtain ⟨ctx, r, rfl, hid, hnum, herror⟩ := he
  cases hstep with
  | badMutex => cases herror
  | syscall hself hargs hcall =>
    cases hcall with
    | @unlock id' m' hid' hm' howner =>
      obtain rfl : id' = id := by
        have hnum' := hm'.1
        omega
      cases hm.symm.trans hm'.2
      show (Kernel.statesSet s.thread m.waitQueue .READY u).state = .READY
      unfold Kernel.statesSet
      rw [if_pos hmem]
    | data hdata =>
      rw [hid] at hdata
      exact absurd hdata (by decide)
    | _ hother => exact absurd (hid.symm.trans hother) (by decide)

/-- Who blocks in a lock call stands in the queue. -/
def MutexWaits (s : Threads) (pid : Pid) (es : List Event) : Prop :=
  ∀ t < s.numThreads, s.parent t = pid → s.state t = .BLOCKED → ∀ id, Awaits es t id →
    t ∈ s.queue pid id

theorem Step.mutexWaits (h : s.Sound) (hstep : s.Step e s') (hactive : s.active pid = true)
    (hok : MutexOk s pid es) (hwaits : MutexWaits s pid es) : MutexWaits s' pid (es ++ [e]) := by
  obtain ⟨line, hplaced⟩ := h.placed
  have heffect := hstep.mutexEffect hactive
  intro t hlt hpid hblocked id hawaits
  have hqueue : ∀ m, (s'.mutexes pid)[id]? = some m → t ∈ m.waitQueue → t ∈ s'.queue pid id := by
    intro m hm hmem
    rw [queue_of_mutex (s := s') hm]
    exact hmem
  rcases awaits_snoc.1 hawaits with hblocks | ⟨hawaits, hnot⟩
  · have hself := hstep.running_of_actor hblocks.actor
    have hparent : s.parent t = pid := (hstep.change hplaced hself.2.1).parent_eq.symm.trans hpid
    generalize s'.mutexes pid = mutexes at heffect hqueue
    cases heffect with
    | same hidle => exact absurd hblocks (hidle t hparent id).2.2
    | create hidle => exact absurd hblocks (hidle t id).2.2
    | lock he => exact absurd hblocks he.not_blocks
    | unlock he => exact absurd hblocks he.not_blocks
    | @block t₀ id₀ m₀ he hself₀ hparent₀ hm₀ hlocked =>
      obtain ⟨rfl, rfl⟩ := he.unique hblocks
      refine hqueue _ ((getElem?_set_iff hm₀).2 (.inl ⟨rfl, rfl⟩)) ?_
      exact List.mem_append_right _ (List.mem_singleton_self _)
  · obtain ⟨e', hmem', hblocks'⟩ := Since.mem hawaits
    have hlt' := hok.born e' hmem' t hblocks'.actor
    have hchange := hstep.change hplaced hlt'
    have hparent : s.parent t = pid := hchange.parent_eq.symm.trans hpid
    have hmem := hwaits t hlt' hparent (hchange.blocked_before hblocked hnot) id hawaits
    -- the mutex that `t` is queued at
    obtain ⟨m, hm⟩ : ∃ m, s.mutex pid id = some m := by
      cases hm : s.mutex pid id with
      | some m => exact ⟨m, rfl⟩
      | none =>
        rw [queue, hm] at hmem
        cases hmem
    rw [queue_of_mutex hm] at hmem
    have hwoken : ∀ t₀, Unlocks e t₀ id → s.parent t₀ = pid → False := by
      rintro t₀ he rfl
      rw [hstep.unlock_wakes he hm hmem] at hblocked
      cases hblocked
    generalize s'.mutexes pid = mutexes at heffect hqueue
    cases heffect with
    | same => exact hqueue m hm hmem
    | create => exact hqueue m (getElem?_new_iff.2 (.inl hm)) hmem
    | @lock t₀ id₀ m₀ he hself₀ hparent₀ hm₀ hfree =>
      by_cases hid : id = id₀
      · subst hid
        cases hm.symm.trans hm₀
        exact hqueue _ ((getElem?_set_iff hm₀).2 (.inl ⟨rfl, rfl⟩)) hmem
      · exact hqueue m ((getElem?_set_iff hm₀).2 (.inr ⟨hid, hm⟩)) hmem
    | @block t₀ id₀ m₀ he hself₀ hparent₀ hm₀ hlocked =>
      by_cases hid : id = id₀
      · subst hid
        cases hm.symm.trans hm₀
        exact hqueue _ ((getElem?_set_iff hm₀).2 (.inl ⟨rfl, rfl⟩)) (List.mem_append_left _ hmem)
      · exact hqueue m ((getElem?_set_iff hm₀).2 (.inr ⟨hid, hm⟩)) hmem
    | @unlock t₀ id₀ m₀ he hself₀ hparent₀ hm₀ howner₀ =>
      have hid : id ≠ id₀ := by
        rintro rfl
        exact hwoken t₀ he hparent₀
      exact hqueue m ((getElem?_set_iff hm₀).2 (.inr ⟨hid, hm⟩)) hmem

end Threads

namespace Kernel

open Threads

variable {k k₀ k₁ : Kernel} {pid : Pid} {es : List Event}

/-- The mutexes of process `pid` against the history `es` of the calls on them. -/
structure MutexSafe (k : Kernel) (pid : Pid) (es : List Event) : Prop where
  /-- At most one thread holds a mutex. -/
  holder : ∀ id t u, (k.thread t).parent = pid → (k.thread u).parent = pid →
    Holds es t id → Holds es u id → t = u
  /-- It is the recorded owner. -/
  owner : ∀ id t, (k.thread t).parent = pid →
    (Holds es t id ↔ ∃ m, (k.processList pid).mutexList[id]? = some m ∧ m.owner = some t)
  /-- The mutex is locked exactly then. -/
  locked : ∀ id m, (k.processList pid).mutexList[id]? = some m →
    (m.locked = true ↔ ∃ t, (k.thread t).parent = pid ∧ Holds es t id)
  /-- Only the holder unlocks. -/
  unlock : ∀ e k' t id, Step k e k' → (k.thread t).parent = pid → Unlocks e t id → Holds es t id
  /-- Who is blocked in a lock call stands once in the queue of that mutex, which is locked, and in no
  other queue. -/
  blocked : ∀ t id, (k.thread t).parent = pid → (k.thread t).state = .BLOCKED → Awaits es t id →
    ∃ m, (k.processList pid).mutexList[id]? = some m ∧ m.locked = true ∧ m.waitQueue.count t = 1 ∧
      ∀ pid' id' m', (k.processList pid').mutexList[id']? = some m' → t ∈ m'.waitQueue →
        pid' = pid ∧ id' = id

theorem mutexSafe_of_ok (hsound : k.threads.Sound) (hactive : (k.processList pid).active = true)
    (hok : MutexOk k.threads pid es) (hwaits : MutexWaits k.threads pid es) : k.MutexSafe pid es where
  holder id t u ht hu hholds hholds' := by
    obtain ⟨m, hm, howner⟩ := (hok.owner_iff id t ht).1 hholds
    obtain ⟨m', hm', howner'⟩ := (hok.owner_iff id u hu).1 hholds'
    cases hm.symm.trans hm'
    exact Option.some.inj (howner.symm.trans howner')
  owner := hok.owner_iff
  locked id m hm := by
    rw [hok.locked id m hm]
    constructor
    · intro hne
      obtain ⟨t, ht⟩ := Option.ne_none_iff_exists'.1 hne
      have hparent := (hok.owner id m t hm ht).2
      exact ⟨t, hparent, (hok.owner_iff id t hparent).2 ⟨m, hm, ht⟩⟩
    · rintro ⟨t, hparent, hholds⟩
      obtain ⟨m', hm', howner⟩ := (hok.owner_iff id t hparent).1 hholds
      cases hm.symm.trans hm'
      rw [howner]
      nofun
  unlock e k' t id hstep hparent he := by
    have heffect := (step_threads hsound.fault hstep).mutexEffect hactive
    generalize k'.threads.mutexes pid = mutexes at heffect
    cases heffect with
    | same hidle => exact absurd he (hidle t hparent id).2.1
    | create hidle => exact absurd he (hidle t id).2.1
    | lock he' => exact absurd he he'.not_unlocks
    | block he' => exact absurd he' he.not_blocks
    | @unlock t₀ id₀ m₀ he' hself hparent₀ hm₀ howner₀ =>
      obtain ⟨rfl, rfl⟩ := he'.unique he
      exact (hok.owner_iff id t hparent).2 ⟨m₀, hm₀, howner₀⟩
  blocked t id hparent hstate hawaits := by
    obtain ⟨line, hplaced⟩ := hsound.placed
    obtain ⟨e, hmem, hblocks⟩ := Since.mem hawaits
    have hlt := hok.born e hmem t hblocks.actor
    have hqueued := hwaits t hlt hparent hstate id hawaits
    have hplace : ∀ pid' id' m', k.threads.mutex pid' id' = some m' → t ∈ m'.waitQueue →
        t ∈ line (.queue pid' id') := by
      intro pid' id' m' hm' hmem'
      rw [hplaced.queue, queue_of_mutex hm']
      exact hmem'
    cases hm : k.threads.mutex pid id with
    | none =>
      rw [queue, hm] at hqueued
      cases hqueued
    | some m =>
      rw [queue_of_mutex hm] at hqueued
      have hnodup : m.waitQueue.Nodup := by
        have hnodup := hplaced.oneLine.nodup (.queue pid id)
        rwa [hplaced.queue, queue_of_mutex hm] at hnodup
      refine ⟨m, hm, hok.queued id m hm (List.ne_nil_of_mem hqueued),
        List.count_eq_one_of_mem hnodup hqueued, fun pid' id' m' hm' hmem' => ?_⟩
      cases hplaced.oneLine.unique (hplace pid' id' m' hm' hmem') (hplace pid id m hm hqueued)
      exact ⟨rfl, rfl⟩

/-- **Mutexes.** From a state in which a process is active and has no mutex yet, as long as it is not
killed: for every mutex of it at most one thread has locked it and not unlocked it since, that thread
is the owner, the mutex is locked exactly then, and only that thread unlocks it; and every thread that
is blocked in a lock call stands once in the queue of a locked mutex. -/
theorem mutex_safety (hreach : k₁.Reachable) (hactive : (k₁.processList pid).active = true)
    (hnone : (k₁.processList pid).mutexList = [])
    (hrun : Run (Guarded Step fun k e => ¬ k.threads.Kills e pid) k₁ es k) : k.MutexSafe pid es := by
  have hsound₁ := reachable_sound hreach
  have hinv : k.threads.Sound ∧ k.threads.active pid = true ∧ MutexOk k.threads pid es ∧
      MutexWaits k.threads pid es := by
    refine hrun.induct (fun es k => k.threads.Sound ∧ k.threads.active pid = true ∧
      MutexOk k.threads pid es ∧ MutexWaits k.threads pid es) ⟨hsound₁, hactive, ?_, ?_⟩ ?_
    · have hmutex : ∀ id m, k₁.threads.mutex pid id ≠ some m := by
        intro id m hm
        have hm' : (k₁.processList pid).mutexList[id]? = some m := hm
        rw [hnone] at hm'
        cases hm'
      refine ⟨nofun, fun t _ _ id => ⟨fun hholds => absurd hholds not_since_nil, ?_⟩,
        fun id m hm => absurd hm (hmutex id m), fun id m t hm => absurd hm (hmutex id m),
        fun id m hm => absurd hm (hmutex id m)⟩
      rintro ⟨m, hm, -⟩
      exact absurd hm (hmutex id m)
    · exact fun t _ _ _ id hawaits => absurd hawaits not_since_nil
    · rintro es k e k' ⟨hsound, hactive, hok, hwaits⟩ ⟨hstep, hspared⟩
      have hthreads := step_threads hsound.fault hstep
      exact ⟨hthreads.sound hsound, (hthreads.spared hactive hspared).1,
        hthreads.mutexOk hsound hactive hok, hthreads.mutexWaits hsound hactive hok hwaits⟩
  exact mutexSafe_of_ok hinv.1 hinv.2.1 hinv.2.2.1 hinv.2.2.2

/-- Every process that is active has been since a state in which it had no mutex. -/
theorem active_since {host : Host} {filenames : List Name} (hboot : boot host filenames = .ok k₀)
    (hrun : Run Step k₀ es k) (hactive : (k.processList pid).active = true) :
    ∃ es₁ k₁ es₂, es = es₁ ++ es₂ ∧ Run Step k₀ es₁ k₁ ∧ (k₁.processList pid).active = true ∧
      (k₁.processList pid).mutexList = [] ∧
      Run (Guarded Step fun k e => ¬ k.threads.Kills e pid) k₁ es₂ k := by
  induction hrun with
  | nil =>
    obtain ⟨s, u, hfresh, -, -, heq⟩ := boot_threads hboot
    have hnone : k₀.threads.mutexes pid = [] := by
      rw [heq]
      exact hfresh.mutexes pid
    exact ⟨[], k₀, [], rfl, .nil, hactive, hnone, .nil⟩
  | @snoc es k k' e hrun hlast ih =>
    have hsound := (run_sound hboot hrun).1
    have hthreads := step_threads hsound.fault hlast
    rcases hthreads.active_cases hactive with hbefore | ⟨-, -, hnone, -⟩
    · obtain ⟨es₁, k₁, es₂, rfl, hrun₁, hactive₁, hnone₁, hrun₂⟩ := ih hbefore
      have hspared : ¬ k.threads.Kills e pid := by
        intro hkills
        have hinactive := congrFun (hthreads.killed hkills).2.2.1 pid
        rw [Function.update_self] at hinactive
        have hactive' : k'.threads.active pid = true := hactive
        rw [hinactive] at hactive'
        cases hactive'
      exact ⟨es₁, k₁, es₂ ++ [e], List.append_assoc _ _ _, hrun₁, hactive₁, hnone₁,
        hrun₂.snoc ⟨hlast, hspared⟩⟩
    · exact ⟨es ++ [e], k', [], (List.append_nil _).symm, hrun.snoc hlast, hactive, hnone, .nil⟩

/-- A program that makes a mutex and locks it twice. -/
def locksTwice : Host where
  files _ := some (elfFile [0x93, 0x08, 0x60, 0x00, 0x73, 0, 0, 0, 0x93, 0x08, 0x70, 0x00,
    0x73, 0, 0, 0, 0x73, 0, 0, 0])
  console := { stdin := [], answers := [], written := [] }

/-- Its thread holds the mutex, and blocks in its second call. -/
theorem mutex_safety_relock :
    ∃ (k₀ k : Kernel) (es : List Event), boot locksTwice [[0x61]] = .ok k₀ ∧ Run Step k₀ es k ∧
      Holds es 0 0 ∧ (k.thread 0).state = .BLOCKED := by
  have hdec : returns (boot locksTwice [[0x61]]) (fun k₀ =>
      decide ((k₀.processList 0).active = true ∧ (k₀.processList 0).mutexList = []) &&
      returns (trace 6 k₀ 0) fun run => run.1.all (fun e => e.killer.isNone) &&
        decide ((run.2.thread 0).parent = 0 ∧ (run.2.thread 0).state = .BLOCKED ∧
          (run.2.processList 0).mutexList = [⟨some 0, [0], true⟩])) = true := by decide +kernel
  obtain ⟨k₀, hboot, hdec⟩ := returns_iff.1 hdec
  rw [Bool.and_eq_true] at hdec
  obtain ⟨hstart, hdec⟩ := hdec
  obtain ⟨⟨es, k⟩, htrace, hdec⟩ := returns_iff.1 hdec
  rw [Bool.and_eq_true] at hdec
  obtain ⟨hall, hend⟩ := hdec
  obtain ⟨hactive, hnone⟩ := of_decide_eq_true hstart
  obtain ⟨hparent, hstate, hmutexes⟩ := of_decide_eq_true hend
  have hrun := trace_run htrace
  have hspared : Run (Guarded Step fun k e => ¬ k.threads.Kills e 0) k₀ es k :=
    unkilled_run hrun fun e he => Option.isNone_iff_eq_none.1 (List.all_eq_true.1 hall e he)
  have hreach : k₀.Reachable := ⟨locksTwice, [[0x61]], k₀, [], hboot, .nil⟩
  refine ⟨k₀, k, es, hboot, hrun, ?_, hstate⟩
  refine ((mutex_safety hreach hactive hnone hspared).owner 0 0 hparent).2 ⟨⟨some 0, [0], true⟩, ?_, rfl⟩
  have hmutexes' : (k.processList 0).mutexList = [⟨some 0, [0], true⟩] := hmutexes
  rw [hmutexes']
  rfl

end Kernel

end Rv32umos
