import Rv32umos.Kernel.ThreadRun

/-!
# What a join returns

A `SYS_THREAD_JOIN` finds its target ended and returns the exit code at once, or it blocks and the
exit of the target patches the saved context of the joiner. Either way the joiner goes on past its
`ecall` with the exit code in `a0` and all else as it was (`thread_join`): from the call on it is
`Waiting`, and from the exit on `Answered`, and no step of others leads out of either
(`Step.waiting`, `Step.answered`).
-/

namespace Rv32umos

open SyscallHandler (suspend mutexError)
open Kernel (Event)
open Transition

namespace Threads

variable {s s' s₀ : Threads} {line : Place → List TRef} {self t u : TRef} {pid : Pid}
  {ctx : SyscallContext} {r : SyscallResult} {e : Event} {es : List Event} {regs : RegFile} {pc : Addr}

/-- A step is an event of the running thread, or a switch, or nothing. -/
theorem Step.acts (hstep : s.Step e s') :
    (∃ self, e.actor = some self ∧ s.Running self) ∨ s' = s ∨
    ∃ u, s.state u = .READY ∧ s.current ≠ some u ∧ s' = s.switch u := by
  cases hstep with
  | stay => exact .inr (.inl rfl)
  | rehash => exact .inr (.inl rfl)
  | switch hlt hready hother => exact .inr (.inr ⟨_, hready, hother, rfl⟩)
  | user hself => exact .inl ⟨_, rfl, hself⟩
  | fault hself => exact .inl ⟨_, rfl, hself⟩
  | segfault hself => exact .inl ⟨_, rfl, hself⟩
  | syscall hself => exact .inl ⟨_, rfl, hself⟩
  | badMutex hself => exact .inl ⟨_, rfl, hself⟩

/-! ### The context of a thread -/

/-- The registers and the pc of a thread: those of the machine while it is the current one. -/
def context (s : Threads) (t : TRef) : RegFile × Addr :=
  if s.current = some t then (s.regs, s.pc) else ((s.thread t).regs, (s.thread t).pc)

/-- A thread that `t` has joined exits, and the saved context of `t` is patched. -/
def Patches (s : Threads) (e : Event) (t : TRef) (code : Word) : Prop :=
  ∃ self ctx r, e = .syscall self ctx r ∧ ctx.id.toNat = SyscallID.SYS_THREAD_EXIT ∧
    s.Running self ∧ (s.thread self).joiner = some t ∧ ctx.arg0 = code

theorem Change.context_eq {thread : Thread} (h : Change s e t thread) (hother : s.current ≠ some t) :
    (thread.regs = (s.thread t).regs ∧ thread.pc = (s.thread t).pc) ∨
    ∃ code, s.Patches e t code ∧ thread.regs = (s.thread t).regs.write 10 code ∧
      thread.pc = (s.thread t).pc + 4 := by
  cases h with
  | patched he hid hself hjoiner =>
    exact .inr ⟨_, ⟨_, _, _, he, hid, hself, hjoiner, rfl⟩, rfl, rfl⟩
  | saved =>
    have hsaved : s.saved t = s.thread t := if_neg fun hand => hother hand.1
    rw [hsaved]
    exact .inl ⟨rfl, rfl⟩
  | _ => exact .inl ⟨rfl, rfl⟩

/-- The context of a thread that does not act stays, or is patched. -/
theorem Step.context_eq (h : s.Sound) (hstep : s.Step e s') (hlt : t < s.numThreads)
    (hlive : s.state t ≠ .TERMINATED) (hnot : e.actor ≠ some t) :
    s'.context t = s.context t ∨
    ∃ code, s.Patches e t code ∧
      s'.context t = ((s.context t).1.write 10 code, (s.context t).2 + 4) := by
  obtain ⟨line, hplaced⟩ := h.placed
  rcases hstep.acts with ⟨self, hactor, hself⟩ | rfl | ⟨u, hready, hother, rfl⟩
  · have hne : s.current ≠ some t := by
      rw [hself.1, ← hactor]
      exact hnot
    have hne' : s'.current ≠ some t := by
      rcases hstep.current_cases with ⟨-, hsame, -⟩ | ⟨u, -, -, -, rfl, -⟩
      · rw [hsame]
        exact hne
      · cases hactor
    unfold context
    rw [if_neg hne, if_neg hne']
    rcases (hstep.change hplaced hlt).context_eq hne with ⟨hregs, hpc⟩ | ⟨code, hpatches, hregs, hpc⟩
    · rw [hregs, hpc]
      exact .inl rfl
    · rw [hregs, hpc]
      exact .inr ⟨code, hpatches, rfl⟩
  · exact .inl rfl
  · refine .inl ?_
    unfold context
    by_cases htu : t = u
    · subst htu
      rw [if_neg hother]
      exact if_pos rfl
    · have hcur : (s.switch u).current ≠ some t := fun heq => htu (Option.some.inj heq).symm
      rw [if_neg hcur, thread_switch, if_neg htu]
      unfold saved
      by_cases hcur' : s.current = some t
      · rw [if_pos ⟨hcur', hlive⟩, if_pos hcur']
      · rw [if_neg fun hand => hcur' hand.1, if_neg hcur']

/-! ### Exits -/

theorem Step.exit_eq (hstep : s.Step (.syscall t ctx r) s')
    (hid : ctx.id.toNat = SyscallID.SYS_THREAD_EXIT) :
    r = suspend ∧ s' = (s.threadExit t ctx.arg0).deliver suspend := by
  cases hstep with
  | syscall hself hargs hcall =>
    cases hcall with
    | threadExit => exact ⟨rfl, rfl⟩
    | data hdata =>
      rw [hid] at hdata
      exact absurd hdata (by decide)
    | _ hother => exact absurd (hid.symm.trans hother) (by decide)
  | badMutex hself hargs hbad =>
    unfold BadMutex at hbad
    rw [hid] at hbad
    rcases hbad with ⟨hlock | hunlock, -⟩ | ⟨hunlock, -⟩
    · cases hlock
    · cases hunlock
    · cases hunlock

/-- The thread that exits and its joiner, after the exit. -/
theorem Step.exit_threads (h : s.Sound) (hstep : s.Step (.syscall t ctx r) s')
    (hid : ctx.id.toNat = SyscallID.SYS_THREAD_EXIT) :
    s'.thread t = { s.thread t with state := .TERMINATED, exitCode := ctx.arg0 } ∧
    ∀ u, (s.thread t).joiner = some u → u ≠ t ∧ s'.thread u = { s.thread u with
      state := .READY, regs := (s.thread u).regs.write 10 ctx.arg0, pc := (s.thread u).pc + 4 } := by
  have hself := hstep.running_of_syscall
  obtain ⟨line, hplaced⟩ := h.placed
  have hne : ∀ u, (s.thread t).joiner = some u → u ≠ t := by
    rintro u hjoiner rfl
    exact hplaced.free_running hself _ (hplaced.joiner_running hself hjoiner)
  rw [(hstep.exit_eq hid).2]
  show (s.threadExit t ctx.arg0).thread t = _ ∧ ∀ u, _ → u ≠ t ∧ (s.threadExit t ctx.arg0).thread u = _
  unfold threadExit
  dsimp only
  cases hjoiner : (s.thread t).joiner with
  | none =>
    rw [thread_modify, if_pos rfl]
    exact ⟨by rw [hjoiner], nofun⟩
  | some v =>
    have hv := hne v hjoiner
    dsimp only
    rw [thread_modify, if_neg hv.symm, thread_modify, if_pos rfl]
    refine ⟨by rw [hjoiner], fun u hu => ?_⟩
    cases hu
    rw [thread_modify, if_pos rfl, thread_modify, if_neg hv]
    exact ⟨hv, rfl⟩

/-- A thread that exits is dead, and its exit code is what it passed to the call. -/
theorem Step.exit_dead (h : s.Sound) (hstep : s.Step (.syscall t ctx r) s')
    (hid : ctx.id.toNat = SyscallID.SYS_THREAD_EXIT) :
    s'.Dead t ∧ (s'.thread t).exitCode = ctx.arg0 := by
  have hself := hstep.running_of_syscall
  have hthread := (hstep.exit_threads h hid).1
  have hended : s'.state t = .TERMINATED := by rw [state, hthread]
  obtain ⟨line, hplaced⟩ := h.placed
  obtain ⟨line', hplaced', hstay⟩ := hstep.placed h.rooted hplaced
  refine ⟨⟨hended, hself.2.1.trans_le hstep.num_le, line', hplaced', ?_⟩, by rw [hthread]⟩
  rcases hstay t (hplaced.free_running hself) with hfree | ⟨-, hblocked⟩
  · exact hfree
  · rw [hended] at hblocked
    cases hblocked

/-! ### Between the call and the answer -/

/-- `t` has blocked in its join on `u`, with the context `regs`, `pc`. -/
structure Waiting (s : Threads) (t u : TRef) (regs : RegFile) (pc : Addr) : Prop where
  blocked : s.state t = .BLOCKED
  joiner : (s.thread u).joiner = some t
  live : s.state u ≠ .TERMINATED
  context : s.context t = (regs, pc)

/-- `u` has ended, and `t` has its exit code in `a0` and is past the call. -/
structure Answered (s : Threads) (t u : TRef) (regs : RegFile) (pc : Addr) : Prop where
  awake : s.state t = .READY ∨ s.state t = .RUNNING
  dead : s.Dead u
  context : s.context t = (regs.write 10 (s.thread u).exitCode, pc + 4)

theorem Waiting.mem (h : s.Waiting t u regs pc) (hplaced : Placed s line) : t ∈ line (.join u) :=
  (hplaced.joiner h.joiner).resolve_right fun hand => h.live hand.1

theorem Wakes.place (h : s.Wakes e t) (hplaced : Placed s line) :
    ∃ p, t ∈ line p ∧ ∀ u, p ≠ .join u := by
  rcases h with ⟨pid, -, hmem⟩ | ⟨self, ctx, r, id, m, -, -, hm, -, hmem⟩
  · exact ⟨.waiters pid, hplaced.waiters pid ▸ hmem, nofun⟩
  · refine ⟨.queue (s.parent self) id, ?_, nofun⟩
    rw [hplaced.queue, queue_of_mutex hm.2]
    exact hmem

/-- Who waits for `u` is patched by the exit of `u` only. -/
theorem Patches.exit {code : Word} (h : s.Patches e t code) (hplaced : Placed s line)
    (hmem : t ∈ line (.join u)) :
    ∃ ctx r, e = .syscall u ctx r ∧ ctx.id.toNat = SyscallID.SYS_THREAD_EXIT := by
  obtain ⟨self, ctx, r, he, hid, hself, hjoiner, -⟩ := h
  have hplace := hplaced.oneLine.unique (hplaced.joiner_running hself hjoiner) hmem
  cases hplace
  exact ⟨ctx, r, he, hid⟩

/-- The target of a join keeps its joiner. -/
theorem Change.joiner_kept {thread : Thread} (h : Change s e u thread) (hplaced : Placed s line)
    (hjoiner : (s.thread u).joiner = some t) : thread.joiner = some t := by
  cases h with
  | awaited he hid hjoins =>
    have honce := hplaced.once (t := u) (by rw [hjoiner]; nofun)
    rw [hjoins.2.2] at honce
    cases honce
  | saved =>
    unfold Threads.saved
    split <;> exact hjoiner
  | _ => exact hjoiner

/-- A thread that waits in a join is not woken up but by the exit of its target. -/
theorem Change.waits {thread : Thread} (h : Change s e t thread) (hplaced : Placed s line)
    (hmem : t ∈ line (.join u)) (hblocked : s.state t = .BLOCKED) (hspared : ¬ s.Kills e pid)
    (hrooted : s.Rooted) (hparent : s.parent t = pid) (hnot : e.actor ≠ some t)
    (hexit : ∀ ctx r, e = .syscall u ctx r → ctx.id.toNat ≠ SyscallID.SYS_THREAD_EXIT) :
    thread.state = .BLOCKED := by
  cases h with
  | same => exact hblocked
  | @ended pid' hkills hmem' =>
    obtain rfl : pid' = pid := (hrooted pid' t hmem').2.symm.trans hparent
    exact absurd hkills hspared
  | woken hwakes =>
    obtain ⟨p, hp, hne⟩ := hwakes.place hplaced
    exact absurd (hplaced.oneLine.unique hp hmem) (hne u)
  | patched he hid hself hjoiner =>
    have hpatches : s.Patches e t _ := ⟨_, _, _, he, hid, hself, hjoiner, rfl⟩
    obtain ⟨ctx, r, he', hid'⟩ := hpatches.exit hplaced hmem
    exact absurd hid' (hexit ctx r he')
  | exited he =>
    rw [he] at hnot
    exact absurd rfl hnot
  | blocked => rfl
  | marked => exact hblocked
  | awaited => exact hblocked
  | saved =>
    rcases saved_state s t with heq | ⟨heq, -⟩
    · exact heq.trans hblocked
    · rw [hblocked] at heq
      cases heq
  | switched he hready =>
    rw [hblocked] at hready
    cases hready

/-- **The wait for the exit.** As long as their process lives, a thread that waits for another one
waits on, or the other has ended and it has the answer. -/
theorem Step.waiting (h : s.Sound) (hstep : s.Step e s') (hnot : e.actor ≠ some t)
    (hspared : ¬ s.Kills e pid) (ht : t ∈ s.members pid) (hu : u ∈ s.members pid)
    (hwaits : s.Waiting t u regs pc) : s'.Waiting t u regs pc ∨ s'.Answered t u regs pc := by
  obtain ⟨line, hplaced⟩ := h.placed
  obtain ⟨hlt, hparent⟩ := h.rooted pid t ht
  obtain ⟨hult, huparent⟩ := h.rooted pid u hu
  have hmem := hwaits.mem hplaced
  have hlive : s.state t ≠ .TERMINATED := by
    rw [hwaits.blocked]
    nofun
  by_cases hexit : ∃ ctx r, e = .syscall u ctx r ∧ ctx.id.toNat = SyscallID.SYS_THREAD_EXIT
  · obtain ⟨ctx, r, rfl, hid⟩ := hexit
    obtain ⟨hne, hthread⟩ := (hstep.exit_threads h hid).2 t hwaits.joiner
    obtain ⟨hdead, hcode⟩ := hstep.exit_dead h hid
    refine .inr ⟨.inl (by rw [state, hthread]), hdead, ?_⟩
    have hself := hstep.running_of_syscall
    have hother : s.current ≠ some t := by
      rw [hself.1]
      exact fun heq => hne (Option.some.inj heq).symm
    have hother' : s'.current ≠ some t := by
      rcases hstep.current_cases with ⟨-, hsame, -⟩ | ⟨v, -, -, -, heq, -⟩
      · rw [hsame]
        exact hother
      · cases heq
    have hcontext := hwaits.context
    unfold Threads.context at hcontext ⊢
    rw [if_neg hother] at hcontext
    obtain ⟨hregs, hpc⟩ := Prod.mk.inj hcontext
    rw [if_neg hother', hthread, hcode, hregs, hpc]
  · have hnever : ∀ ctx r, e = .syscall u ctx r → ctx.id.toNat ≠ SyscallID.SYS_THREAD_EXIT :=
      fun ctx r he hid => hexit ⟨ctx, r, he, hid⟩
    refine .inl ⟨?_, (hstep.change hplaced hult).joiner_kept hplaced hwaits.joiner,
      fun hended => ?_, ?_⟩
    · exact (hstep.change hplaced hlt).waits hplaced hmem hwaits.blocked hspared h.rooted hparent
        hnot hnever
    · rcases hstep.ends h hult hwaits.live hended with hkills | ⟨ctx, r, he, hid⟩
      · exact hspared (huparent ▸ hkills)
      · exact hnever ctx r he hid
    · rcases hstep.context_eq h hlt hlive hnot with hsame | ⟨code, hpatches, -⟩
      · exact hsame.trans hwaits.context
      · obtain ⟨ctx, r, he, hid⟩ := hpatches.exit hplaced hmem
        exact absurd hid (hnever ctx r he)

/-- A thread that is awake and does not act stays awake, unless its process is killed. -/
theorem Change.awake {thread : Thread} (h : Change s e t thread) (hspared : ¬ s.Kills e pid)
    (hrooted : s.Rooted) (hparent : s.parent t = pid) (hnot : e.actor ≠ some t)
    (hawake : s.state t = .READY ∨ s.state t = .RUNNING) :
    thread.state = .READY ∨ thread.state = .RUNNING := by
  cases h with
  | same => exact hawake
  | @ended pid' hkills hmem' =>
    obtain rfl : pid' = pid := (hrooted pid' t hmem').2.symm.trans hparent
    exact absurd hkills hspared
  | woken => exact .inl rfl
  | patched => exact .inl rfl
  | exited he =>
    rw [he] at hnot
    exact absurd rfl hnot
  | blocked he =>
    rw [he] at hnot
    exact absurd rfl hnot
  | marked => exact hawake
  | awaited => exact hawake
  | saved =>
    rcases saved_state s t with heq | ⟨-, heq⟩
    · rw [heq]
      exact hawake
    · exact .inl heq
  | switched => exact .inr rfl

/-- **After the exit.** The answer stays. -/
theorem Step.answered (h : s.Sound) (hstep : s.Step e s') (hnot : e.actor ≠ some t)
    (hspared : ¬ s.Kills e pid) (ht : t ∈ s.members pid) (hanswered : s.Answered t u regs pc) :
    s'.Answered t u regs pc := by
  obtain ⟨line, hplaced⟩ := h.placed
  obtain ⟨hlt, hparent⟩ := h.rooted pid t ht
  have hlive : s.state t ≠ .TERMINATED := by
    rcases hanswered.awake with heq | heq
    · rw [heq]
      nofun
    · rw [heq]
      nofun
  have hfree : Free line t := hplaced.free (by
    rcases hanswered.awake with heq | heq
    · rw [heq]
      nofun
    · rw [heq]
      nofun) hlive
  obtain ⟨hdead, hcode⟩ := hanswered.dead.step h.rooted hstep
  refine ⟨(hstep.change hplaced hlt).awake hspared h.rooted hparent hnot hanswered.awake, hdead, ?_⟩
  rw [hcode]
  rcases hstep.context_eq h hlt hlive hnot with hsame | ⟨code, hpatches, -⟩
  · exact hsame.trans hanswered.context
  · obtain ⟨self, ctx, r, he, hid, hself, hjoiner, -⟩ := hpatches
    exact absurd (hplaced.joiner_running hself hjoiner) (hfree _)

/-! ### The call -/

theorem target_unique (h : s.Joins t ctx u) {v : TRef} (h' : s.Joins t ctx v) : u = v :=
  Option.some.inj (h.1.symm.trans h'.1)

/-- A join that is accepted answers at once, or blocks. -/
theorem Step.join_eq (hstep : s.Step (.syscall t ctx r) s')
    (hid : ctx.id.toNat = SyscallID.SYS_THREAD_JOIN) (hjoins : s.Joins t ctx u) :
    (s.state u = .TERMINATED ∧
      s' = (s.markJoined u).deliver { returnValue := (s.thread u).exitCode }) ∨
    (s.state u ≠ .TERMINATED ∧ s' = (s.joinThread u t).deliver suspend) := by
  cases hstep with
  | badMutex hself hargs hbad =>
    unfold BadMutex at hbad
    rw [hid] at hbad
    rcases hbad with ⟨hlock | hunlock, -⟩ | ⟨hunlock, -⟩
    · cases hlock
    · cases hunlock
    · cases hunlock
  | syscall hself hargs hcall =>
    cases hcall with
    | joinRefused hid' hrefused => exact absurd hjoins (hrefused u)
    | joinEnded hid' hjoins' hstate =>
      obtain rfl := target_unique hjoins hjoins'
      exact .inl ⟨hstate, rfl⟩
    | joinBlocks hid' hjoins' hstate =>
      obtain rfl := target_unique hjoins hjoins'
      exact .inr ⟨hstate, rfl⟩
    | data hdata =>
      rw [hid] at hdata
      exact absurd hdata (by decide)
    | _ hother => exact absurd (hid.symm.trans hother) (by decide)

theorem Joins.ne (h : s.Joins t ctx u) : t ≠ u := by
  rintro rfl
  exact h.2.1 rfl

/-- The two threads of a join that blocks. -/
theorem joinThread_threads (s : Threads) (hne : t ≠ u) :
    (s.joinThread u t).thread t = { s.thread t with state := .BLOCKED } ∧
    (s.joinThread u t).thread u = { s.thread u with hasBeenJoined := true, joiner := some t } := by
  unfold joinThread block markJoined
  constructor
  · rw [thread_modify, if_pos rfl, thread_modify, if_neg hne, thread_modify, if_neg hne]
  · rw [thread_modify, if_neg hne.symm, thread_modify, if_pos rfl, thread_modify, if_pos rfl]

theorem Step.joined (hstep : s.Step (.syscall t ctx r) s')
    (hid : ctx.id.toNat = SyscallID.SYS_THREAD_JOIN) (hjoins : s.Joins t ctx u) :
    (s'.thread u).hasBeenJoined = true := by
  rcases hstep.join_eq hid hjoins with ⟨-, rfl⟩ | ⟨-, rfl⟩
  · show ((s.markJoined u).thread u).hasBeenJoined = true
    rw [markJoined, thread_modify, if_pos rfl]
  · exact congrArg Thread.hasBeenJoined (s.joinThread_threads hjoins.ne).2

/-- After a join that is accepted the answer is awaited, or there. -/
theorem Step.joins (h : s.Sound) (hstep : s.Step (.syscall t ctx r) s')
    (hid : ctx.id.toNat = SyscallID.SYS_THREAD_JOIN) (hjoins : s.Joins t ctx u)
    (hdead : s.state u = .TERMINATED → s.Dead u) :
    s'.Waiting t u s.regs s.pc ∨ s'.Answered t u s.regs s.pc := by
  have hself := hstep.running_of_syscall
  rcases hstep.join_eq hid hjoins with ⟨hstate, heq⟩ | ⟨hstate, heq⟩
  · obtain ⟨hdead', hcode⟩ := (hdead hstate).step h.rooted hstep
    refine .inr ⟨.inr ?_, hdead', ?_⟩
    · rw [heq]
      show ((s.markJoined u).thread t).state = .RUNNING
      rw [markJoined, thread_modify, if_neg hjoins.ne]
      exact hself.2.2
    · rw [hcode, heq]
      exact if_pos hself.1
  · obtain ⟨hthread, htarget⟩ := s.joinThread_threads hjoins.ne
    rw [heq]
    refine .inl ⟨congrArg Thread.state hthread, congrArg Thread.joiner htarget, ?_, if_pos hself.1⟩
    show ((s.joinThread u t).thread u).state ≠ .TERMINATED
    rw [htarget]
    exact hstate

/-- A join that is not accepted returns -1 and does not block. -/
theorem Step.refused (hstep : s.Step (.syscall t ctx r) s')
    (hid : ctx.id.toNat = SyscallID.SYS_THREAD_JOIN) (hrefused : ∀ u, ¬ s.Joins t ctx u) :
    r = { returnValue := -1 } ∧ s'.state t = .RUNNING := by
  have hself := hstep.running_of_syscall
  cases hstep with
  | badMutex hself hargs hbad =>
    unfold BadMutex at hbad
    rw [hid] at hbad
    rcases hbad with ⟨hlock | hunlock, -⟩ | ⟨hunlock, -⟩
    · cases hlock
    · cases hunlock
    · cases hunlock
  | syscall hself' hargs hcall =>
    cases hcall with
    | joinRefused => exact ⟨rfl, hself.2.2⟩
    | joinEnded hid' hjoins => exact absurd hjoins (hrefused _)
    | joinBlocks hid' hjoins => exact absurd hjoins (hrefused _)
    | data hdata =>
      rw [hid] at hdata
      exact absurd hdata (by decide)
    | _ hother => exact absurd (hid.symm.trans hother) (by decide)

theorem Change.joined {thread : Thread} (h : Change s e t thread)
    (hjoined : (s.thread t).hasBeenJoined = true) : thread.hasBeenJoined = true := by
  cases h with
  | marked => rfl
  | awaited => rfl
  | saved =>
    unfold Threads.saved
    split <;> exact hjoined
  | _ => exact hjoined

/-! ### Runs -/

/-- In a process that lives after a step, an old thread was there before. -/
theorem Step.alive_before (hstep : s.Step e s') (hlt : t < s.numThreads)
    (hactive : s'.active pid = true) (hmem : t ∈ s'.members pid) :
    s.active pid = true ∧ t ∈ s.members pid ∧ ¬ s.Kills e pid := by
  have hspared : ¬ s.Kills e pid := by
    intro hkills
    rw [(hstep.killed hkills).2.2.1, Function.update_self] at hactive
    cases hactive
  have hold : t ∈ s.members pid := by
    rcases hstep.mem_members hmem with hold | ⟨rfl, -⟩
    · exact hold
    · exact absurd hlt (Nat.lt_irrefl _)
  rcases hstep.active_cases hactive with hbefore | ⟨hmembers, -⟩
  · exact ⟨hbefore, hold, hspared⟩
  · rw [hmembers, List.mem_singleton] at hmem
    exact absurd hlt (hmem ▸ Nat.lt_irrefl _)

theorem alive_before_run (hrun : Run Step s es s') (hlt : t < s.numThreads)
    (hactive : s'.active pid = true) (hmem : t ∈ s'.members pid) :
    s.active pid = true ∧ t ∈ s.members pid := by
  induction hrun with
  | nil => exact ⟨hactive, hmem⟩
  | @snoc es s₁ s₂ e hrun hlast ih =>
    have hnum : s.numThreads ≤ s₁.numThreads :=
      hrun.invariant (fun s' => s.numThreads ≤ s'.numThreads) le_rfl
        fun _ _ _ hle hstep => hle.trans hstep.num_le
    obtain ⟨hactive₁, hmem₁, -⟩ := hlast.alive_before (hlt.trans_le hnum) hactive hmem
    exact ih hactive₁ hmem₁

theorem joined_run (h : s.Sound) (hrun : Run Step s es s') (hlt : t < s.numThreads)
    (hjoined : (s.thread t).hasBeenJoined = true) : (s'.thread t).hasBeenJoined = true := by
  have hinv : s'.Sound ∧ t < s'.numThreads ∧ (s'.thread t).hasBeenJoined = true := by
    refine hrun.invariant (fun s => s.Sound ∧ t < s.numThreads ∧ (s.thread t).hasBeenJoined = true)
      ⟨h, hlt, hjoined⟩ ?_
    rintro s e s' ⟨hsound, hlt, hjoined⟩ hstep
    obtain ⟨line, hplaced⟩ := hsound.placed
    exact ⟨hstep.sound hsound, hlt.trans_le hstep.num_le, (hstep.change hplaced hlt).joined hjoined⟩
  exact hinv.2.2

/-- As long as the process lives and `t` does not act, the answer is awaited or there. -/
theorem answer_run (h : s.Sound) (hrun : Run (fun s e s' => s.Step e s' ∧ e.actor ≠ some t) s es s')
    (ht : t ∈ s.members pid) (hu : u ∈ s.members pid)
    (hcase : s.Waiting t u regs pc ∨ s.Answered t u regs pc) (hactive : s'.active pid = true)
    (hmem : t ∈ s'.members pid) :
    u ∈ s'.members pid ∧ (s'.Waiting t u regs pc ∨ s'.Answered t u regs pc) := by
  induction hrun with
  | nil => exact ⟨hu, hcase⟩
  | @snoc es s₁ s₂ e hrun hlast ih =>
    have hplain : Run Step s es s₁ := hrun.mono fun _ _ _ hstep => hstep.1
    have hsound₁ := h.run hplain
    have hnum : s.numThreads ≤ s₁.numThreads :=
      hplain.invariant (fun s' => s.numThreads ≤ s'.numThreads) le_rfl
        fun _ _ _ hle hstep => hle.trans hstep.num_le
    have hlt : t < s₁.numThreads := (h.rooted pid t ht).1.trans_le hnum
    obtain ⟨hactive₁, hmem₁, hspared⟩ := hlast.1.alive_before hlt hactive hmem
    obtain ⟨hu₁, hcase₁⟩ := ih hactive₁ hmem₁
    refine ⟨(hlast.1.spared hactive₁ hspared).2 u hu₁, ?_⟩
    rcases hcase₁ with hwaits | hanswered
    · exact hlast.1.waiting hsound₁ hlast.2 hspared hmem₁ hu₁ hwaits
    · exact .inr (hlast.1.answered hsound₁ hlast.2 hspared hmem₁ hanswered)

end Threads

/-- Thread `t` has called `SYS_THREAD_EXIT` with `code`. -/
def Kernel.Exited (es : List Event) (t : TRef) (code : Word) : Prop :=
  ∃ ctx r, Event.syscall t ctx r ∈ es ∧ ctx.id.toNat = SyscallID.SYS_THREAD_EXIT ∧ ctx.arg0 = code

namespace Threads

open Kernel (Exited)

variable {s s' s₀ : Threads} {t u : TRef} {pid : Pid} {es : List Event} {code : Word}

/-- A thread that has exited is dead, and its exit code is what it passed. -/
theorem exited_run (h : s₀.Sound) (hrun : Run Step s₀ es s) (hexited : Exited es t code) :
    s.Dead t ∧ (s.thread t).exitCode = code := by
  have hinv : s.Sound ∧ ∀ code, Exited es t code → s.Dead t ∧ (s.thread t).exitCode = code := by
    refine hrun.induct (fun es s => s.Sound ∧ ∀ code, Exited es t code →
      s.Dead t ∧ (s.thread t).exitCode = code) ⟨h, ?_⟩ ?_
    · rintro code ⟨ctx, r, hmem, -⟩
      cases hmem
    · rintro es s e s' ⟨hsound, ih⟩ hstep
      refine ⟨hstep.sound hsound, ?_⟩
      rintro code ⟨ctx, r, hmem, hid, rfl⟩
      rcases List.mem_append.1 hmem with hmem | hmem
      · obtain ⟨hdead, hcode⟩ := ih _ ⟨ctx, r, hmem, hid, rfl⟩
        obtain ⟨hdead', hcode'⟩ := hdead.step hsound.rooted hstep
        exact ⟨hdead', hcode'.trans hcode⟩
      · rw [List.mem_singleton] at hmem
        subst hmem
        exact hstep.exit_dead hsound hid
  exact hinv.2 code hexited

/-- A thread that has ended in a process that lives has exited. -/
theorem ended_run (h : s₀.Sound) (hrun : Run Step s₀ es s)
    (hstart : ∀ pid t, s₀.active pid = true → t ∈ s₀.members pid → s₀.state t ≠ .TERMINATED)
    (hactive : s.active pid = true) (hmem : t ∈ s.members pid) (hended : s.state t = .TERMINATED) :
    ∃ code, Exited es t code := by
  have hinv : s.Sound ∧ ∀ pid t, s.active pid = true → t ∈ s.members pid →
      s.state t = .TERMINATED → ∃ code, Exited es t code := by
    refine hrun.induct (fun es s => s.Sound ∧ ∀ pid t, s.active pid = true → t ∈ s.members pid →
      s.state t = .TERMINATED → ∃ code, Exited es t code) ⟨h, ?_⟩ ?_
    · exact fun pid t hactive hmem hended => absurd hended (hstart pid t hactive hmem)
    · rintro es s e s' ⟨hsound, ih⟩ hstep
      refine ⟨hstep.sound hsound, fun pid t hactive hmem hended => ?_⟩
      by_cases hlt : t < s.numThreads
      · obtain ⟨hactive', hmem', hspared⟩ := hstep.alive_before hlt hactive hmem
        by_cases hbefore : s.state t = .TERMINATED
        · obtain ⟨code, ctx, r, hin, hid⟩ := ih pid t hactive' hmem' hbefore
          exact ⟨code, ctx, r, List.mem_append_left _ hin, hid⟩
        · rcases hstep.ends hsound hlt hbefore hended with hkills | ⟨ctx, r, rfl, hid⟩
          · exact absurd ((hsound.rooted pid t hmem').2 ▸ hkills) hspared
          · exact ⟨ctx.arg0, ctx, r, List.mem_append_right _ (List.mem_singleton_self _), hid, rfl⟩
      · have hready := hstep.state_new (Nat.le_of_not_lt hlt)
          ((hstep.sound hsound).rooted pid t hmem).1
        rw [hended] at hready
        cases hready
  exact hinv.2 pid t hactive hmem hended

end Threads

namespace Kernel

open Threads

variable {k₀ k₁ : Kernel} {es₁ : List Event}

theorem boot_live {host : Host} {filenames : List Name} (hboot : boot host filenames = .ok k₀) :
    ∀ t < k₀.threads.numThreads, k₀.threads.state t ≠ .TERMINATED := by
  obtain ⟨s, u, hfresh, -, -, heq⟩ := boot_threads hboot
  rw [heq]
  intro t ht
  have hready := hfresh.ready t ht
  rw [state, thread_switch]
  split_ifs
  · intro hended
    cases hended
  · rcases saved_state s t with heq | ⟨-, heq⟩
    · rw [heq, hready]
      decide
    · rw [heq]
      decide

/-- **Joins.** In every run: a join that is not accepted returns -1 and does not block. After one
that is, no join on the same thread is accepted; and when the joiner `t` next runs, in a process that
has lived, its target `u` has ended, `a0` is what `u` passed to `SYS_THREAD_EXIT`, the pc is past the
call, and every other register is as it was. -/
theorem thread_join {host : Host} {filenames : List Name} (hboot : boot host filenames = .ok k₀)
    (hrun₁ : Run Step k₀ es₁ k₁) {t : TRef} {ctx : SyscallContext} {r : SyscallResult} {k₂ : Kernel}
    (hcall : Step k₁ (.syscall t ctx r) k₂) (hid : ctx.id.toNat = SyscallID.SYS_THREAD_JOIN) :
    ((∀ u, ¬ k₁.threads.Joins t ctx u) →
      r = { returnValue := -1 } ∧ (k₂.thread t).state = .RUNNING) ∧
    ∀ u es₂ k₃, k₁.threads.Joins t ctx u → Run Step k₂ es₂ k₃ →
      (∀ v ctx', ¬ k₃.threads.Joins v ctx' u) ∧
      ((∀ e ∈ es₂, e.actor ≠ some t) → (k₃.processList (k₁.thread t).parent).active = true →
        t ∈ (k₃.processList (k₁.thread t).parent).threads → k₃.threads.Running t →
        (k₃.thread u).state = .TERMINATED ∧
        (∃ code, Exited (es₁ ++ .syscall t ctx r :: es₂) u code) ∧
        ∀ code, Exited (es₁ ++ .syscall t ctx r :: es₂) u code →
          k₃.cpu.regs = k₁.cpu.regs.write 10 code ∧ k₃.cpu.pc = k₁.cpu.pc + 4) := by
  obtain ⟨hsound₁, hthreads₁⟩ := run_sound hboot hrun₁
  have hsound₀ : k₀.threads.Sound := (run_sound hboot .nil).1
  have hcall' := step_threads hsound₁.fault hcall
  have hsound₂ := hcall'.sound hsound₁
  refine ⟨fun hrefused => hcall'.refused hid hrefused, fun u es₂ k₃ hjoins hrun₂ => ?_⟩
  obtain ⟨hmem, -⟩ := hjoins.parent_eq hsound₁.rooted
  have hthreads₂ : Run Threads.Step k₂.threads es₂ k₃.threads :=
    ((run_threads (C := fun _ _ _ => True) hsound₂.fault
      (hrun₂.mono fun _ _ _ hstep => ⟨hstep, trivial⟩)).1).mono fun _ _ _ hstep => hstep.1
  have hlt : u < k₂.threads.numThreads := (hsound₁.rooted _ u hmem).1.trans_le hcall'.num_le
  refine ⟨fun v ctx' hjoins' => ?_, fun hothers hactive hmember hrunning => ?_⟩
  · have hjoined := joined_run hsound₂ hthreads₂ hlt (hcall'.joined hid hjoins)
    rw [hjoins'.2.2] at hjoined
    cases hjoined
  · have hall : Run Threads.Step k₀.threads (es₁ ++ .syscall t ctx r :: es₂) k₃.threads := by
      have hsnoc := (hthreads₁.snoc hcall').append hthreads₂
      rwa [List.append_assoc] at hsnoc
    have hself := hcall'.running_of_syscall
    obtain ⟨hactive₂, hmember₂⟩ :=
      alive_before_run hthreads₂ (hself.2.1.trans_le hcall'.num_le) hactive hmember
    obtain ⟨hactive₁, hmember₁, hspared⟩ := hcall'.alive_before hself.2.1 hactive₂ hmember₂
    have hstart : ∀ pid v, k₀.threads.active pid = true → v ∈ k₀.threads.members pid →
        k₀.threads.state v ≠ .TERMINATED :=
      fun pid v _ hv => boot_live hboot v (hsound₀.rooted pid v hv).1
    have hdead : k₁.threads.state u = .TERMINATED → k₁.threads.Dead u := by
      intro hended
      obtain ⟨code, hexited⟩ := ended_run hsound₀ hthreads₁ hstart hactive₁ hmem hended
      exact (exited_run hsound₀ hthreads₁ hexited).1
    have hu₂ := (hcall'.spared hactive₁ hspared).2 u hmem
    obtain ⟨hu₃, hcase⟩ := answer_run hsound₂ (hthreads₂.labelled hothers) hmember₂ hu₂
      (hcall'.joins hsound₁ hid hjoins hdead) hactive hmember
    rcases hcase with hwaits | hanswered
    · have hblocked := hwaits.blocked
      rw [hrunning.2.2] at hblocked
      cases hblocked
    · refine ⟨hanswered.dead.1,
        ended_run hsound₀ hall hstart hactive hu₃ hanswered.dead.1, fun code hexited => ?_⟩
      have hcontext := hanswered.context
      unfold context at hcontext
      rw [if_pos hrunning.1, (exited_run hsound₀ hall hexited).2] at hcontext
      exact Prod.mk.inj hcontext

/-- A program that makes a thread and joins it; the thread exits with 7. -/
def joinsThread : Host where
  files _ := some (elfFile [0x93, 0x08, 0x30, 0x00, 0x13, 0x05, 0x80, 0x06, 0x73, 0, 0, 0,
    0x93, 0x08, 0x50, 0x00, 0x73, 0, 0, 0, 0x93, 0x08, 0x40, 0x00, 0x13, 0x05, 0x70, 0x00,
    0x73, 0, 0, 0])
  console := { stdin := [], answers := [], written := [] }

/-- The join blocks, and answers 7. -/
theorem thread_join_blocked :
    ∃ k₁ k₃ : Kernel, simulate joinsThread [[0x61]] 5 = .ok k₁ ∧ k₃.Reachable ∧
      (k₃.thread 1).state = .TERMINATED ∧ k₃.cpu.regs = k₁.cpu.regs.write 10 7 ∧
      k₃.cpu.pc = k₁.cpu.pc + 4 := by
  have hdec : returns (simulate joinsThread [[0x61]] 5) (fun k₁ =>
      decide (k₁.threads.Running 0 ∧ (k₁.thread 0).parent = 0) &&
      returns k₁.tick fun call => call.1.onSyscall (fun self ctx _ => decide (self = 0 ∧
          k₁.threads.Joins 0 ctx 1 ∧ ctx.id.toNat = SyscallID.SYS_THREAD_JOIN)) &&
        returns (trace 3 call.2 0) fun run =>
          run.1.all (fun e => decide (e.actor ≠ some 0)) && decide (run.2.threads.Running 1) &&
          returns run.2.tick fun exit => exit.1.onSyscall (fun self ctx _ => decide (self = 1 ∧
              ctx.id.toNat = SyscallID.SYS_THREAD_EXIT ∧ ctx.arg0 = 7)) &&
            decide (exit.2.preempt.threads.Running 0 ∧
              (exit.2.preempt.processList 0).active = true ∧
              0 ∈ (exit.2.preempt.processList 0).threads)) = true := by decide +kernel
  obtain ⟨k₁, hk₁, hdec⟩ := returns_iff.1 hdec
  rw [Bool.and_eq_true] at hdec
  obtain ⟨hfirst, hdec⟩ := hdec
  obtain ⟨⟨call, k₂⟩, hcall, hdec⟩ := returns_iff.1 hdec
  rw [Bool.and_eq_true] at hdec
  obtain ⟨hjoin, hdec⟩ := hdec
  obtain ⟨⟨es₂, k⟩, htrace, hdec⟩ := returns_iff.1 hdec
  rw [Bool.and_eq_true, Bool.and_eq_true] at hdec
  obtain ⟨⟨hothers, hrunning⟩, hdec⟩ := hdec
  obtain ⟨⟨exit, c⟩, hexit, hdec⟩ := returns_iff.1 hdec
  rw [Bool.and_eq_true] at hdec
  obtain ⟨hcode, hdec⟩ := hdec
  obtain ⟨self, ctx, r, rfl, hjoin⟩ := onSyscall_iff.1 hjoin
  obtain ⟨rfl, hjoins, hid⟩ := of_decide_eq_true hjoin
  obtain ⟨self', ctx', r', rfl, hcode⟩ := onSyscall_iff.1 hcode
  obtain ⟨rfl, hid', hcode⟩ := of_decide_eq_true hcode
  obtain ⟨hself, hparent⟩ := of_decide_eq_true hfirst
  obtain ⟨hback, hactive, hmem⟩ := of_decide_eq_true hdec
  obtain ⟨k₀, es₁, hboot, hrun₁⟩ := simulate_run hk₁
  have hstep : Step k₁ (.syscall 0 ctx r) k₂ := .tick ⟨0, hself⟩ hcall
  have hstep' : Step k (.syscall 1 ctx' r') c := .tick ⟨1, of_decide_eq_true hrunning⟩ hexit
  have hrun₂ : Run Step k₂ (es₂ ++ [.syscall 1 ctx' r'] ++ [.preempt]) c.preempt :=
    ((trace_run htrace).snoc hstep').snoc .preempt
  have hreach : c.preempt.Reachable :=
    ⟨joinsThread, [[0x61]], k₀, _, hboot, (hrun₁.snoc hstep).append hrun₂⟩
  have hnone : ∀ e ∈ es₂ ++ [.syscall 1 ctx' r'] ++ [.preempt], e.actor ≠ some 0 := by
    intro e he
    rcases List.mem_append.1 he with he | he
    · rcases List.mem_append.1 he with he | he
      · exact of_decide_eq_true (List.all_eq_true.1 hothers e he)
      · cases List.mem_singleton.1 he
        show some 1 ≠ some 0
        decide
    · cases List.mem_singleton.1 he
      show none ≠ some 0
      decide
  obtain ⟨-, hanswer⟩ := (thread_join hboot hrun₁ hstep hid).2 1 _ c.preempt hjoins hrun₂
  rw [hparent] at hanswer
  obtain ⟨hended, -, hcontext⟩ := hanswer hnone hactive hmem hback
  refine ⟨k₁, c.preempt, hk₁, hreach, hended, hcontext 7 ⟨ctx', r', ?_, hid', hcode⟩⟩
  exact List.mem_append_right _ (List.mem_cons_of_mem _ (List.mem_append_left _
    (List.mem_append_right _ List.mem_cons_self)))

end Kernel

end Rv32umos
