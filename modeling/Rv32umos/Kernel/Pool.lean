import Rv32umos.Kernel.Retry

/-!
# The pool of frames in every run

The invariant of `FramePool` along the runs of the whole system: only a fault that is served changes
the queue of the policy (`step_prp`), and every step keeps each frame free or allocated and queued
(`reachable_pooled`). So every reachable state is one in which an instruction can be retried
(`reachable_retriable`).
-/

namespace Rv32umos

open Transition

namespace SyscallHandler

open Kernel

variable {k k' : Kernel} {ctx : SyscallContext} {r : SyscallResult}

theorem terminate_prp {pid : Pid} {exitCode : Word} {ok : Bool}
    (h : k.terminate pid exitCode = .ok (ok, k')) : k'.prp = k.prp := by
  rcases terminate_cases h with ⟨-, -, rfl⟩ | ⟨-, -, pmm, -, rfl⟩
  · rfl
  · rfl

theorem loadELF_prp {filename : Name} {created : Option Pid}
    (h : Loader.loadELF k filename = .ok (created, k')) : k'.prp = k.prp := by
  rcases Loader.loadELF_cases h with ⟨-, rfl⟩ | ⟨file, pid, pmm, segments, -, -, -, -, ⟨-, rfl⟩ | ⟨-, rfl⟩⟩
  · rfl
  · rfl
  · rfl

/-- No system call tells the policy anything. -/
theorem dispatch_prp (h : dispatch k ctx = .ok (r, k')) : k'.prp = k.prp := by
  have hquiet : ∀ {k₁ : Kernel}, Quiet k k₁ → k₁.prp = k.prp := fun hq => hq.field Kernel.prp fun _ => rfl
  have hthreads : k'.unthreaded = k.unthreaded → k'.prp = k.prp :=
    fun hu => field_of_unthreaded Kernel.prp hu fun _ => rfl
  unfold dispatch at h
  split at h
  · obtain ⟨current, -, h⟩ := bind_eq_ok.1 h
    obtain ⟨⟨ok, k₁⟩, hterminate, h⟩ := bind_eq_ok.1 h
    dsimp only at h
    split_ifs at h
    cases h
    exact terminate_prp hterminate
  · exact hquiet (handleWrite_quiet h)
  · exact hquiet (handleRead_quiet h)
  · exact hthreads (handleThreadCreate_unthreaded h)
  · exact hthreads (handleThreadExit_unthreaded h)
  · exact hthreads (handleThreadJoin_unthreaded h)
  · exact hthreads (handleMutexCreate_unthreaded h)
  · exact hthreads (handleMutexLock_unthreaded h)
  · exact hthreads (handleMutexUnlock_unthreaded h)
  · exact hquiet (handleOpen_quiet h)
  · exact hquiet (handleClose_quiet h)
  · exact hquiet (handleCreate_quiet h)
  · exact hthreads (handleSbrk_unthreaded h)
  · obtain ⟨⟨filename, k₁⟩, hread, h⟩ := bind_eq_ok.1 h
    obtain ⟨⟨created, k₂⟩, hload, h⟩ := bind_eq_ok.1 h
    have hprp := (loadELF_prp hload).trans (hquiet (readFilename_quiet hread))
    dsimp only at h
    split at h <;> cases h <;> exact hprp
  · rcases handleJoinProcess_cases h with ⟨-, rfl⟩ | ⟨pid, exitCode, k₁, -, -, -, hq, rfl⟩ |
      ⟨pid, current, -, -, -, -, -, rfl⟩
    · rfl
    · have hprp : k₁.prp = k.prp := hquiet hq
      exact hprp
    · rfl
  · cases h

end SyscallHandler

namespace Kernel

variable {k k' : Kernel}

/-! ### One step -/

/-- A step in which a fault is served: the trap, and the service. -/
theorem step_served {t : TRef} {addr : Addr} (h : Step k (.fault t addr true) k') :
    ∃ k₁ regs pc, Quiet (k.setContext regs pc) k₁ ∧
      k₁.servePageFault (k.thread t).parent addr = .ok (true, k') := by
  cases h with
  | tick hrunning htick =>
    obtain ⟨self, k₁, cpu, hself, hk₁, hcpu, hcase⟩ := tick_cases htick
    have hquiet : Quiet (k.setContext cpu.regs cpu.pc) (k₁.withMachine cpu).clearTrap :=
      (Quiet.tick hk₁ hcpu).trans (clearTrap_quiet _)
    rcases hcase with ⟨-, he, -⟩ | ⟨v, handled, -, he, hfault⟩ | ⟨id, ctx, r, -, he, -⟩
    · cases he
    · cases he
      obtain ⟨current, hcurrent, hfault⟩ := bind_eq_ok.1 hfault
      cases (hquiet.getCurrentThread.trans hself).symm.trans hcurrent
      obtain ⟨⟨handled, k₂⟩, hserve, hfault⟩ := bind_eq_ok.1 hfault
      cases handled with
      | false =>
        obtain ⟨⟨killed, k₃⟩, -, hfault⟩ := bind_eq_ok.1 hfault
        cases killed <;> cases hfault
      | true =>
        cases hfault
        rw [hquiet.thread] at hserve
        exact ⟨_, cpu.regs, cpu.pc, hquiet, hserve⟩
    · cases he

theorem step_prp {e : Kernel.Event} (hk : k.Tracked) (h : Step k e k')
    (hserved : ∀ t addr, e ≠ .fault t addr true) : k'.prp = k.prp := by
  cases h with
  | preempt => exact field_of_unthreaded Kernel.prp (preempt_unthreaded k) fun _ => rfl
  | rehash pid table hperm => rfl
  | tick hrunning htick =>
    obtain ⟨self, k₁, cpu, hself, hk₁, hcpu, hcase⟩ := tick_cases htick
    have hquiet := Quiet.tick hk₁ hcpu
    have hsame : SameFrames k (k₁.withMachine cpu).clearTrap :=
      (SameFrames.setContext k _ _).trans (.of_quiet (hquiet.trans (clearTrap_quiet _)))
    have hprp : (k₁.withMachine cpu).prp = k.prp := hquiet.field Kernel.prp fun _ => rfl
    rcases hcase with ⟨-, rfl, rfl⟩ | ⟨addr, handled, -, rfl, hfault⟩ | ⟨id, ctx, r, -, rfl, hsyscall⟩
    · exact hprp
    · obtain ⟨current, -, hfault⟩ := bind_eq_ok.1 hfault
      obtain ⟨⟨served, k₂⟩, hserve, hfault⟩ := bind_eq_ok.1 hfault
      cases served with
      | true =>
        cases hfault
        exact absurd rfl (hserved self addr)
      | false =>
        obtain ⟨⟨killed, k₃⟩, hkill, hfault⟩ := bind_eq_ok.1 hfault
        dsimp only at hfault
        split_ifs at hfault
        cases hfault
        refine (SyscallHandler.terminate_prp hkill).trans ?_
        rcases servePageFault_effect (hsame.tracked hk).owners hserve with ⟨-, rfl⟩ | ⟨htrue, -⟩
        · exact hprp
        · cases htrue
    · obtain ⟨-, k₂, hdispatch, hcase⟩ := handleSyscall_cases hsyscall
      have hdelivered : (k₂.deliver r).prp = k.prp :=
        (field_of_unthreaded Kernel.prp (deliver_unthreaded k₂ r) fun _ => rfl).trans
          ((SyscallHandler.dispatch_prp hdispatch).trans hprp)
      rcases hcase with ⟨-, rfl⟩ | ⟨-, current, -, hkill⟩
      · exact hdelivered
      · exact (SyscallHandler.terminate_prp hkill).trans hdelivered

theorem Pooled.congr (hk : k.Pooled) (hpmm : k'.pmm = k.pmm) (hprp : k'.prp = k.prp)
    (hmapped : k'.Tracked) : k'.Pooled := by
  refine ⟨?_, hmapped.frame⟩
  rw [hpmm, hprp]
  exact hk.pool

/-- A wipe does not look at the queue. -/
theorem wipe_prp (prp : FIFOPolicy) (l : List (Addr × PTE)) (k : Kernel) :
    l.foldlM (fun k e => wipePTE k e.2) ({ k with prp } : Kernel) =
      (l.foldlM (fun k e => wipePTE k e.2) k).map fun k => { k with prp } := by
  induction l generalizing k with
  | nil => rfl
  | cons e l ih =>
    have hhead : wipePTE ({ k with prp } : Kernel) e.2 = (wipePTE k e.2).map fun k => { k with prp } := by
      unfold wipePTE freeFrame
      split
      · show (k.pmm.freeFrame _ >>= _) = Except.map _ (k.pmm.freeFrame _ >>= _)
        cases k.pmm.freeFrame (e.2.ppn * BitVec.ofNat 32 KERNEL_PAGE_SIZE) with
        | error why => rfl
        | ok pmm => rfl
      · rfl
    rw [List.foldlM_cons, List.foldlM_cons, hhead]
    cases wipePTE k e.2 with
    | error why => rfl
    | ok k₁ => exact ih k₁

/-- So it keeps the pool with any queue that has held it. -/
theorem wipeMemory_pool {queue : List Nat} {pid : Pid} {pmm : PhysicalMemoryManager} (hpool : PoolOk k.pmm queue)
    (htracked : k.Tracked) (h : k.wipeMemory pid = .ok { k with pmm }) : PoolOk pmm queue := by
  have hk : ({ k with prp := ⟨queue⟩ } : Kernel).Pooled := ⟨hpool, htracked.frame⟩
  obtain ⟨pmm', hwipe, hpooled⟩ := wipeMemory_pooled hk pid
  have hsame := wipe_prp ⟨queue⟩ (k.processList pid).pageTable.toList k
  have heq : Except.map (fun k => { k with prp := ⟨queue⟩ }) (k.wipeMemory pid) = .ok
      ({ k with prp := ⟨queue⟩, pmm := pmm' } : Kernel) := hsame.symm.trans hwipe
  rw [h] at heq
  have hpmm : pmm = pmm' := congrArg Kernel.pmm (Except.ok.inj heq)
  rw [hpmm]
  exact hpooled.pool

/-- The invariant in the form that serving a fault needs. -/
theorem Pooled.retriable (hk : k.Pooled) (htracked : k.Tracked) : k.Retriable :=
  ⟨htracked.owners, hk.pool.covered, hk.pool.queued⟩

theorem step_pooled {e : Kernel.Event} (hk : k.Pooled) (htracked : k.Tracked) (hsound : k.threads.Sound)
    (h : Step k e k') : k'.Pooled := by
  have hframes := step_frames hsound h
  have htracked' := hframes.tracked htracked
  by_cases hserved : ∃ t addr, e = .fault t addr true
  · obtain ⟨t, addr, rfl⟩ := hserved
    obtain ⟨k₁, regs, pc, hquiet, hserve⟩ := step_served h
    have hpmm : k₁.pmm = k.pmm := hquiet.field Kernel.pmm fun _ => rfl
    have hprp : k₁.prp = k.prp := hquiet.field Kernel.prp fun _ => rfl
    have hk₁ := (hk.retriable htracked).congr hpmm hprp hquiet.core
    rcases servePageFault_brings hk₁ (k.thread t).parent addr with herror | ⟨k₂, hno⟩ | ⟨k₂, hyes, hbrings⟩
    · cases herror.symm.trans hserve
    · cases hno.symm.trans hserve
    · cases hyes.symm.trans hserve
      exact ⟨hbrings.retriable.pool, htracked'.frame⟩
  · have hprp := step_prp htracked h fun t addr he => hserved ⟨t, addr, he⟩
    cases hframes with
    | same hsame => exact hk.congr hsame.pmm hprp htracked'
    | serve _ _ _ => exact absurd ⟨_, _, rfl⟩ hserved
    | kill _ hsame hkill hsame' =>
      refine ⟨?_, htracked'.frame⟩
      rw [hprp, hsame'.pmm]
      rcases terminate_cases hkill with ⟨-, -, rfl⟩ | ⟨-, -, pmm, hwipe, rfl⟩
      · rw [hsame.pmm]
        exact hk.pool
      · exact wipeMemory_pool (hsame.pmm ▸ hk.pool) (hsame.tracked htracked) hwipe
    | load hsame hload hsame' =>
      refine ⟨?_, htracked'.frame⟩
      rw [hprp, hsame'.pmm]
      rcases Loader.loadELF_cases hload with ⟨-, rfl⟩ | ⟨file, pid, pmm, segments, -, -, -, hwipe, hcase⟩
      · rw [hsame.pmm]
        exact hk.pool
      · have hpool := wipeMemory_pool (hsame.pmm ▸ hk.pool) (hsame.tracked htracked) hwipe
        rcases hcase with ⟨-, rfl⟩ | ⟨-, rfl⟩
        · exact hpool
        · exact hpool

/-! ### Every run -/

theorem loadApplications_pool {filenames : List Name} (hpool : PoolOk k.pmm k.prp.queue)
    (htracked : k.Tracked) (h : k.loadApplications filenames = .ok k') : PoolOk k'.pmm k'.prp.queue := by
  induction filenames generalizing k with
  | nil =>
    cases h
    exact hpool
  | cons filename rest ih =>
    obtain ⟨⟨pid, k₁⟩, hload, h⟩ := bind_eq_ok.1 h
    dsimp only at h
    split_ifs at h
    refine ih ?_ (loadELF_tracked htracked hload) h
    rw [SyscallHandler.loadELF_prp hload]
    rcases Loader.loadELF_cases hload with ⟨-, rfl⟩ | ⟨file, pid, pmm, segments, -, -, -, hwipe, hcase⟩
    · exact hpool
    · have hpool' := wipeMemory_pool hpool htracked hwipe
      rcases hcase with ⟨-, rfl⟩ | ⟨-, rfl⟩
      · exact hpool'
      · exact hpool'

theorem boot_pooled {host : Host} {filenames : List Name} (h : boot host filenames = .ok k) : k.Pooled := by
  refine ⟨?_, (boot_tracked h).frame⟩
  obtain ⟨k₁, hload, h⟩ := bind_eq_ok.1 h
  split_ifs at h
  cases h
  have hinit : (init host).Tracked := ⟨(init_framesOk host).owners, nofun⟩
  have hpool := loadApplications_pool (init_pooled host).pool hinit hload
  have hpmm := field_of_unthreaded Kernel.pmm
    (preempt_unthreaded { k₁ with cpu := { k₁.cpu with vmEnabled := true } }) fun _ => rfl
  have hprp := field_of_unthreaded Kernel.prp
    (preempt_unthreaded { k₁ with cpu := { k₁.cpu with vmEnabled := true } }) fun _ => rfl
  rw [hpmm, hprp]
  exact hpool

theorem reachable_pooled (h : k.Reachable) : k.Pooled := by
  obtain ⟨host, filenames, k₀, es, hboot, hrun⟩ := h
  have hboth : Reachable k ∧ k.Pooled := by
    refine hrun.invariant (fun k => Reachable k ∧ k.Pooled)
      ⟨⟨host, filenames, k₀, [], hboot, .nil⟩, boot_pooled hboot⟩ ?_
    rintro k e k' ⟨hreach, hk⟩ hstep
    exact ⟨hreach.snoc hstep, step_pooled hk (reachable_tracked hreach) (reachable_sound hreach) hstep⟩
  exact hboth.2

/-- In every reachable state, also one in which a frame is free twice or free and mapped. -/
theorem reachable_retriable (h : k.Reachable) : k.Retriable :=
  (reachable_pooled h).retriable (reachable_tracked h)

end Kernel

end Rv32umos
