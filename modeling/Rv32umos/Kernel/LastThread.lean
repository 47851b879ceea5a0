import Rv32umos.Kernel.Ownership
import Rv32umos.Kernel.ThreadRun

/-!
# The last thread of a process

A process ends when one of its threads calls `SYS_EXIT` or is killed; `SYS_THREAD_EXIT` ends the
thread alone, whether or not another is left. As long as every thread that exits so leaves another
one alive, every active process has a thread that has not ended, and a process whose last threads
end is closed: inactive, its exit code cached, its frames free, the threads that wait for it READY
(`no_dead_active`). `dead_active` is a program whose only thread exits.
-/

namespace Rv32umos

open Kernel (Event)
open Transition

namespace Threads

variable {s s' : Threads} {e : Event} {pid : Pid} {t : TRef}

/-- Thread `t` belongs to process `pid` and has not ended. -/
def Alive (s : Threads) (pid : Pid) (t : TRef) : Prop :=
  t ∈ s.members pid ∧ s.state t ≠ .TERMINATED

def NoDeadActive (s : Threads) : Prop := ∀ pid, s.active pid = true → ∃ t, s.Alive pid t

/-- A thread that exits leaves another thread of its process alive. -/
def LeavesAnother (s : Threads) : Event → Prop
  | .syscall self ctx _ => ctx.id.toNat = SyscallID.SYS_THREAD_EXIT →
    s.active (s.parent self) = true → ∃ t, t ≠ self ∧ s.Alive (s.parent self) t
  | _ => True

theorem Step.stays_alive (h : s.Sound) (hstep : s.Step e s') (halive : s.Alive pid t)
    (hspared : ¬ s.Kills e pid)
    (hexit : ∀ ctx r, e = .syscall t ctx r → ctx.id.toNat ≠ SyscallID.SYS_THREAD_EXIT) :
    s'.state t ≠ .TERMINATED := by
  obtain ⟨hlt, rfl⟩ := h.rooted pid t halive.1
  intro hended
  rcases hstep.ends h hlt halive.2 hended with hkills | ⟨ctx, r, he, hid⟩
  · exact hspared hkills
  · exact hexit ctx r he hid

/-- A process that is not killed keeps a thread alive. -/
theorem Step.keeps_thread (h : s.Sound) (hstep : s.Step e s') (hleaves : s.LeavesAnother e)
    (hactive : s.active pid = true) (hspared : ¬ s.Kills e pid) (halive : s.Alive pid t) :
    ∃ u, s.Alive pid u ∧ s'.Alive pid u := by
  obtain ⟨-, hkeep⟩ := hstep.spared hactive hspared
  by_cases hexit : ∃ ctx r, e = .syscall t ctx r ∧ ctx.id.toNat = SyscallID.SYS_THREAD_EXIT
  · obtain ⟨ctx, r, rfl, hid⟩ := hexit
    have hparent : s.parent t = pid := (h.rooted pid t halive.1).2
    obtain ⟨u, hne, hu⟩ := hleaves hid (hparent ▸ hactive)
    rw [hparent] at hu
    refine ⟨u, hu, hkeep u hu.1, hstep.stays_alive h hu hspared ?_⟩
    rintro ctx' r' heq -
    cases heq
    exact hne rfl
  · refine ⟨t, halive, hkeep t halive.1, hstep.stays_alive h halive hspared ?_⟩
    exact fun ctx r he hid => hexit ⟨ctx, r, he, hid⟩

theorem Step.noDeadActive (h : s.Sound) (hstep : s.Step e s') (hleaves : s.LeavesAnother e)
    (hlive : s.NoDeadActive) : s'.NoDeadActive := by
  intro pid hactive'
  rcases hstep.active_cases hactive' with hactive | ⟨hmembers, hlt, -, -⟩
  · have hspared : ¬ s.Kills e pid := by
      intro hkills
      rw [(hstep.killed hkills).2.2.1, Function.update_self] at hactive'
      cases hactive'
    obtain ⟨t, halive⟩ := hlive pid hactive
    obtain ⟨u, -, hu⟩ := hstep.keeps_thread h hleaves hactive hspared halive
    exact ⟨u, hu⟩
  · refine ⟨s.numThreads, hmembers ▸ List.mem_singleton_self _, ?_⟩
    rw [hstep.state_new le_rfl hlt]
    nofun

/-- When all threads of a process have ended, the process has. -/
theorem Step.kills_of_ended (h : s.Sound) (hstep : s.Step e s') (hleaves : s.LeavesAnother e)
    (hlive : s.NoDeadActive) (hactive : s.active pid = true)
    (hended : ∀ t ∈ s.members pid, s'.state t = .TERMINATED) : s.Kills e pid := by
  by_contra hspared
  obtain ⟨t, halive⟩ := hlive pid hactive
  obtain ⟨u, hu, hu'⟩ := hstep.keeps_thread h hleaves hactive hspared halive
  exact hu'.2 (hended u hu.1)

theorem Fresh.noDeadActive (h : s.Fresh) (u : TRef) : (s.switch u).NoDeadActive := by
  intro pid hactive
  obtain ⟨t, ht⟩ := List.exists_mem_of_ne_nil _ (h.live pid hactive)
  refine ⟨t, ht, ?_⟩
  have hready := h.ready t (h.rooted pid t ht).1
  rw [state, thread_switch]
  split_ifs
  · intro hended
    cases hended
  · rcases saved_state s t with heq | ⟨-, heq⟩
    · rw [heq, hready]
      decide
    · rw [heq]
      decide

end Threads

namespace Kernel

open Threads

variable {k k' k₀ : Kernel} {e : Event} {es : List Event} {pid : Pid} {vpn : Addr}

/-! ### The frames of a process that ends -/

/-- The physical address of the frame that a page of a process is in. -/
def frameOf (k : Kernel) (pid : Pid) (vpn : Addr) : Addr :=
  (k.pte pid vpn).ppn * BitVec.ofNat 32 KERNEL_PAGE_SIZE

theorem wipePTE_frees {pte : PTE} (h : k.wipePTE pte = .ok k') :
    (pte.valid = true → pte.ppn * BitVec.ofNat 32 KERNEL_PAGE_SIZE ∈ k'.pmm.freeFrames) ∧
    ∀ frame ∈ k.pmm.freeFrames, frame ∈ k'.pmm.freeFrames := by
  unfold wipePTE at h
  split_ifs at h with hvalid
  · obtain ⟨pmm, hfree, h⟩ := bind_eq_ok.1 h
    cases h
    unfold PhysicalMemoryManager.freeFrame at hfree
    dsimp only at hfree
    split_ifs at hfree
    cases hfree
    exact ⟨fun _ => List.mem_cons_self, fun _ hmem => List.mem_cons_of_mem _ hmem⟩
  · cases h
    exact ⟨fun hv => absurd hv hvalid, fun _ hmem => hmem⟩

theorem wipeMemory_frees (h : k.wipeMemory pid = .ok k') (hvalid : (k.pte pid vpn).valid = true) :
    k.frameOf pid vpn ∈ k'.pmm.freeFrames := by
  have hmem : (vpn, k.pte pid vpn) ∈ (k.processList pid).pageTable.toList :=
    PageTable.mem_toList.2 (PageTable.find?_of_valid hvalid)
  unfold frameOf
  generalize k.pte pid vpn = pte at hmem hvalid
  unfold wipeMemory at h
  generalize (k.processList pid).pageTable.toList = l at h hmem
  have hgrows : ∀ (l : List (Addr × PTE)) (k : Kernel),
      l.foldlM (fun k e => k.wipePTE e.2) k = .ok k' →
      ∀ frame ∈ k.pmm.freeFrames, frame ∈ k'.pmm.freeFrames := by
    intro l
    induction l with
    | nil =>
      intro k h
      cases h
      exact fun _ hmem => hmem
    | cons head rest ih =>
      intro k h frame hframe
      rw [List.foldlM_cons] at h
      obtain ⟨k₁, hwipe, h⟩ := bind_eq_ok.1 h
      exact ih k₁ h frame ((wipePTE_frees hwipe).2 frame hframe)
  induction l generalizing k with
  | nil => cases hmem
  | cons head rest ih =>
    rw [List.foldlM_cons] at h
    obtain ⟨k₁, hwipe, hrest⟩ := bind_eq_ok.1 h
    rcases List.mem_cons.1 hmem with rfl | hmem
    · exact hgrows rest k₁ hrest _ ((wipePTE_frees hwipe).1 hvalid)
    · exact ih hrest hmem

theorem terminate_frees {exitCode : Word} (h : k.terminate pid exitCode = .ok (true, k'))
    (hvalid : (k.pte pid vpn).valid = true) : k.frameOf pid vpn ∈ k'.pmm.freeFrames := by
  rcases terminate_cases h with ⟨hfalse, -⟩ | ⟨-, -, pmm, hwipe, rfl⟩
  · cases hfalse
  · have hfree := wipeMemory_frees hwipe hvalid
    exact hfree

/-! A handler that does not apply changes nothing. -/

theorem handleSwapIn_refused (h : k.handleSwapIn pid vpn = .ok (false, k')) : k' = k := by
  unfold handleSwapIn at h
  dsimp only at h
  split_ifs at h
  · obtain ⟨k₁, -, h⟩ := bind_eq_ok.1 h
    cases h
  · cases h
    rfl

theorem handleStackGrowth_refused {addr : Addr}
    (h : k.handleStackGrowth pid addr vpn = .ok (false, k')) : k' = k := by
  unfold handleStackGrowth at h
  split_ifs at h
  · cases h
    rfl
  · obtain ⟨⟨paddr, k₁⟩, -, h⟩ := bind_eq_ok.1 h
    cases h
  · cases h
    rfl

theorem handleLazyLoading_refused {addr : Addr}
    (h : k.handleLazyLoading pid addr vpn = .ok (false, k')) : k' = k := by
  unfold handleLazyLoading at h
  split at h
  · cases h
    rfl
  · obtain ⟨⟨paddr, k₁⟩, -, h⟩ := bind_eq_ok.1 h
    obtain ⟨memory, -, h⟩ := bind_eq_ok.1 h
    cases h

theorem handleHeapGrowth_refused {addr : Addr}
    (h : k.handleHeapGrowth pid addr vpn = .ok (false, k')) : k' = k := by
  unfold handleHeapGrowth at h
  split_ifs at h
  · obtain ⟨⟨paddr, k₁⟩, -, h⟩ := bind_eq_ok.1 h
    obtain ⟨memory, -, h⟩ := bind_eq_ok.1 h
    cases h
  · cases h
    rfl

/-- A fault that is not handled only makes sure that there is an entry for the page. -/
theorem servePageFault_refused {addr : Addr} (h : k.servePageFault pid addr = .ok (false, k')) :
    k' = k.setPTE pid (addr >>> 12) (k.pte pid (addr >>> 12)) := by
  unfold servePageFault at h
  dsimp only at h
  generalize k.setPTE pid (addr >>> 12) (k.pte pid (addr >>> 12)) = k₀ at h ⊢
  split at h
  · cases h
    rfl
  · obtain ⟨⟨swapped, k₁⟩, hswap, hrest⟩ := bind_eq_ok.1 h
    cases swapped with
    | true => cases hrest
    | false =>
      obtain rfl := handleSwapIn_refused hswap
      obtain ⟨⟨grown, k₂⟩, hstack, hrest'⟩ := bind_eq_ok.1 hrest
      cases grown with
      | true => cases hrest'
      | false =>
        obtain rfl := handleStackGrowth_refused hstack
        obtain ⟨⟨loaded, k₃⟩, hload, hheap⟩ := bind_eq_ok.1 hrest'
        cases loaded with
        | true => cases hheap
        | false =>
          obtain rfl := handleLazyLoading_refused hload
          exact handleHeapGrowth_refused hheap

theorem setPTE_thread (k : Kernel) (pid : Pid) (vpn : Addr) (e : PTE) :
    (k.setPTE pid vpn e).thread = k.thread := rfl

theorem ensure_frames (k : Kernel) (pid : Pid) (vpn : Addr) :
    SameFrames k (k.setPTE pid vpn (k.pte pid vpn)) := by
  refine ⟨rfl, rfl, fun pid' vpn' => ?_, fun pid' => ?_, rfl⟩
  · rw [pte_ensure k (pid, vpn) (pid', vpn')]
  · exact active_of_unpaged (unpaged_setPTE _ _ _ _) _

theorem handlePageFault_killed {addr : Addr} {t : TRef} (hself : k.getCurrentThread = .ok t)
    (h : k.handlePageFault addr = .ok (false, k')) :
    ∃ k₁, k.servePageFault (k.thread t).parent addr = .ok (false, k₁) ∧
      k₁.terminate (k₁.thread t).parent (-1) = .ok (true, k') := by
  obtain ⟨current, hcurrent, h⟩ := bind_eq_ok.1 h
  cases hself.symm.trans hcurrent
  obtain ⟨⟨handled, k₁⟩, hserve, h⟩ := bind_eq_ok.1 h
  cases handled with
  | true => cases h
  | false =>
    obtain ⟨⟨killed, k₂⟩, hkill, h⟩ := bind_eq_ok.1 h
    cases killed with
    | true =>
      cases h
      exact ⟨k₁, hserve, hkill⟩
    | false => cases h

/-- A step that kills a process is its termination. -/
theorem step_terminates (hsound : k.threads.Sound) (h : Step k e k')
    (hkills : k.threads.Kills e pid) :
    ∃ k₁ exitCode k₂, SameFrames k k₁ ∧ k₁.terminate pid exitCode = .ok (true, k₂) ∧
      SameFrames k₂ k' := by
  obtain ⟨self, hkiller, rfl⟩ := hkills
  cases h with
  | preempt => cases hkiller
  | rehash => cases hkiller
  | tick hrunning htick =>
    obtain ⟨self', k₁, cpu, hself, hk₁, hcpu, hcase⟩ := tick_cases htick
    have hquiet : Quiet (k.setContext cpu.regs cpu.pc) (k₁.withMachine cpu).clearTrap :=
      (Quiet.tick hk₁ hcpu).trans (clearTrap_quiet _)
    have hsame : SameFrames k (k₁.withMachine cpu).clearTrap :=
      (SameFrames.setContext k _ _).trans (.of_quiet hquiet)
    have hself' : (k₁.withMachine cpu).clearTrap.getCurrentThread = .ok self' :=
      hquiet.getCurrentThread.trans hself
    have hparent : ∀ t, ((k₁.withMachine cpu).clearTrap.thread t).parent = k.threads.parent t :=
      fun t => by rw [hquiet.thread]; rfl
    have hfault : (k₁.withMachine cpu).clearTrap.cpu.fault = false := hquiet.fault hsound.fault
    generalize (k₁.withMachine cpu).clearTrap = k₁ at hcase hsame hself' hparent hfault
    rcases hcase with ⟨-, rfl, -⟩ | ⟨addr, handled, -, rfl, hpage⟩ | ⟨id, ctx, r, -, rfl, hsyscall⟩
    · cases hkiller
    · cases handled with
      | true => cases hkiller
      | false =>
        cases hkiller
        obtain ⟨k₂, hserve, hkill⟩ := handlePageFault_killed hself' hpage
        obtain rfl := servePageFault_refused hserve
        rw [setPTE_thread, hparent] at hkill
        exact ⟨_, -1, k', hsame.trans (ensure_frames _ _ _), hkill, .refl k'⟩
    · obtain ⟨rfl, hexit⟩ := killer_syscall.1 hkiller
      obtain ⟨-, k₂, hdispatch, ⟨hok, rfl⟩ | ⟨herror, current, hcurrent, hkill⟩⟩ :=
        handleSyscall_cases hsyscall
      · have hid : ctx.id.toNat = SyscallID.SYS_EXIT := by
          rw [hok] at hexit
          exact hexit.resolve_right Bool.false_ne_true
        have hhandler : SyscallHandler.handleExit k₁ ctx = .ok (r, k₂) := by
          unfold SyscallHandler.dispatch at hdispatch
          rw [hid] at hdispatch
          exact hdispatch
        obtain ⟨current, hcurrent, hhandler⟩ := bind_eq_ok.1 hhandler
        cases hself'.symm.trans hcurrent
        obtain ⟨⟨ok, k₃⟩, hkill, hhandler⟩ := bind_eq_ok.1 hhandler
        cases ok with
        | false => cases hhandler
        | true =>
          cases hhandler
          rw [hparent] at hkill
          exact ⟨k₁, ctx.arg0, k₂, hsame, hkill, deliver_frames _ _⟩
      · rcases SyscallHandler.dispatch_call hfault hself' hdispatch with hcall | ⟨rfl, rfl, -⟩
        · rw [hcall.error] at herror
          cases herror
        · have hdelivered := deliver_frames k₂ SyscallHandler.mutexError
          have hcur : (k₂.deliver SyscallHandler.mutexError).getCurrentThread = .ok self' := hself'
          cases hcur.symm.trans hcurrent
          have hkill' : (k₂.deliver SyscallHandler.mutexError).terminate
              (k₂.thread self').parent (-1) = .ok (true, k') := hkill
          rw [hparent] at hkill'
          exact ⟨_, -1, k', hsame.trans hdelivered, hkill', .refl k'⟩

/-! ### Every run -/

/-- Process `pid` has been closed by the event `e`. -/
structure Closed (k : Kernel) (e : Event) (k' : Kernel) (pid : Pid) : Prop where
  inactive : (k'.processList pid).active = false
  exitCode : k'.exitCodes pid = some e.exitCode
  frames : ∀ vpn, (k.pte pid vpn).valid = true → k.frameOf pid vpn ∈ k'.pmm.freeFrames
  waiters : ∀ t ∈ k.processWaiters pid, (k'.thread t).state = .READY

theorem step_closed (hsound : k.threads.Sound) (h : Step k e k') (hkills : k.threads.Kills e pid) :
    k.Closed e k' pid := by
  obtain ⟨-, hthread, hactive, -, hcodes, -⟩ := (step_threads hsound.fault h).killed hkills
  refine ⟨?_, ?_, fun vpn hvalid => ?_, fun t hmem => ?_⟩
  · have hinactive := congrFun hactive pid
    rw [Function.update_self] at hinactive
    exact hinactive
  · have hcode := congrFun hcodes pid
    rw [Function.update_self] at hcode
    exact hcode
  · obtain ⟨k₁, exitCode, k₂, hsame, hterminate, hsame'⟩ := step_terminates hsound h hkills
    have hfree := terminate_frees hterminate ((hsame.valid pid vpn).trans hvalid)
    unfold frameOf at hfree ⊢
    rw [hsame'.pmm, ← hsame.ppn]
    exact hfree
  · have hwoken := congrFun hthread t
    have hwaits : t ∈ k.threads.waiters pid := hmem
    rw [thread_terminate, if_pos hwaits] at hwoken
    have hstate : (k'.thread t).state = _ := congrArg Thread.state hwoken
    exact hstate

/-- **No dead process stays active.** In every run in which each thread that calls
`SYS_THREAD_EXIT` leaves another one of its process alive, every active process has a thread that has
not ended; and when the last thread of a process ends, the process is closed. -/
theorem no_dead_active {host : Host} {filenames : List Name} (hboot : boot host filenames = .ok k₀)
    (hrun : Run (Guarded Step fun k e => k.threads.LeavesAnother e) k₀ es k) :
    (∀ pid, (k.processList pid).active = true →
      ∃ t ∈ (k.processList pid).threads, (k.thread t).state ≠ .TERMINATED) ∧
    ∀ e k' pid, Step k e k' → k.threads.LeavesAnother e → (k.processList pid).active = true →
      (∀ t ∈ (k.processList pid).threads, (k'.thread t).state = .TERMINATED) →
      k.Closed e k' pid := by
  have hinv : k.threads.Sound ∧ k.threads.NoDeadActive := by
    obtain ⟨s, u, hfresh, henabled, hlt, heq⟩ := boot_threads hboot
    refine hrun.invariant (fun k => k.threads.Sound ∧ k.threads.NoDeadActive) ?_ ?_
    · rw [heq]
      exact ⟨hfresh.sound henabled hlt, hfresh.noDeadActive u⟩
    · rintro k e k' ⟨hsound, hlive⟩ ⟨hstep, hleaves⟩
      have hthreads := step_threads hsound.fault hstep
      exact ⟨hthreads.sound hsound, hthreads.noDeadActive hsound hleaves hlive⟩
  obtain ⟨hsound, hlive⟩ := hinv
  refine ⟨fun pid hactive => ?_, fun e k' pid hstep hleaves hactive hended => ?_⟩
  · obtain ⟨t, hmem, hstate⟩ := hlive pid hactive
    exact ⟨t, hmem, hstate⟩
  · have hthreads := step_threads hsound.fault hstep
    exact step_closed hsound hstep (hthreads.kills_of_ended hsound hleaves hlive hactive hended)

/-- The first of two programs is killed by its second fault: its only page goes back to the free
list. -/
theorem no_dead_active_segfault :
    ∃ k₀ k k', boot twoPrograms [[0x61], [0x62]] = .ok k₀ ∧ Step k₀ (.fault 0 84 true) k ∧
      Step k (.fault 0 0xFFFFFFFC false) k' ∧ k.Closed (.fault 0 0xFFFFFFFC false) k' 0 := by
  obtain ⟨k₀, k, k', hboot, hstep, hstep', -, ⟨-, hactive, hthreads, -⟩, hended⟩ := segfault_run
  refine ⟨k₀, k, k', hboot, hstep, hstep', ?_⟩
  refine (no_dead_active hboot (.snoc .nil ⟨hstep, trivial⟩)).2 _ k' 0 hstep' trivial hactive ?_
  intro t ht
  rw [hthreads, List.mem_singleton] at ht
  rw [ht]
  exact hended

/-- A program whose only thread calls `SYS_THREAD_EXIT`. -/
def threadExits : Host where
  files _ := some (elfFile [0x93, 0x08, 0x40, 0x00, 0x73, 0, 0, 0])
  console := { stdin := [], answers := [], written := [] }

theorem dead_active :
    ∃ k, simulate threadExits [[0x61]] 3 = .ok k ∧ k.Reachable ∧
      ¬ ∀ pid, (k.processList pid).active = true →
        ∃ t ∈ (k.processList pid).threads, (k.thread t).state ≠ .TERMINATED := by
  have hdec : returns (simulate threadExits [[0x61]] 3) (fun k =>
      decide ((k.processList 0).active = true ∧ (k.processList 0).threads = [0] ∧
        (k.thread 0).state = .TERMINATED)) = true := by decide +kernel
  obtain ⟨k, hk, hstate⟩ := returns_iff.1 hdec
  obtain ⟨hactive, hthreads, hended⟩ := of_decide_eq_true hstate
  refine ⟨k, hk, simulate_reachable hk, fun hlive => ?_⟩
  obtain ⟨t, hmem, hne⟩ := hlive 0 hactive
  rw [hthreads, List.mem_singleton] at hmem
  exact hne (hmem ▸ hended)

end Kernel

end Rv32umos
