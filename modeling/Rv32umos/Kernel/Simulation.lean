import Rv32umos.Kernel.Threads
import Rv32umos.Kernel.Quiet
import Rv32umos.Kernel.Unpaged

/-!
# The kernel refines the threads

Every step of the kernel is a step of `Threads` on the projections (`step_threads`), hence every run
is a run (`run_threads`). The lemmas on the way say what each function of the kernel does to the
projection: nothing, for memory and paging, and the operation of the same name elsewhere.
-/

namespace Rv32umos

open SyscallHandler (suspend mutexError)

namespace Kernel

variable {k k' : Kernel} {self : TRef}

/-! ### What the threads do not see -/

theorem Quiet.threads (h : Quiet k k') (hfault : k.cpu.fault = false) : k'.threads = k.threads := by
  have hrest : k'.stripped.threads = k.stripped.threads := congrArg Kernel.threads h.rest
  have hback : ∀ k : Kernel, k.cpu.fault = false → k.threads = k.stripped.threads := by
    intro k hk
    unfold Kernel.threads
    rw [hk]
    rfl
  rw [hback k hfault, hback k' (h.fault hfault), hrest]

theorem threads_of_unpaged (h : k'.unpaged = k.unpaged) : k'.threads = k.threads := by
  have hthreads := congrArg Kernel.threads h
  exact hthreads

/-! ### Operations -/

theorem modifyProcess_threads (k : Kernel) (pid : Pid) (f : Process → Process) :
    (k.modifyProcess pid f).threads =
      { k.threads with
        active := Function.update k.threads.active pid (f (k.processList pid)).active
        members := Function.update k.threads.members pid (f (k.processList pid)).threads
        mutexes := Function.update k.threads.mutexes pid (f (k.processList pid)).mutexList } := by
  have hfield : ∀ {α : Type} (field : Process → α),
      (fun pid' => field ((k.modifyProcess pid f).processList pid')) =
        Function.update (fun pid' => field (k.processList pid')) pid (field (f (k.processList pid))) :=
    fun field => Function.comp_update field k.processList pid (f (k.processList pid))
  unfold threads
  dsimp only
  rw [hfield Process.active, hfield Process.threads, hfield Process.mutexList]
  rfl

theorem setMutex_threads (k : Kernel) (pid : Pid) (id : Nat) (m : Mutex) :
    (k.setMutex pid id m).threads = k.threads.setMutex pid id m := by
  unfold setMutex
  rw [modifyProcess_threads]
  dsimp only
  rw [show (k.processList pid).active = k.threads.active pid from rfl, Function.update_eq_self,
    show (k.processList pid).threads = k.threads.members pid from rfl, Function.update_eq_self]
  rfl

theorem createMutex_threads (k : Kernel) (pid : Pid) :
    (k.createMutex pid).2.threads =
      k.threads.setMutexes pid (k.threads.mutexes pid ++ [({} : Mutex)]) := by
  unfold createMutex
  dsimp only
  rw [modifyProcess_threads]
  dsimp only
  rw [show (k.processList pid).active = k.threads.active pid from rfl, Function.update_eq_self,
    show (k.processList pid).threads = k.threads.members pid from rfl, Function.update_eq_self]
  rfl

theorem setState_threads (k : Kernel) (ts : List TRef) (state : ThreadState) :
    (ts.foldl (fun k t => k.setState t state) k).threads =
      { k.threads with thread := statesSet k.thread ts state } := by
  rw [setStates_eq]
  rfl

theorem terminated_threads (k : Kernel) (pid : Pid) (exitCode : Word)
    (pmm : PhysicalMemoryManager) :
    (k.terminated pid exitCode pmm).threads = k.threads.terminate pid exitCode := by
  unfold terminated
  rw [modifyProcess_threads]
  dsimp only
  refine congrArg₂ (fun members mutexes => { k.threads.terminate pid exitCode with members, mutexes })
    ?_ ?_
  · exact Function.update_eq_self pid k.threads.members
  · exact Function.update_eq_self pid k.threads.mutexes

theorem withThread_threads (k : Kernel) (pid : Pid) (entry : Addr) (arg : Word) :
    (k.withThread pid (k.newThread pid entry arg)).threads =
      k.threads.spawn pid entry (k.processList pid).nextStackBase arg := by
  unfold withThread
  rw [modifyProcess_threads]
  dsimp only
  refine congrArg₂ (fun active mutexes =>
    { k.threads.spawn pid entry (k.processList pid).nextStackBase arg with active, mutexes }) ?_ ?_
  · exact Function.update_eq_self pid k.threads.active
  · exact Function.update_eq_self pid k.threads.mutexes

theorem freshSlot_threads (k : Kernel) (pid : Pid) (name : Name) (segments : List Segment)
    (pmm : PhysicalMemoryManager) :
    (Loader.freshSlot k pid name segments pmm).threads = k.threads.recycle pid true := by
  unfold Loader.freshSlot
  rw [modifyProcess_threads]
  rfl

theorem deactivated_threads (k : Kernel) (pid : Pid) (name : Name) (segments : List Segment)
    (pmm : PhysicalMemoryManager) :
    ((Loader.freshSlot k pid name segments pmm).modifyProcess pid fun p =>
      { p with active := false }).threads = k.threads.recycle pid false := by
  rw [modifyProcess_threads, freshSlot_threads]
  dsimp only [Threads.recycle]
  rw [Function.update_idem, Loader.freshSlot, modifyProcess_self]
  dsimp only [Loader.freshProcess]
  rw [Function.update_idem, Function.update_idem]

theorem contextSwitch_threads {t : TRef} (hother : k.currentThreadIndex ≠ some t) :
    (k.contextSwitch t).threads = k.threads.switch t := by
  have hsaved : k.savedThread t = k.thread t := if_neg fun h => hother h.1
  rw [contextSwitch_eq, hsaved]
  rfl

theorem deliver_threads (k : Kernel) (r : SyscallResult) :
    (k.deliver r).threads = k.threads.deliver r := by
  unfold deliver Threads.deliver
  split <;> split <;> rfl

/-- Loading a file: the outcomes of `SYS_CREATE_PROCESS`. -/
theorem loadELF_threads {filename : Name} {created : Option Pid}
    (h : Loader.loadELF k filename = .ok (created, k')) :
    (created = none ∧ k' = k) ∨
    ∃ pid, k.threads.active pid = false ∧
      ((created = none ∧ k'.threads = k.threads.recycle pid false) ∨
      (created = some pid ∧ ∃ entry stack,
        k'.threads = (k.threads.recycle pid true).spawn pid entry stack 0)) := by
  rcases Loader.loadELF_cases h with
    hnone | ⟨file, pid, pmm, segments, -, -, hslot, -, hcase⟩
  · exact .inl hnone
  · refine .inr ⟨pid, Loader.freeSlot_inactive hslot, ?_⟩
    rcases hcase with ⟨hcreated, rfl⟩ | ⟨hcreated, rfl⟩
    · exact .inl ⟨hcreated, deactivated_threads _ _ _ _ _⟩
    · refine .inr ⟨hcreated, Loader.entry file,
        ((Loader.freshSlot k pid filename segments pmm).processList pid).nextStackBase, ?_⟩
      rw [withThread_threads, freshSlot_threads]

end Kernel

/-! ### System calls -/

namespace SyscallHandler

open Kernel

variable {k k' : Kernel} {self : TRef} {ctx : SyscallContext} {r : SyscallResult}

/-- A system call that moves data: the threads stay, and the result is a value. -/
theorem data_call (hfault : k.cpu.fault = false) (hid : ctx.id.toNat ∈ Threads.dataCalls)
    (hquiet : Quiet k k') (hr : ∃ v, r = { returnValue := v }) :
    k.threads.Call self ctx r k'.threads := by
  obtain ⟨v, rfl⟩ := hr
  rw [hquiet.threads hfault]
  exact .data hid

theorem handleWrite_value (h : handleWrite k ctx = .ok (r, k')) : ∃ v, r = { returnValue := v } := by
  obtain ⟨current, -, h⟩ := bind_eq_ok.1 h
  dsimp only at h
  split at h
  · cases h
    exact ⟨_, rfl⟩
  · obtain ⟨⟨buffer, k₁⟩, -, h⟩ := bind_eq_ok.1 h
    cases h
    exact ⟨_, rfl⟩

theorem handleRead_value (h : handleRead k ctx = .ok (r, k')) : ∃ v, r = { returnValue := v } := by
  obtain ⟨current, -, h⟩ := bind_eq_ok.1 h
  dsimp only at h
  split at h
  · cases h
    exact ⟨_, rfl⟩
  · split_ifs at h
    · obtain ⟨k₁, -, h⟩ := bind_eq_ok.1 h
      cases h
      exact ⟨_, rfl⟩
    · cases h
      exact ⟨_, rfl⟩

theorem handleOpen_value (h : handleOpen k ctx = .ok (r, k')) : ∃ v, r = { returnValue := v } := by
  obtain ⟨⟨filename, k₁⟩, -, h⟩ := bind_eq_ok.1 h
  dsimp only at h
  split at h
  · cases h
    exact ⟨_, rfl⟩
  · obtain ⟨current, -, h⟩ := bind_eq_ok.1 h
    split at h <;> cases h <;> exact ⟨_, rfl⟩

theorem handleClose_value (h : handleClose k ctx = .ok (r, k')) : ∃ v, r = { returnValue := v } := by
  obtain ⟨current, -, h⟩ := bind_eq_ok.1 h
  cases h
  exact ⟨_, rfl⟩

theorem handleCreate_value (h : handleCreate k ctx = .ok (r, k')) :
    ∃ v, r = { returnValue := v } := by
  obtain ⟨⟨filename, k₁⟩, -, h⟩ := bind_eq_ok.1 h
  cases h
  exact ⟨_, rfl⟩

theorem handleSbrk_value (h : handleSbrk k ctx = .ok (r, k')) : ∃ v, r = { returnValue := v } := by
  obtain ⟨current, -, h⟩ := bind_eq_ok.1 h
  cases h
  exact ⟨_, rfl⟩

theorem handleThreadCreate_call (hself : k.getCurrentThread = .ok self)
    (hid : ctx.id.toNat = SyscallID.SYS_THREAD_CREATE) (h : handleThreadCreate k ctx = .ok (r, k')) :
    k.threads.Call self ctx r k'.threads := by
  obtain ⟨current, hcurrent, h⟩ := bind_eq_ok.1 h
  cases hself.symm.trans hcurrent
  split at h
  · rename_i k₁ hcreate
    cases h
    rcases createThread_cases hcreate with ⟨-, rfl⟩ | ⟨-, hnone, -⟩
    · exact .threadRefused hid
    · cases hnone
  · rename_i t k₁ hcreate
    rcases createThread_cases hcreate with ⟨hnone, -⟩ | ⟨hroom, ht, hk₁⟩
    · cases hnone
    · cases ht
      cases h
      rw [hk₁, withThread_threads]
      have htid : ((k.withThread (k.thread self).parent
          (k.newThread (k.thread self).parent ctx.arg0 ctx.arg1)).thread k.numThreads).tid =
          (k.processList (k.thread self).parent).threads.length := by
        have hthread : (k.withThread (k.thread self).parent
            (k.newThread (k.thread self).parent ctx.arg0 ctx.arg1)).thread k.numThreads = _ :=
          Function.update_self _ _ _
        rw [hthread]
        rfl
      rw [htid]
      exact .threadCreate hid hroom

theorem handleThreadExit_call (hself : k.getCurrentThread = .ok self)
    (hid : ctx.id.toNat = SyscallID.SYS_THREAD_EXIT) (h : handleThreadExit k ctx = .ok (r, k')) :
    k.threads.Call self ctx r k'.threads := by
  obtain ⟨current, hcurrent, h⟩ := bind_eq_ok.1 h
  cases hself.symm.trans hcurrent
  dsimp only at h
  rw [modifyThread_self] at h
  have hexit : r = suspend ∧ k'.threads = k.threads.threadExit self ctx.arg0 := by
    unfold Threads.threadExit
    rw [show (k.threads.thread self).joiner = (k.thread self).joiner from rfl]
    split at h
    · rename_i hnone
      cases h
      rw [show (k.thread self).joiner = none from hnone]
      exact ⟨rfl, rfl⟩
    · rename_i joiner hsome
      cases h
      rw [show (k.thread self).joiner = some joiner from hsome]
      exact ⟨rfl, rfl⟩
  rw [hexit.1, hexit.2]
  exact .threadExit hid

theorem handleThreadJoin_call (hself : k.getCurrentThread = .ok self)
    (hid : ctx.id.toNat = SyscallID.SYS_THREAD_JOIN) (h : handleThreadJoin k ctx = .ok (r, k')) :
    k.threads.Call self ctx r k'.threads := by
  obtain ⟨current, hcurrent, h⟩ := bind_eq_ok.1 h
  cases hself.symm.trans hcurrent
  dsimp only at h
  split at h
  · rename_i hnone
    cases h
    refine .joinRefused hid fun t hjoins => ?_
    have hsome : _ = some t := hjoins.1
    unfold Threads.target at hsome
    exact absurd (hnone.symm.trans hsome) nofun
  · rename_i t ht
    have htarget : k.threads.target self ctx = some t := ht
    by_cases htid : (k.thread t).tid = (k.thread self).tid
    · rw [if_pos htid] at h
      cases h
      refine .joinRefused hid fun t' hjoins => hjoins.2.1 ?_
      cases htarget.symm.trans hjoins.1
      exact htid
    · rw [if_neg htid] at h
      by_cases hjoined : (k.thread t).hasBeenJoined = true
      · rw [if_pos hjoined] at h
        cases h
        refine .joinRefused hid fun t' hjoins => ?_
        cases htarget.symm.trans hjoins.1
        exact absurd (hjoins.2.2.symm.trans hjoined) nofun
      · rw [if_neg hjoined, modifyThread_self] at h
        have hjoins : k.threads.Joins self ctx t := ⟨htarget, htid, Bool.eq_false_of_not_eq_true hjoined⟩
        split_ifs at h with hstate
        · cases h
          exact .joinEnded hid hjoins hstate
        · cases h
          exact .joinBlocks hid hjoins hstate

theorem handleMutexCreate_call (hself : k.getCurrentThread = .ok self)
    (hid : ctx.id.toNat = SyscallID.SYS_MUTEX_CREATE) (h : handleMutexCreate k ctx = .ok (r, k')) :
    k.threads.Call self ctx r k'.threads := by
  obtain ⟨current, hcurrent, h⟩ := bind_eq_ok.1 h
  cases hself.symm.trans hcurrent
  cases h
  show k.threads.Call self ctx _ (k.createMutex (k.thread self).parent).2.threads
  rw [createMutex_threads]
  exact .mutexCreate hid

/-- The mutex that a call names, in the kernel and in its projection. -/
theorem getMutex_names {id : Nat} {m : Mutex} :
    k.getMutex (k.thread self).parent ctx.arg0.toInt = some (id, m) ↔ k.threads.Names self ctx id m := by
  unfold getMutex Threads.Names
  show _ ↔ _ ∧ (k.processList (k.thread self).parent).mutexList[id]? = some m
  split_ifs with hneg
  · exact ⟨nofun, fun h => by omega⟩
  · rw [Option.map_eq_some_iff]
    constructor
    · rintro ⟨m', hm', heq⟩
      cases heq
      exact ⟨by omega, hm'⟩
    · rintro ⟨hid, hm⟩
      have hnat : ctx.arg0.toInt.toNat = id := by omega
      exact ⟨m, hnat ▸ hm, by rw [hnat]⟩

theorem handleMutexLock_call (hself : k.getCurrentThread = .ok self)
    (hid : ctx.id.toNat = SyscallID.SYS_MUTEX_LOCK) (h : handleMutexLock k ctx = .ok (r, k')) :
    k.threads.Call self ctx r k'.threads ∨
    (r = mutexError ∧ k' = k ∧ k.threads.BadMutex self ctx) := by
  obtain ⟨current, hcurrent, h⟩ := bind_eq_ok.1 h
  cases hself.symm.trans hcurrent
  dsimp only at h
  split at h
  · rename_i hnone
    cases h
    refine .inr ⟨rfl, rfl, .inl ⟨.inl hid, fun id m hm => ?_⟩⟩
    rw [getMutex_names.2 hm] at hnone
    cases hnone
  · rename_i id lock hlock
    have hnames := getMutex_names.1 hlock
    unfold acquire at h
    cases hlocked : lock.locked with
    | true =>
      rw [if_pos hlocked] at h
      cases h
      rw [setMutex_threads]
      exact .inl (.lockBlocks hid hnames hlocked)
    | false =>
      rw [if_neg (by rw [hlocked]; exact Bool.false_ne_true)] at h
      cases h
      rw [setMutex_threads]
      exact .inl (.lock hid hnames hlocked)

theorem handleMutexUnlock_call (hself : k.getCurrentThread = .ok self)
    (hid : ctx.id.toNat = SyscallID.SYS_MUTEX_UNLOCK) (h : handleMutexUnlock k ctx = .ok (r, k')) :
    k.threads.Call self ctx r k'.threads ∨
    (r = mutexError ∧ k' = k ∧ k.threads.BadMutex self ctx) := by
  obtain ⟨current, hcurrent, h⟩ := bind_eq_ok.1 h
  cases hself.symm.trans hcurrent
  dsimp only at h
  split at h
  · rename_i hnone
    cases h
    refine .inr ⟨rfl, rfl, .inl ⟨.inr hid, fun id m hm => ?_⟩⟩
    rw [getMutex_names.2 hm] at hnone
    cases hnone
  · rename_i id lock hlock
    have hnames := getMutex_names.1 hlock
    unfold release at h
    by_cases howner : lock.owner = some self
    · rw [if_neg (fun hne => hne howner)] at h
      cases h
      rw [setMutex_threads, setState_threads]
      exact .inl (.unlock hid hnames howner)
    · rw [if_pos howner] at h
      cases h
      exact .inr ⟨rfl, rfl, .inr ⟨hid, id, lock, hnames, howner⟩⟩

theorem handleExit_call (hself : k.getCurrentThread = .ok self)
    (hid : ctx.id.toNat = SyscallID.SYS_EXIT) (h : handleExit k ctx = .ok (r, k')) :
    k.threads.Call self ctx r k'.threads := by
  obtain ⟨current, hcurrent, h⟩ := bind_eq_ok.1 h
  cases hself.symm.trans hcurrent
  obtain ⟨⟨ok, k₁⟩, hterminate, h⟩ := bind_eq_ok.1 h
  dsimp only at h
  split_ifs at h with hok
  cases h
  rcases terminate_cases hterminate with ⟨rfl, -⟩ | ⟨-, hactive, pmm, -, rfl⟩
  · exact absurd rfl hok
  · rw [terminated_threads]
    exact .processExit hid hactive

theorem handleCreateProcess_call (hfault : k.cpu.fault = false)
    (hid : ctx.id.toNat = SyscallID.SYS_CREATE_PROCESS)
    (h : handleCreateProcess k ctx = .ok (r, k')) : k.threads.Call self ctx r k'.threads := by
  obtain ⟨⟨filename, k₁⟩, hread, hrest⟩ := bind_eq_ok.1 h
  obtain ⟨⟨created, k₂⟩, hload, hresult⟩ := bind_eq_ok.1 hrest
  have hthreads := (readFilename_quiet hread).threads hfault
  rcases loadELF_threads hload with ⟨rfl, rfl⟩ | ⟨pid, hslot, hcase⟩
  · cases hresult
    rw [hthreads]
    exact .processRefused hid
  · rw [hthreads] at hslot hcase
    rcases hcase with ⟨rfl, hk₂⟩ | ⟨rfl, entry, stack, hk₂⟩
    · cases hresult
      rw [hk₂]
      exact .loadFailed hid hslot
    · cases hresult
      rw [hk₂]
      exact .load hid hslot

theorem handleJoinProcess_call (hfault : k.cpu.fault = false) (hself : k.getCurrentThread = .ok self)
    (hid : ctx.id.toNat = SyscallID.SYS_JOIN_PROCESS) (h : handleJoinProcess k ctx = .ok (r, k')) :
    k.threads.Call self ctx r k'.threads := by
  rcases handleJoinProcess_cases h with ⟨rfl, rfl⟩ |
    ⟨pid, exitCode, k₁, hpid, hcode, rfl, hquiet, rfl⟩ |
    ⟨pid, current, hpid, hcode, hactive, hcurrent, rfl, rfl⟩
  · exact .joinProcessRefused hid
  · have hthreads : ({ k₁ with
        exitCodes := Function.update k₁.exitCodes pid none } : Kernel).threads =
        k₁.threads.reap pid := rfl
    rw [hthreads, hquiet.threads hfault]
    exact .reap hid hpid hcode
  · cases hself.symm.trans hcurrent
    exact .await hid hpid hcode hactive

/-- Every system call is a `Call`, or an error in a mutex call. -/
theorem dispatch_call (hfault : k.cpu.fault = false) (hself : k.getCurrentThread = .ok self)
    (h : dispatch k ctx = .ok (r, k')) :
    k.threads.Call self ctx r k'.threads ∨
    (r = mutexError ∧ k' = k ∧ k.threads.BadMutex self ctx) := by
  have hdata : ∀ id ∈ Threads.dataCalls, ctx.id.toNat = id → ctx.id.toNat ∈ Threads.dataCalls :=
    fun id hid heq => heq ▸ hid
  unfold dispatch at h
  split at h
  · rename_i hid
    exact .inl (handleExit_call hself hid h)
  · rename_i hid
    exact .inl (data_call hfault (hdata _ (by decide) hid) (handleWrite_quiet h) (handleWrite_value h))
  · rename_i hid
    exact .inl (data_call hfault (hdata _ (by decide) hid) (handleRead_quiet h) (handleRead_value h))
  · rename_i hid
    exact .inl (handleThreadCreate_call hself hid h)
  · rename_i hid
    exact .inl (handleThreadExit_call hself hid h)
  · rename_i hid
    exact .inl (handleThreadJoin_call hself hid h)
  · rename_i hid
    exact .inl (handleMutexCreate_call hself hid h)
  · rename_i hid
    exact handleMutexLock_call hself hid h
  · rename_i hid
    exact handleMutexUnlock_call hself hid h
  · rename_i hid
    exact .inl (data_call hfault (hdata _ (by decide) hid) (handleOpen_quiet h) (handleOpen_value h))
  · rename_i hid
    exact .inl (data_call hfault (hdata _ (by decide) hid) (handleClose_quiet h) (handleClose_value h))
  · rename_i hid
    exact .inl
      (data_call hfault (hdata _ (by decide) hid) (handleCreate_quiet h) (handleCreate_value h))
  · rename_i hid
    exact .inl (data_call hfault (hdata _ (by decide) hid) (handleSbrk_quiet h) (handleSbrk_value h))
  · rename_i hid
    exact .inl (handleCreateProcess_call hfault hid h)
  · rename_i hid
    exact .inl (handleJoinProcess_call hfault hself hid h)
  · cases h

end SyscallHandler

/-! ### Steps -/

namespace Kernel

open Transition

variable {k k' : Kernel} {self : TRef}

/-- The handling of the trap finds the context of the instruction that trapped. -/
theorem trapped_threads {k₁ : Kernel} {cpu : Machine} (hfault : k.cpu.fault = false)
    (hk₁ : k₁ = k.incrementInstruction self) (hcpu : k₁.machine.step = .ok cpu)
    (htrap : cpu.hasTrap = true) : (k₁.withMachine cpu).clearTrap.threads = k.threads := by
  subst hk₁
  have hquiet := (Quiet.tick rfl hcpu).trans (clearTrap_quiet _)
  have hprecise := Machine.step_precise hcpu htrap
  rw [hprecise.1, hprecise.2] at hquiet
  exact hquiet.threads hfault

theorem handlePageFault_step {addr : Addr} {handled : Bool} (hself : k.threads.Running self)
    (h : k.handlePageFault addr = .ok (handled, k')) :
    k.threads.Step (.fault self addr handled) k'.threads := by
  obtain ⟨current, hcurrent, h⟩ := bind_eq_ok.1 h
  cases (getCurrentThread_eq.2 ⟨hself.1, hself.2.1⟩).symm.trans hcurrent
  obtain ⟨⟨served, k₁⟩, hserve, h⟩ := bind_eq_ok.1 h
  have hthreads := threads_of_unpaged (servePageFault_unpaged hserve)
  dsimp only at h
  split_ifs at h
  · obtain ⟨⟨killed, k₂⟩, hkill, h⟩ := bind_eq_ok.1 h
    dsimp only at h
    split_ifs at h with hkilled
    cases h
    rcases terminate_cases hkill with ⟨rfl, -⟩ | ⟨-, hactive, pmm, -, rfl⟩
    · exact absurd rfl hkilled
    · have hparent : (k₁.thread self).parent = k.threads.parent self :=
        congrArg (fun s : Threads => s.parent self) hthreads
      have hactive' : k.threads.active (k.threads.parent self) = true := by
        rw [← hthreads]
        exact hactive
      rw [terminated_threads, hthreads, hparent]
      exact .segfault hself addr hactive'
  · cases h
    rw [hthreads]
    exact .fault hself addr

theorem handleSyscall_step {id : Word} {ctx : SyscallContext} {r : SyscallResult}
    (hfault : k.cpu.fault = false) (hself : k.threads.Running self)
    (h : k.handleSyscall id = .ok (ctx, r, k')) :
    k.threads.Step (.syscall self ctx r) k'.threads := by
  obtain ⟨rfl, k₁, hdispatch, hcase⟩ := handleSyscall_cases h
  have hcurrent := getCurrentThread_eq.2 ⟨hself.1, hself.2.1⟩
  rcases SyscallHandler.dispatch_call hfault hcurrent hdispatch with hcall | ⟨rfl, rfl, hbad⟩
  · rcases hcase with ⟨-, rfl⟩ | ⟨herror, -⟩
    · rw [deliver_threads]
      exact .syscall hself ⟨rfl, rfl, rfl⟩ hcall
    · rw [hcall.error] at herror
      cases herror
  · rcases hcase with ⟨herror, -⟩ | ⟨-, current, hcurrent', hkill⟩
    · cases herror
    · have hthreads := deliver_threads k₁ mutexError
      have hidx : (k₁.deliver mutexError).currentThreadIndex = k₁.currentThreadIndex :=
        congrArg Threads.current hthreads
      have hthread : (k₁.deliver mutexError).thread = k₁.thread := congrArg Threads.thread hthreads
      obtain ⟨hcur, -⟩ := getCurrentThread_eq.1 hcurrent'
      cases (hcur.symm.trans hidx).trans hself.1
      rcases terminate_cases hkill with ⟨hfalse, -⟩ | ⟨-, hactive, pmm, -, rfl⟩
      · cases hfalse
      · rw [terminated_threads, hthreads, hthread]
        have hactive' : (k₁.deliver mutexError).threads.active
            ((k₁.deliver mutexError).thread self).parent = true := hactive
        rw [hthreads, hthread] at hactive'
        exact .badMutex hself ⟨rfl, rfl, rfl⟩ hbad hactive'

/-- A step of the kernel is a step of the threads, and leaves no fault pending. -/
theorem step_threads {e : Event} (hfault : k.cpu.fault = false) (h : Step k e k') :
    k.threads.Step e k'.threads := by
  cases h with
  | tick hrunning h =>
    obtain ⟨self, k₁, cpu, hself, hk₁, hcpu, hcase⟩ := tick_cases h
    obtain ⟨hidx, hlt⟩ := getCurrentThread_eq.1 hself
    have hrun : k.threads.Running self := by
      obtain ⟨t, ht, hlt, hstate⟩ := hrunning
      cases ht.symm.trans hidx
      exact ⟨hidx, hlt, hstate⟩
    rcases hcase with
      ⟨-, rfl, rfl⟩ | ⟨addr, handled, htrap, rfl, hserve⟩ | ⟨id, ctx, r, htrap, rfl, hcall⟩
    · have hthreads := (Quiet.tick hk₁ hcpu).threads hfault
      have huser : (k₁.withMachine cpu).advancePC.threads =
          { k.threads with regs := cpu.regs, pc := cpu.pc + 4 } :=
        congrArg (fun s : Threads => { s with pc := s.pc + 4 }) hthreads
      rw [huser]
      exact .user hrun _ _
    · have hthreads := trapped_threads hfault hk₁ hcpu (by rw [Machine.hasTrap, htrap]; rfl)
      have hrun' : (k₁.withMachine cpu).clearTrap.threads.Running self := by rwa [hthreads]
      have hstep := handlePageFault_step hrun' hserve
      rwa [hthreads] at hstep
    · have hthreads := trapped_threads hfault hk₁ hcpu (by rw [Machine.hasTrap, htrap]; rfl)
      have hrun' : (k₁.withMachine cpu).clearTrap.threads.Running self := by rwa [hthreads]
      have hstep := handleSyscall_step ((congrArg Threads.fault hthreads).trans hfault) hrun' hcall
      rwa [hthreads] at hstep
  | preempt =>
    rcases k.preempt_cases with heq | ⟨t, ht, hready, hother, heq⟩
    · rw [heq]
      exact .stay
    · rw [heq, contextSwitch_threads hother]
      exact .switch ht hready hother
  | rehash pid table hperm =>
    have hthreads : (k.modifyProcess pid fun p => { p with pageTable := table }).threads =
        k.threads := by
      rw [modifyProcess_threads]
      dsimp only
      rw [show (k.processList pid).active = k.threads.active pid from rfl,
        Function.update_eq_self, show (k.processList pid).threads = k.threads.members pid from rfl,
        Function.update_eq_self, show (k.processList pid).mutexList = k.threads.mutexes pid from rfl,
        Function.update_eq_self]
    rw [hthreads]
    exact .rehash pid

/-- A run of the kernel is a run of the threads, and what its steps say of the threads stays. -/
theorem run_threads {C : Threads → Event → Threads → Prop} {es : List Event}
    (hfault : k.cpu.fault = false)
    (h : Run (fun k e k' => Step k e k' ∧ C k.threads e k'.threads) k es k') :
    Run (fun s e s' => s.Step e s' ∧ C s e s') k.threads es k'.threads ∧ k'.cpu.fault = false := by
  induction h with
  | nil => exact ⟨.nil, hfault⟩
  | snoc _ hlast ih =>
    obtain ⟨hrun, hfault'⟩ := ih
    have hstep := step_threads hfault' hlast.1
    exact ⟨.snoc hrun ⟨hstep, hlast.2⟩, hstep.fault_eq.trans hfault'⟩

end Kernel

end Rv32umos
