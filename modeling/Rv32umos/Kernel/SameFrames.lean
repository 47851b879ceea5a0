import Rv32umos.Kernel.Quiet
import Rv32umos.Kernel.PagingFacts

/-!
# What leaves the frames alone

`SameFrames k k'`: the physical memory manager, the swap manager, the set of active processes, and
where every page is, are the same. User instructions and every system call keep them, except the ones that end or
load a process (`dispatch_frames`).
-/

namespace Rv32umos

namespace Kernel

structure SameFrames (k k' : Kernel) : Prop where
  pmm : k'.pmm = k.pmm
  swap : k'.swap = k.swap
  core : ∀ pid vpn, (k'.pte pid vpn).core = (k.pte pid vpn).core
  active : ∀ pid, (k'.processList pid).active = (k.processList pid).active
  files : k'.host.files = k.host.files

namespace SameFrames

variable {k k' k'' : Kernel}

theorem refl (k : Kernel) : SameFrames k k :=
  ⟨rfl, rfl, fun _ _ => rfl, fun _ => rfl, rfl⟩

theorem trans (h : SameFrames k k') (h' : SameFrames k' k'') : SameFrames k k'' where
  pmm := h'.pmm.trans h.pmm
  swap := h'.swap.trans h.swap
  core pid vpn := (h'.core pid vpn).trans (h.core pid vpn)
  active pid := (h'.active pid).trans (h.active pid)
  files := h'.files.trans h.files

theorem valid (h : SameFrames k k') (pid : Pid) (vpn : Addr) :
    (k'.pte pid vpn).valid = (k.pte pid vpn).valid := by
  have hvalid := congrArg PTE.valid (h.core pid vpn)
  exact hvalid

theorem ppn (h : SameFrames k k') (pid : Pid) (vpn : Addr) :
    (k'.pte pid vpn).ppn = (k.pte pid vpn).ppn := by
  have hppn := congrArg PTE.ppn (h.core pid vpn)
  exact hppn

theorem swapped (h : SameFrames k k') (pid : Pid) (vpn : Addr) :
    (k'.pte pid vpn).swapped = (k.pte pid vpn).swapped := by
  have hswapped := congrArg PTE.swapped (h.core pid vpn)
  exact hswapped

theorem pageFrame (h : SameFrames k k') : k'.pageFrame = k.pageFrame := by
  funext o
  rw [Kernel.pageFrame, Kernel.pageFrame, h.valid, h.ppn, h.active]

theorem framesOk (h : SameFrames k k') (hok : k.FramesOk) : k'.FramesOk := by
  rw [FramesOk, h.pmm, h.pageFrame]
  exact hok

theorem freeSlot (h : SameFrames k k') : Loader.freeSlot k' = Loader.freeSlot k := by
  unfold Loader.freeSlot
  simp only [h.active]

/-- A change outside the frames, the processes and the host's files. -/
theorem of_eq (hpmm : k'.pmm = k.pmm) (hswap : k'.swap = k.swap)
    (hprocs : k'.processList = k.processList) (hfiles : k'.host.files = k.host.files) :
    SameFrames k k' where
  pmm := hpmm
  swap := hswap
  core pid vpn := by rw [pte, pte, hprocs]
  active pid := by rw [hprocs]
  files := hfiles

/-- A change inside a process, outside its page table and its `active` flag. -/
theorem modifyProcess (k : Kernel) (pid : Pid) (f : Process → Process)
    (htable : ∀ p, (f p).pageTable = p.pageTable) (hactive : ∀ p, (f p).active = p.active) :
    SameFrames k (k.modifyProcess pid f) := by
  have hprocess : ∀ pid', ((k.modifyProcess pid f).processList pid').pageTable =
      (k.processList pid').pageTable ∧
      ((k.modifyProcess pid f).processList pid').active = (k.processList pid').active := by
    intro pid'
    by_cases hpid : pid' = pid
    · subst hpid
      rw [modifyProcess_self]
      exact ⟨htable _, hactive _⟩
    · rw [modifyProcess_ne k f hpid]
      exact ⟨rfl, rfl⟩
  refine ⟨rfl, rfl, fun pid' vpn => ?_, fun pid' => (hprocess pid').2, rfl⟩
  rw [pte, pte, (hprocess pid').1]

theorem of_quiet (h : Quiet k k') : SameFrames k k' where
  pmm := h.field Kernel.pmm fun _ => rfl
  swap := h.field Kernel.swap fun _ => rfl
  core := h.core
  active := h.active
  files := h.field (fun k : Kernel => k.host.files) fun _ => rfl

theorem setContext (k : Kernel) (regs : RegFile) (pc : Addr) :
    SameFrames k (k.setContext regs pc) := of_eq rfl rfl rfl rfl

theorem modifyThread (k : Kernel) (t : TRef) (f : Thread → Thread) :
    SameFrames k (k.modifyThread t f) := of_eq rfl rfl rfl rfl

theorem setStates (k : Kernel) (ts : List TRef) (state : ThreadState) :
    SameFrames k (ts.foldl (fun k t => k.setState t state) k) := by
  induction ts generalizing k with
  | nil => exact refl k
  | cons t ts ih => exact (modifyThread k t _).trans (ih _)

end SameFrames

end Kernel

/-! ### System calls -/

namespace SyscallHandler

open Kernel

variable {k k' : Kernel} {ctx : SyscallContext} {r : SyscallResult}

theorem createThread_frames {pid : Pid} {entry : Addr} {arg : Word} {t : Option TRef}
    (h : k.createThread pid entry arg = (t, k')) : SameFrames k k' := by
  unfold createThread at h
  dsimp only at h
  split_ifs at h <;> cases h
  · exact .refl k
  · exact .refl k
  all_goals
    exact (SameFrames.modifyThread k _ _).trans (.modifyProcess _ _ _ (fun _ => rfl) fun _ => rfl)

theorem activateThread_frames (k : Kernel) (t : TRef) : SameFrames k (k.activateThread t) :=
  .of_eq rfl rfl rfl rfl

theorem handleThreadJoin_frames (h : handleThreadJoin k ctx = .ok (r, k')) : SameFrames k k' := by
  obtain ⟨current, -, h⟩ := bind_eq_ok.1 h
  dsimp only at h
  split at h
  · cases h
    exact .refl k
  · split_ifs at h <;> cases h
    · exact .refl k
    · exact .refl k
    · exact .of_eq rfl rfl rfl rfl
    · exact .of_eq rfl rfl rfl rfl

theorem handleThreadExit_frames (h : handleThreadExit k ctx = .ok (r, k')) : SameFrames k k' := by
  obtain ⟨current, -, h⟩ := bind_eq_ok.1 h
  dsimp only at h
  split at h <;> cases h <;> exact .of_eq rfl rfl rfl rfl

theorem handleThreadCreate_frames (h : handleThreadCreate k ctx = .ok (r, k')) :
    SameFrames k k' := by
  obtain ⟨current, -, h⟩ := bind_eq_ok.1 h
  split at h
  · rename_i k₁ hcreate
    cases h
    exact createThread_frames hcreate
  · rename_i t k₁ hcreate
    cases h
    exact (createThread_frames hcreate).trans (activateThread_frames _ _)

theorem setMutex_frames (k : Kernel) (pid : Pid) (id : Nat) (m : Mutex) :
    SameFrames k (k.setMutex pid id m) := .modifyProcess k pid _ (fun _ => rfl) fun _ => rfl

theorem handleMutexCreate_frames (h : handleMutexCreate k ctx = .ok (r, k')) : SameFrames k k' := by
  obtain ⟨current, -, h⟩ := bind_eq_ok.1 h
  cases h
  exact .modifyProcess k _ _ (fun _ => rfl) fun _ => rfl

theorem acquire_frames (k : Kernel) (pid : Pid) (id : Nat) (m : Mutex) (t : TRef) :
    SameFrames k (k.acquire pid id m t).2 := by
  unfold acquire
  split
  · exact (SameFrames.modifyThread k t _).trans (setMutex_frames _ _ _ _)
  · exact setMutex_frames _ _ _ _

theorem release_frames (k : Kernel) (pid : Pid) (id : Nat) (m : Mutex) (t : TRef) :
    SameFrames k (k.release pid id m t).2 := by
  unfold release
  split
  · exact .refl k
  · exact (SameFrames.setStates k _ _).trans (setMutex_frames _ _ _ _)

theorem handleMutexLock_frames (h : handleMutexLock k ctx = .ok (r, k')) : SameFrames k k' := by
  obtain ⟨current, -, h⟩ := bind_eq_ok.1 h
  dsimp only at h
  split at h
  · cases h
    exact .refl k
  · rename_i id lock _
    have hacquire := acquire_frames k (k.thread current).parent id lock current
    split at h <;> cases h <;> simp_all only

theorem handleMutexUnlock_frames (h : handleMutexUnlock k ctx = .ok (r, k')) : SameFrames k k' := by
  obtain ⟨current, -, h⟩ := bind_eq_ok.1 h
  dsimp only at h
  split at h
  · cases h
    exact .refl k
  · rename_i id lock _
    have hrelease := release_frames k (k.thread current).parent id lock current
    split at h <;> cases h <;> simp_all only

theorem handleJoinProcess_frames (h : handleJoinProcess k ctx = .ok (r, k')) : SameFrames k k' := by
  rcases handleJoinProcess_cases h with ⟨-, rfl⟩ | ⟨pid, exitCode, k₁, -, -, -, hquiet, rfl⟩ |
    ⟨pid, current, -, -, -, -, -, rfl⟩
  · exact .refl k'
  · exact (SameFrames.of_quiet hquiet).trans (.of_eq rfl rfl rfl rfl)
  · exact .of_eq rfl rfl rfl rfl

/-- The two system calls that change who has what frame. -/
theorem dispatch_frames (h : dispatch k ctx = .ok (r, k')) :
    SameFrames k k' ∨
    (ctx.id.toNat = SyscallID.SYS_EXIT ∧ ∃ pid, k.terminate pid ctx.arg0 = .ok (true, k')) ∨
    (ctx.id.toNat = SyscallID.SYS_CREATE_PROCESS ∧ ∃ filename k₁ created,
      readFilename k ctx.arg0 = .ok (filename, k₁) ∧
      Loader.loadELF k₁ filename = .ok (created, k')) := by
  unfold dispatch at h
  split at h
  · rename_i hid
    obtain ⟨current, -, h⟩ := bind_eq_ok.1 h
    obtain ⟨⟨ok, k₁⟩, hterminate, h⟩ := bind_eq_ok.1 h
    dsimp only at h
    split_ifs at h with hok
    cases h
    exact .inr (.inl ⟨hid, _, by rw [hterminate]; simp_all⟩)
  · exact .inl (.of_quiet (handleWrite_quiet h))
  · exact .inl (.of_quiet (handleRead_quiet h))
  · exact .inl (handleThreadCreate_frames h)
  · exact .inl (handleThreadExit_frames h)
  · exact .inl (handleThreadJoin_frames h)
  · exact .inl (handleMutexCreate_frames h)
  · exact .inl (handleMutexLock_frames h)
  · exact .inl (handleMutexUnlock_frames h)
  · exact .inl (.of_quiet (handleOpen_quiet h))
  · exact .inl (.of_quiet (handleClose_quiet h))
  · exact .inl (.of_quiet (handleCreate_quiet h))
  · exact .inl (.of_quiet (handleSbrk_quiet h))
  · rename_i hid
    obtain ⟨⟨filename, k₁⟩, hread, h⟩ := bind_eq_ok.1 h
    obtain ⟨⟨created, k₂⟩, hload, h⟩ := bind_eq_ok.1 h
    refine .inr (.inr ⟨hid, filename, k₁, created, hread, ?_⟩)
    dsimp only at h
    split at h <;> cases h <;> exact hload
  · exact .inl (handleJoinProcess_frames h)
  · cases h

end SyscallHandler

end Rv32umos
