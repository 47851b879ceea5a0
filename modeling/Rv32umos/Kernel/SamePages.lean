import Rv32umos.Kernel.Ownership
import Rv32umos.Kernel.UserAccess
import Rv32umos.Storage.Layout

/-!
# What leaves the memories of the processes alone

`SamePages k k'`: every page is where it was, with the same content, and the swap area holds what it held.
Only referenced bits of entries may differ. The operations on threads, mutexes and the break change nothing
that `unthreaded` keeps; loads and the file calls keep `SamePages` as long as no file reaches into the swap
area (`FilesOk`), which they keep as well.
-/

namespace Rv32umos

open SwapManager

/-- A process without its threads, its mutexes and its break. -/
def Process.unthreaded (p : Process) : Process :=
  { p with threads := [], mutexList := [], programBreak := 0, nextStackBase := 0, instructionsExecuted := 0 }

namespace Kernel

variable {k k' k'' : Kernel} {pid : Pid}

/-- The kernel with everything that the operations on threads work on blanked out. -/
def unthreaded (k : Kernel) : Kernel :=
  { k with
    cpu := (init k.host).cpu
    exitCodes := fun _ => none
    processWaiters := fun _ => []
    processList := fun pid => (k.processList pid).unthreaded
    thread := fun _ => .new 0 0 0 0
    numThreads := 0
    currentThreadIndex := none }

theorem modifyProcess_unthreaded (k : Kernel) (pid : Pid) {f : Process → Process}
    (hf : ∀ p, (f p).unthreaded = p.unthreaded) : (k.modifyProcess pid f).unthreaded = k.unthreaded := by
  have hprocess : ∀ pid', ((k.modifyProcess pid f).processList pid').unthreaded =
      (k.processList pid').unthreaded := by
    intro pid'
    by_cases hpid : pid' = pid
    · rw [hpid, modifyProcess_self, hf]
    · rw [modifyProcess_ne k f hpid]
  unfold unthreaded
  rw [funext hprocess]
  rfl

theorem setStates_unthreaded (k : Kernel) (ts : List TRef) (state : ThreadState) :
    (ts.foldl (fun k t => k.setState t state) k).unthreaded = k.unthreaded := by
  rw [setStates_eq]
  rfl

theorem setMutex_unthreaded (k : Kernel) (pid : Pid) (id : Nat) (m : Mutex) :
    (k.setMutex pid id m).unthreaded = k.unthreaded := modifyProcess_unthreaded k pid fun _ => rfl

theorem incrementInstruction_unthreaded (k : Kernel) (t : TRef) :
    (k.incrementInstruction t).unthreaded = k.unthreaded := modifyProcess_unthreaded k _ fun _ => rfl

theorem incrementInstruction_machine (k : Kernel) (t : TRef) :
    (k.incrementInstruction t).machine = k.machine := by
  have htable : ∀ pid, ((k.incrementInstruction t).processList pid).pageTable =
      (k.processList pid).pageTable := by
    intro pid
    by_cases hpid : pid = (k.thread t).parent
    · rw [hpid, incrementInstruction, modifyProcess_self]
    · rw [incrementInstruction, modifyProcess_ne k _ hpid]
  unfold machine
  rw [funext htable]
  rfl

theorem deliver_unthreaded (k : Kernel) (r : SyscallResult) : (k.deliver r).unthreaded = k.unthreaded := by
  unfold deliver
  split <;> split <;> rfl

theorem preempt_unthreaded (k : Kernel) : k.preempt.unthreaded = k.unthreaded := by
  rcases k.preempt_cases with h | ⟨t, -, -, -, h⟩
  · rw [h]
  · rw [h, contextSwitch_eq]
    rfl

end Kernel

namespace SyscallHandler

open Kernel

variable {k k' : Kernel} {ctx : SyscallContext} {r : SyscallResult}

theorem handleThreadJoin_unthreaded (h : handleThreadJoin k ctx = .ok (r, k')) :
    k'.unthreaded = k.unthreaded := by
  obtain ⟨current, -, h⟩ := bind_eq_ok.1 h
  dsimp only at h
  split at h
  · cases h
    rfl
  · split_ifs at h <;> cases h <;> rfl

theorem handleThreadExit_unthreaded (h : handleThreadExit k ctx = .ok (r, k')) :
    k'.unthreaded = k.unthreaded := by
  obtain ⟨current, -, h⟩ := bind_eq_ok.1 h
  dsimp only at h
  split at h <;> cases h <;> rfl

theorem handleThreadCreate_unthreaded (h : handleThreadCreate k ctx = .ok (r, k')) :
    k'.unthreaded = k.unthreaded := by
  obtain ⟨current, -, h⟩ := bind_eq_ok.1 h
  split at h
  · rename_i k₁ hcreate
    cases h
    rcases createThread_cases hcreate with ⟨-, rfl⟩ | ⟨-, ht, -⟩
    · rfl
    · cases ht
  · rename_i t k₁ hcreate
    cases h
    rcases createThread_cases hcreate with ⟨ht, -⟩ | ⟨-, ht, hk₁⟩
    · cases ht
    · cases ht
      rw [hk₁]
      exact modifyProcess_unthreaded _ _ fun _ => rfl

theorem handleMutexCreate_unthreaded (h : handleMutexCreate k ctx = .ok (r, k')) :
    k'.unthreaded = k.unthreaded := by
  obtain ⟨current, -, h⟩ := bind_eq_ok.1 h
  cases h
  exact modifyProcess_unthreaded k _ fun _ => rfl

theorem acquire_unthreaded (k : Kernel) (pid : Pid) (id : Nat) (m : Mutex) (t : TRef) :
    (k.acquire pid id m t).2.unthreaded = k.unthreaded := by
  unfold acquire
  split
  · exact setMutex_unthreaded (k.setState t .BLOCKED) pid id _
  · exact setMutex_unthreaded k pid id _

theorem release_unthreaded (k : Kernel) (pid : Pid) (id : Nat) (m : Mutex) (t : TRef) :
    (k.release pid id m t).2.unthreaded = k.unthreaded := by
  unfold release
  split
  · rfl
  · exact (setMutex_unthreaded _ pid id _).trans (setStates_unthreaded k _ _)

theorem handleMutexLock_unthreaded (h : handleMutexLock k ctx = .ok (r, k')) :
    k'.unthreaded = k.unthreaded := by
  obtain ⟨current, -, h⟩ := bind_eq_ok.1 h
  dsimp only at h
  split at h
  · cases h
    rfl
  · rename_i id lock _
    have hacquire := acquire_unthreaded k (k.thread current).parent id lock current
    split at h
    · rename_i k₁ hk₁
      cases h
      rw [hk₁] at hacquire
      exact hacquire
    · rename_i k₁ hk₁
      cases h
      rw [hk₁] at hacquire
      exact hacquire

theorem handleMutexUnlock_unthreaded (h : handleMutexUnlock k ctx = .ok (r, k')) :
    k'.unthreaded = k.unthreaded := by
  obtain ⟨current, -, h⟩ := bind_eq_ok.1 h
  dsimp only at h
  split at h
  · cases h
    rfl
  · rename_i id lock _
    have hrelease := release_unthreaded k (k.thread current).parent id lock current
    split at h
    · rename_i k₁ hk₁
      cases h
      rw [hk₁] at hrelease
      exact hrelease
    · rename_i k₁ hk₁
      cases h
      rw [hk₁] at hrelease
      exact hrelease

theorem sbrk_unthreaded (k : Kernel) (pid : Pid) (increment : Word) :
    (k.sbrk pid increment).2.unthreaded = k.unthreaded := by
  unfold sbrk
  dsimp only
  split
  · rfl
  · exact modifyProcess_unthreaded k _ fun _ => rfl

theorem handleSbrk_unthreaded (h : handleSbrk k ctx = .ok (r, k')) : k'.unthreaded = k.unthreaded := by
  obtain ⟨current, -, h⟩ := bind_eq_ok.1 h
  cases h
  exact sbrk_unthreaded k _ _

end SyscallHandler

/-! ### Pages, files and the context -/

namespace Kernel

/-- Every page is where it was, with what it held; only referenced bits may have changed. -/
structure SamePages (k k' : Kernel) : Prop where
  pmm : k'.pmm = k.pmm
  memory : k'.memory = k.memory
  swap : k'.swap = k.swap
  files : k'.host.files = k.host.files
  disk : ∀ a, swapStartBlock * BLOCK_SIZE ≤ a → k'.disk.data a = k.disk.data a
  pte : ∀ pid vpn, ∃ r, k'.pte pid vpn = { k.pte pid vpn with referenced := r }
  process : ∀ pid, (k'.processList pid).active = (k.processList pid).active ∧
    (k'.processList pid).segments = (k.processList pid).segments ∧
    (k'.processList pid).name = (k.processList pid).name

/-- The files are the same, and so are the handles to them. -/
structure SameFiles (k k' : Kernel) : Prop where
  vfs : k'.vfs = k.vfs
  fdTable : ∀ pid, (k'.processList pid).fdTable = (k.processList pid).fdTable

/-- The machine works for process `pid`. -/
structure OnCpu (pid : Pid) (k : Kernel) : Prop where
  table : k.cpu.currentTable = some pid
  vm : k.cpu.vmEnabled = true
  fault : k.cpu.fault = false

/-- The files lie below the swap area, and every handle is on a file. -/
structure FilesOk (k : Kernel) : Prop where
  pointer : k.vfs.freeBlockPointer.toNat ≤ swapStartBlock
  table : ∀ filename info, k.vfs.fileTable filename = some info → info.endBlock ≤ swapStartBlock
  handles : ∀ pid fd h, (k.processList pid).fdTable fd = some (.disk h) →
    ∃ info : FileMetadata, info.endBlock ≤ swapStartBlock ∧ h.On info

variable {k k' k'' : Kernel} {pid : Pid}

theorem SamePages.refl (k : Kernel) : SamePages k k where
  pmm := rfl
  memory := rfl
  swap := rfl
  files := rfl
  disk _ _ := rfl
  pte pid vpn := ⟨(k.pte pid vpn).referenced, rfl⟩
  process _ := ⟨rfl, rfl, rfl⟩

theorem SamePages.trans (h : SamePages k k') (h' : SamePages k' k'') : SamePages k k'' where
  pmm := h'.pmm.trans h.pmm
  memory := h'.memory.trans h.memory
  swap := h'.swap.trans h.swap
  files := h'.files.trans h.files
  disk a ha := (h'.disk a ha).trans (h.disk a ha)
  pte pid vpn := by
    obtain ⟨r, hr⟩ := h.pte pid vpn
    obtain ⟨r', hr'⟩ := h'.pte pid vpn
    exact ⟨r', by rw [hr', hr]⟩
  process pid := ⟨(h'.process pid).1.trans (h.process pid).1, (h'.process pid).2.1.trans (h.process pid).2.1,
    (h'.process pid).2.2.trans (h.process pid).2.2⟩

theorem SameFiles.refl (k : Kernel) : SameFiles k k := ⟨rfl, fun _ => rfl⟩

theorem SameFiles.trans (h : SameFiles k k') (h' : SameFiles k' k'') : SameFiles k k'' :=
  ⟨h'.vfs.trans h.vfs, fun pid => (h'.fdTable pid).trans (h.fdTable pid)⟩

theorem FilesOk.congr (hok : k.FilesOk) (h : SameFiles k k') : k'.FilesOk where
  pointer := h.vfs ▸ hok.pointer
  table := h.vfs ▸ hok.table
  handles pid fd handle hfd := hok.handles pid fd handle (h.fdTable pid ▸ hfd)

/-- What can be read off the kernel without its threads is the same. -/
theorem field_of_unthreaded {α : Type} (f : Kernel → α) (h : k'.unthreaded = k.unthreaded)
    (hf : ∀ k, f k.unthreaded = f k) : f k' = f k := by
  rw [← hf k', h, hf k]

theorem SamePages.of_unthreaded (h : k'.unthreaded = k.unthreaded) : SamePages k k' ∧ SameFiles k k' where
  left :=
    { pmm := field_of_unthreaded Kernel.pmm h fun _ => rfl
      memory := field_of_unthreaded Kernel.memory h fun _ => rfl
      swap := field_of_unthreaded Kernel.swap h fun _ => rfl
      files := field_of_unthreaded (fun k => k.host.files) h fun _ => rfl
      disk := fun a _ => field_of_unthreaded (fun k => k.disk.data a) h fun _ => rfl
      pte := fun pid vpn => ⟨(k.pte pid vpn).referenced,
        field_of_unthreaded (fun k => k.pte pid vpn) h fun _ => rfl⟩
      process := fun pid =>
        ⟨field_of_unthreaded (fun k => (k.processList pid).active) h fun _ => rfl,
          field_of_unthreaded (fun k => (k.processList pid).segments) h fun _ => rfl,
          field_of_unthreaded (fun k => (k.processList pid).name) h fun _ => rfl⟩ }
  right := ⟨field_of_unthreaded Kernel.vfs h fun _ => rfl, fun pid =>
    field_of_unthreaded (fun k => (k.processList pid).fdTable) h fun _ => rfl⟩

/-- A change outside the processes, the files and what pages are kept in. -/
theorem SamePages.of_eq (hpmm : k'.pmm = k.pmm) (hmemory : k'.memory = k.memory) (hswap : k'.swap = k.swap)
    (hfiles : k'.host.files = k.host.files)
    (hdisk : ∀ a, swapStartBlock * BLOCK_SIZE ≤ a → k'.disk.data a = k.disk.data a)
    (hprocs : k'.processList = k.processList) : SamePages k k' := by
  refine ⟨hpmm, hmemory, hswap, hfiles, hdisk, fun pid vpn => ⟨(k.pte pid vpn).referenced, ?_⟩, fun pid => ?_⟩
  · rw [Kernel.pte, Kernel.pte, hprocs]
  · rw [hprocs]
    exact ⟨rfl, rfl, rfl⟩

/-- Another handle under a descriptor. -/
theorem SamePages.setHandle (k : Kernel) (pid : Pid) (fd : Nat) (handle : Option FileHandle) :
    SamePages k (k.modifyProcess pid fun p => { p with fdTable := Function.update p.fdTable fd handle }) := by
  have hprocess : ∀ pid', ((k.modifyProcess pid fun p =>
      { p with fdTable := Function.update p.fdTable fd handle }).processList pid').pageTable =
        (k.processList pid').pageTable ∧
      ((k.modifyProcess pid fun p =>
        { p with fdTable := Function.update p.fdTable fd handle }).processList pid').active =
          (k.processList pid').active ∧
      ((k.modifyProcess pid fun p =>
        { p with fdTable := Function.update p.fdTable fd handle }).processList pid').segments =
          (k.processList pid').segments ∧
      ((k.modifyProcess pid fun p =>
        { p with fdTable := Function.update p.fdTable fd handle }).processList pid').name =
          (k.processList pid').name := by
    intro pid'
    by_cases hpid : pid' = pid
    · rw [hpid, modifyProcess_self]
      exact ⟨rfl, rfl, rfl, rfl⟩
    · rw [modifyProcess_ne k _ hpid]
      exact ⟨rfl, rfl, rfl, rfl⟩
  refine ⟨rfl, rfl, rfl, rfl, fun _ _ => rfl, fun pid' vpn => ⟨(k.pte pid' vpn).referenced, ?_⟩, fun pid' =>
    (hprocess pid').2⟩
  rw [Kernel.pte, (hprocess pid').1]
  rfl

/-- A handle on a file below the swap area, or none. -/
theorem FilesOk.setHandle (hok : k.FilesOk) (pid : Pid) (fd : Nat) {handle : Option FileHandle}
    (hhandle : ∀ h, handle = some (.disk h) → ∃ info : FileMetadata, info.endBlock ≤ swapStartBlock ∧ h.On info) :
    (k.modifyProcess pid fun p => { p with fdTable := Function.update p.fdTable fd handle }).FilesOk where
  pointer := hok.pointer
  table := hok.table
  handles pid' fd' h hfd := by
    by_cases hpid : pid' = pid
    · rw [hpid, modifyProcess_self] at hfd
      dsimp only at hfd
      by_cases heq : fd' = fd
      · rw [heq, Function.update_self] at hfd
        exact hhandle h hfd
      · rw [Function.update_of_ne heq] at hfd
        exact hok.handles pid fd' h hfd
    · rw [modifyProcess_ne k _ hpid] at hfd
      exact hok.handles pid' fd' h hfd

/-! ### Accesses -/

theorem touched_pages (k : Kernel) (pid : Pid) {a : Access} (hread : a.isWrite = false) (v : Addr) :
    SamePages k (k.touched pid a v) ∧ SameFiles k (k.touched pid a v) := by
  have hprocess : ∀ pid', ((k.touched pid a v).processList pid').unpaged = (k.processList pid').unpaged := by
    intro pid'
    exact process_of_unpaged (unpaged_setPTE k pid (v >>> 12) ((k.pte pid (v >>> 12)).touch a)) pid'
  have hfields : ∀ pid', ((k.touched pid a v).processList pid').active = (k.processList pid').active ∧
      ((k.touched pid a v).processList pid').segments = (k.processList pid').segments ∧
      ((k.touched pid a v).processList pid').name = (k.processList pid').name ∧
      ((k.touched pid a v).processList pid').fdTable = (k.processList pid').fdTable := by
    intro pid'
    have hactive := congrArg Process.active (hprocess pid')
    have hsegments := congrArg Process.segments (hprocess pid')
    have hname := congrArg Process.name (hprocess pid')
    have hfd := congrArg Process.fdTable (hprocess pid')
    exact ⟨hactive, hsegments, hname, hfd⟩
  refine ⟨⟨rfl, rfl, rfl, rfl, fun _ _ => rfl, fun pid' vpn => ?_, fun pid' => ?_⟩, rfl, fun pid' =>
    (hfields pid').2.2.2⟩
  · by_cases heq : (pid', vpn) = (pid, v >>> 12)
    · cases heq
      refine ⟨true, ?_⟩
      rw [touched, pte_setPTE_self, PTE.touch, hread, Bool.or_false]
    · have hother := pte_setPTE_ne k ((k.pte pid (v >>> 12)).touch a) heq
      exact ⟨_, hother⟩
  · exact ⟨(hfields pid').1, (hfields pid').2.1, (hfields pid').2.2.1⟩

theorem trapped_pages (k : Kernel) (v : Addr) : SamePages k (k.trapped v) ∧ SameFiles k (k.trapped v) :=
  ⟨.of_eq rfl rfl rfl rfl (fun _ _ => rfl) rfl, rfl, fun _ => rfl⟩

theorem OnCpu.load_pages (hon : k.OnCpu pid) {v : Addr} {n : Nat} {val : Word}
    (h : k.loadVirtualMemory v n = .ok (val, k')) : SamePages k k' ∧ SameFiles k k' ∧ k'.OnCpu pid := by
  rw [loadVirtualMemory_eq hon.table hon.vm hon.fault] at h
  split at h
  · cases hmem : k.memory.load ((k.pte pid (v >>> 12)).paddr v) n with
    | error e =>
      rw [hmem] at h
      cases h
    | ok w =>
      rw [hmem] at h
      cases h
      obtain ⟨hpages, hfiles⟩ := touched_pages k pid (a := .load) rfl v
      exact ⟨hpages, hfiles, hon.table, hon.vm, hon.fault⟩
  · cases h
    obtain ⟨hpages, hfiles⟩ := trapped_pages k v
    exact ⟨hpages, hfiles, hon.table, hon.vm, rfl⟩

end Kernel

/-! ### The file calls -/

namespace DiskFileHandle

theorem On.advance {h : DiskFileHandle} {info : FileMetadata} (hon : h.On info) (n : Nat) :
    (h.advance n).On info := hon

/-- Reads and writes move the cursor only. -/
theorem On.readLoop {info : FileMetadata} (disk : InMemoryDisk) (fuel : Nat) {h : DiskFileHandle}
    (hon : h.On info) (temp : List Byte) (left : Nat) : (readLoop disk fuel h temp left).2.On info := by
  induction fuel generalizing h temp left with
  | zero => exact hon
  | succ fuel ih =>
    unfold DiskFileHandle.readLoop
    split_ifs
    · exact hon
    · exact ih (hon.advance _) _ _

theorem On.writeLoop {info : FileMetadata} (fuel : Nat) {h : DiskFileHandle} (hon : h.On info)
    (disk : InMemoryDisk) (temp buffer : List Byte) (left : Nat) :
    (writeLoop fuel h disk temp buffer left).2.On info := by
  induction fuel generalizing h disk temp buffer left with
  | zero => exact hon
  | succ fuel ih =>
    unfold DiskFileHandle.writeLoop
    split_ifs
    · exact hon
    · exact ih (hon.advance _) _ _ _ _

theorem On.read {h : DiskFileHandle} {info : FileMetadata} (hon : h.On info) (disk : InMemoryDisk)
    (buffer : List Byte) (size : Nat) : (h.read disk buffer size).2.2.On info := by
  unfold DiskFileHandle.read
  split_ifs
  · exact hon
  · exact hon.readLoop disk _ _ _

theorem On.write {h : DiskFileHandle} {info : FileMetadata} (hon : h.On info) (disk : InMemoryDisk)
    (buffer : List Byte) (size : Nat) : (h.write disk buffer size).2.2.On info := by
  unfold DiskFileHandle.write
  split_ifs
  · exact hon
  · exact hon.writeLoop _ _ _ _ _

end DiskFileHandle

namespace SyscallHandler

open Kernel

variable {k k' : Kernel} {pid : Pid} {ctx : SyscallContext} {r : SyscallResult}

theorem copyIn_pages (hon : k.OnCpu pid) {addr : Word} {n i : Nat} {bytes : List Byte}
    (h : copyIn addr n i k = .ok (bytes, k')) : SamePages k k' ∧ SameFiles k k' := by
  induction n generalizing i k bytes with
  | zero =>
    cases h
    exact ⟨.refl _, .refl _⟩
  | succ n ih =>
    obtain ⟨⟨c, k₁⟩, hload, h⟩ := bind_eq_ok.1 h
    obtain ⟨⟨rest, k₂⟩, hrest, h⟩ := bind_eq_ok.1 h
    cases h
    obtain ⟨hpages, hfiles, hon₁⟩ := hon.load_pages hload
    obtain ⟨hpages', hfiles'⟩ := ih hon₁ hrest
    exact ⟨hpages.trans hpages', hfiles.trans hfiles'⟩

theorem readPath_pages (hon : k.OnCpu pid) {addr : Word} {n offset : Nat} {name : Name}
    (h : readPath addr n offset k = .ok (name, k')) : SamePages k k' ∧ SameFiles k k' := by
  induction n generalizing offset k name with
  | zero =>
    cases h
    exact ⟨.refl _, .refl _⟩
  | succ n ih =>
    obtain ⟨⟨w, k₁⟩, hload, h⟩ := bind_eq_ok.1 h
    obtain ⟨hpages, hfiles, hon₁⟩ := hon.load_pages hload
    dsimp only at h
    split_ifs at h
    · cases h
      exact ⟨hpages, hfiles⟩
    · obtain ⟨⟨rest, k₂⟩, hrest, h⟩ := bind_eq_ok.1 h
      cases h
      obtain ⟨hpages', hfiles'⟩ := ih hon₁ hrest
      exact ⟨hpages.trans hpages', hfiles.trans hfiles'⟩

theorem readFilename_pages (hon : k.OnCpu pid) {addr : Word} {name : Name}
    (h : readFilename k addr = .ok (name, k')) : SamePages k k' ∧ SameFiles k k' := readPath_pages hon h

theorem getFileHandle_fd {owner : Pid} {fd : Int} {i : Nat} {handle : FileHandle}
    (h : k.getFileHandle owner fd = some (i, handle)) : (k.processList owner).fdTable i = some handle := by
  unfold getFileHandle at h
  split_ifs at h
  obtain ⟨handle', hfd, heq⟩ := Option.map_eq_some_iff.1 h
  cases heq
  exact hfd

/-- A write through a handle stays below the swap area. -/
theorem writeHandle_pages (hok : k.FilesOk) (owner : Pid) (fd : Nat) {handle : FileHandle}
    (hfd : ∀ h, handle = .disk h → ∃ info : FileMetadata, info.endBlock ≤ swapStartBlock ∧ h.On info)
    (buffer : List Byte) (count : Nat) :
    SamePages k (writeHandle k owner fd handle buffer count).2 ∧
      (writeHandle k owner fd handle buffer count).2.FilesOk := by
  cases handle with
  | console hostFD =>
    exact ⟨.of_eq rfl rfl rfl rfl (fun _ _ => rfl) rfl, hok.congr ⟨rfl, fun _ => rfl⟩⟩
  | disk h =>
    obtain ⟨info, hend, hon⟩ := hfd h rfl
    have hdisk : SamePages k { k with disk := (h.write k.disk buffer count).2.1 } := by
      refine .of_eq rfl rfl rfl rfl (fun a ha => ?_) rfl
      refine DiskFileHandle.write_outside hon ?_ k.disk buffer count fun hblock => ?_
      · simp only [swapStartBlock, NUM_DISK_BLOCKS, NUM_SWAP_BLOCKS] at hend
        omega
      · have hlast := hblock.2
        simp only [BLOCK_SIZE] at ha hlast
        omega
    have hfiles : ({ k with disk := (h.write k.disk buffer count).2.1 } : Kernel).FilesOk :=
      hok.congr ⟨rfl, fun _ => rfl⟩
    refine ⟨hdisk.trans (.setHandle _ owner fd _), hfiles.setHandle owner fd fun h' heq => ?_⟩
    cases heq
    exact ⟨info, hend, hon.write k.disk buffer count⟩

theorem readHandle_pages (hok : k.FilesOk) (owner : Pid) (fd : Nat) {handle : FileHandle}
    (hfd : ∀ h, handle = .disk h → ∃ info : FileMetadata, info.endBlock ≤ swapStartBlock ∧ h.On info)
    (buffer : List Byte) (count : Nat) :
    SamePages k (readHandle k owner fd handle buffer count).2.2 ∧
      (readHandle k owner fd handle buffer count).2.2.FilesOk := by
  cases handle with
  | console hostFD =>
    exact ⟨.of_eq rfl rfl rfl rfl (fun _ _ => rfl) rfl, hok.congr ⟨rfl, fun _ => rfl⟩⟩
  | disk h =>
    obtain ⟨info, hend, hon⟩ := hfd h rfl
    refine ⟨.setHandle _ owner fd _, hok.setHandle owner fd fun h' heq => ?_⟩
    cases heq
    exact ⟨info, hend, hon.read k.disk buffer count⟩

theorem handleWrite_pages (hon : k.OnCpu pid) (hok : k.FilesOk) (h : handleWrite k ctx = .ok (r, k')) :
    SamePages k k' ∧ k'.FilesOk := by
  obtain ⟨current, -, h⟩ := bind_eq_ok.1 h
  dsimp only at h
  split at h
  · cases h
    exact ⟨.refl k, hok⟩
  · rename_i fd handle hget
    obtain ⟨⟨buffer, k₁⟩, hcopy, h⟩ := bind_eq_ok.1 h
    cases h
    obtain ⟨hpages, hfiles⟩ := copyIn_pages hon hcopy
    have hfd := fun h heq => hok.handles _ fd h ((getFileHandle_fd hget).trans (congrArg some heq))
    obtain ⟨hpages', hok'⟩ := writeHandle_pages (hok.congr hfiles) (k.thread current).parent fd hfd
      buffer ctx.arg2.toNat
    exact ⟨hpages.trans hpages', hok'⟩

theorem handleOpen_pages (hon : k.OnCpu pid) (hok : k.FilesOk) (h : handleOpen k ctx = .ok (r, k')) :
    SamePages k k' ∧ k'.FilesOk := by
  obtain ⟨⟨filename, k₁⟩, hread, h⟩ := bind_eq_ok.1 h
  obtain ⟨hpages, hfiles⟩ := readFilename_pages hon hread
  have hok₁ := hok.congr hfiles
  dsimp only at h
  split at h
  · cases h
    exact ⟨hpages, hok₁⟩
  · rename_i handle hopen
    obtain ⟨current, -, h⟩ := bind_eq_ok.1 h
    have hinfo : ∃ info : FileMetadata, info.endBlock ≤ swapStartBlock ∧ handle.On info := by
      obtain ⟨info, htable, rfl⟩ := Option.map_eq_some_iff.1 hopen
      exact ⟨info, hok₁.table filename info htable, rfl, rfl⟩
    have hadd : SamePages k₁ (k₁.addFileHandle (k₁.thread current).parent (.disk handle)).2 ∧
        (k₁.addFileHandle (k₁.thread current).parent (.disk handle)).2.FilesOk := by
      unfold addFileHandle
      split
      · exact ⟨.refl k₁, hok₁⟩
      · refine ⟨.setHandle .., hok₁.setHandle _ _ fun h' heq => ?_⟩
        cases heq
        exact hinfo
    split at h
    · rename_i k₂ hk₂
      cases h
      rw [hk₂] at hadd
      exact ⟨hpages.trans hadd.1, hadd.2⟩
    · rename_i fd k₂ hk₂
      cases h
      rw [hk₂] at hadd
      exact ⟨hpages.trans hadd.1, hadd.2⟩

theorem closeFileHandle_pages (hok : k.FilesOk) (owner : Pid) (fd : Int) :
    SamePages k (k.closeFileHandle owner fd).2 ∧ (k.closeFileHandle owner fd).2.FilesOk := by
  unfold closeFileHandle
  split
  · exact ⟨.refl k, hok⟩
  · refine ⟨.setHandle .., hok.setHandle _ _ fun h' heq => ?_⟩
    cases heq

theorem handleClose_pages (hok : k.FilesOk) (h : handleClose k ctx = .ok (r, k')) :
    SamePages k k' ∧ k'.FilesOk := by
  obtain ⟨current, -, h⟩ := bind_eq_ok.1 h
  cases h
  exact closeFileHandle_pages hok _ _

/-- A file that is not created, or ends below the swap area. -/
theorem createFile_pages (hok : k.FilesOk) (filename : Name) (size : Word)
    (hfits : (k.vfs.createFile k.disk filename size.toNat).1 = false ∨
      k.vfs.freeBlockPointer.toNat + (size.toNat + (BLOCK_SIZE - 1)) / BLOCK_SIZE ≤ swapStartBlock) :
    SamePages k { k with vfs := (k.vfs.createFile k.disk filename size.toNat).2 } ∧
      ({ k with vfs := (k.vfs.createFile k.disk filename size.toNat).2 } : Kernel).FilesOk := by
  refine ⟨.of_eq rfl rfl rfl rfl (fun _ _ => rfl) rfl, ?_⟩
  rcases Storage.createFile_cases k.vfs k.disk filename size.toNat with hno | ⟨-, hbound, hyes⟩
  · rw [hno]
    exact hok
  · rw [hyes] at hfits ⊢
    have hroom := hfits.resolve_left fun hcreated => Bool.false_ne_true hcreated.symm
    have hneeded : StubFileSystem.blocksNeeded size.toNat = (size.toNat + (BLOCK_SIZE - 1)) / BLOCK_SIZE := by
      have hlt := size.isLt
      simp only [StubFileSystem.blocksNeeded, BLOCK_SIZE]
      omega
    refine ⟨?_, fun filename' info hinfo => ?_, hok.handles⟩
    · show (k.vfs.freeBlockPointer + BitVec.ofNat 32 (StubFileSystem.blocksNeeded size.toNat)).toNat ≤ _
      rw [hneeded, BitVec.toNat_add, BitVec.toNat_ofNat]
      simp only [BLOCK_SIZE, swapStartBlock, NUM_DISK_BLOCKS, NUM_SWAP_BLOCKS] at hroom ⊢
      omega
    · dsimp only at hinfo
      by_cases heq : filename' = filename
      · rw [heq, Function.update_self] at hinfo
        cases hinfo
        exact hroom
      · rw [Function.update_of_ne heq] at hinfo
        exact hok.table filename' info hinfo

/-- The call creates no file, or one that ends below the swap area. -/
def CreateFits (k : Kernel) (ctx : SyscallContext) (r : SyscallResult) : Prop :=
  r.returnValue = -1 ∨
    k.vfs.freeBlockPointer.toNat + (ctx.arg1.toNat + (BLOCK_SIZE - 1)) / BLOCK_SIZE ≤ swapStartBlock

theorem handleCreate_pages (hon : k.OnCpu pid) (hok : k.FilesOk) (h : handleCreate k ctx = .ok (r, k'))
    (hfits : CreateFits k ctx r) : SamePages k k' ∧ k'.FilesOk := by
  obtain ⟨⟨filename, k₁⟩, hread, h⟩ := bind_eq_ok.1 h
  obtain ⟨hpages, hfiles⟩ := readFilename_pages hon hread
  have hr : (if (k₁.vfs.createFile k₁.disk filename ctx.arg1.toNat).1 then 0 else -1) = r.returnValue :=
    congrArg (fun p : SyscallResult × Kernel => p.1.returnValue) (Except.ok.inj h)
  have hcreate := createFile_pages (hok.congr hfiles) filename ctx.arg1 <| by
    rw [hfiles.vfs] at hr ⊢
    refine hfits.imp_left fun hfailed => ?_
    rw [hfailed] at hr
    cases hcreated : (k.vfs.createFile k₁.disk filename ctx.arg1.toNat).1 with
    | false => rfl
    | true =>
      rw [hcreated] at hr
      exact absurd hr (by decide)
  cases h
  exact ⟨hpages.trans hcreate.1, hcreate.2⟩

end SyscallHandler

end Rv32umos
