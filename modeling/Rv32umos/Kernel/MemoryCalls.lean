import Rv32umos.Kernel.UserStep
import Rv32umos.Kernel.Unpaged

/-!
# System calls on the flat memories

What the kernel does to the user memories when it handles a trap. A fault that is served, a kill and most
calls do nothing to them; `SYS_READ` stores to the buffer of the caller and nowhere else, byte by byte,
and `SYS_JOIN_PROCESS` to its status word; `SYS_CREATE_PROCESS` starts a memory with the image of the
file. `Delivers` is the list, `dispatch_memory` the proof, for calls that meet `CallSafe`.
-/

namespace Rv32umos

open Bytes

namespace Kernel

variable {m : UserMemory} {k k' : Kernel} {pid : Pid} {v : Addr} {n : Nat} {value : Word}

/-! ### Stores -/

/-- A store of the kernel to user memory goes through, or the page is not there for it. -/
theorem Coherent.storeVirtualMemory (h : Coherent m k) (hon : k.OnCpu pid)
    (hactive : (k.processList pid).active = true) (hn : 0 < n) (hpage : v.toNat % 4096 + n ≤ 4096)
    (hstore : k.storeVirtualMemory v n value = .ok k') :
    (∃ m', (m' = m ∨ m' = m.store pid v.toNat n (byteAt value)) ∧ Coherent m' k') ∧ SameFiles k k' ∧
      k'.OnCpu pid ∧ (k'.processList pid).active = true := by
  rw [storeVirtualMemory_eq hon.table hon.vm hon.fault] at hstore
  split at hstore
  · rename_i hallowed
    cases hmem : k.memory.store ((k.pte pid (v >>> 12)).paddr v) n value with
    | error why =>
      rw [hmem] at hstore
      cases hstore
    | ok memory =>
      rw [hmem] at hstore
      cases hstore
      have hunpaged : ({ k.touched pid .store v with memory } : Kernel).unpaged = k.unpaged :=
        unpaged_setPTE k pid (v >>> 12) ((k.pte pid (v >>> 12)).touch .store)
      refine ⟨⟨_, .inr rfl, h.stored hactive hallowed hn hpage hmem⟩, ⟨rfl, fun pid' => ?_⟩,
        ⟨hon.table, hon.vm, hon.fault⟩, (active_of_unpaged hunpaged pid).trans hactive⟩
      have hfd := congrArg Process.fdTable (process_of_unpaged hunpaged pid')
      exact hfd
  · cases hstore
    obtain ⟨hpages, hfiles⟩ := trapped_pages k v
    exact ⟨⟨m, .inl rfl, h.samePages hpages⟩, hfiles, ⟨hon.table, hon.vm, rfl⟩, hactive⟩

/-! ### The end and the beginning of a process -/

theorem terminate_memory {code : Word} {ok : Bool} (h : Coherent m k) (hok : k.FilesOk)
    (hterminate : k.terminate pid code = .ok (ok, k')) : Coherent m k' ∧ k'.FilesOk := by
  have hframes := terminate_framesOk h.frames hterminate
  rcases terminate_cases hterminate with ⟨-, -, rfl⟩ | ⟨-, -, pmm, -, rfl⟩
  · exact ⟨h, hok⟩
  · have hfd : ∀ pid', ((k.terminated pid code pmm).processList pid').fdTable =
        (k.processList pid').fdTable := by
      intro pid'
      unfold terminated
      by_cases hpid : pid' = pid
      · rw [hpid, modifyProcess_self]
      · rw [modifyProcess_ne _ _ hpid]
    refine ⟨h.rebuild hframes rfl rfl rfl (fun _ _ => rfl) fun pid' hactive => .inl ?_, hok.congr ⟨rfl, hfd⟩⟩
    by_cases hpid : pid' = pid
    · rw [hpid, terminated, modifyProcess_self] at hactive
      cases hactive
    · have hprocess : (k.terminated pid code pmm).processList pid' = k.processList pid' := by
        rw [terminated, modifyProcess_ne _ _ hpid]
      rw [hprocess] at hactive
      refine ⟨hactive, fun vpn => ⟨(k.pte pid' vpn).referenced, ?_⟩, by rw [hprocess], by rw [hprocess], rfl, rfl⟩
      rw [Kernel.pte, hprocess]
      rfl

/-- A process whose memory is the image of a file, in a slot that nobody is in. -/
theorem Coherent.started (h : Coherent m k) {name : Name} {segments : List Segment}
    (hframes : k'.FramesOk) (hmemory : k'.memory = k.memory) (hswap : k'.swap = k.swap)
    (hhost : k'.host = k.host) (hdisk : k'.disk = k.disk)
    (hothers : ∀ pid' ≠ pid, k'.processList pid' = k.processList pid')
    (htable : (k'.processList pid).pageTable = .empty) (hname : (k'.processList pid).name = name)
    (hsegments : (k'.processList pid).segments = segments) (hplaced : WellPlaced segments) :
    Coherent (m.renew pid (({ Process.new name with segments } : Process).image k.host.files)) k' := by
  refine h.rebuild hframes hmemory hswap (by rw [hhost]) (fun a _ => by rw [hdisk]) fun pid' hactive => ?_
  by_cases hpid : pid' = pid
  · subst hpid
    obtain ⟨hstored, himage⟩ := FlatMemory.renew_self (m := m) (p := pid')
      (({ Process.new name with segments } : Process).image k.host.files)
    refine .inr ⟨fun vpn => ?_, fun a => by rw [hstored], ?_, hsegments ▸ hplaced⟩
    · rw [Kernel.pte, htable]
      exact ⟨rfl, rfl⟩
    · rw [himage, hhost]
      funext a
      unfold Process.image
      rw [hname, hsegments]
      rfl
  · obtain ⟨hstored, himage⟩ := FlatMemory.renew_ne (m := m) hpid
      (({ Process.new name with segments } : Process).image k.host.files)
    have hprocess := hothers pid' hpid
    rw [hprocess] at hactive
    refine .inl ⟨hactive, fun vpn => ⟨(k.pte pid' vpn).referenced, ?_⟩, by rw [hprocess], by rw [hprocess],
      hstored, himage⟩
    rw [Kernel.pte, hprocess]
    rfl

end Kernel

namespace Loader

open Kernel

variable {k k' : Kernel} {pid : Pid}

/-- A process that is created has the segments of its file. -/
theorem loadELF_created {filename : Name} (h : loadELF k filename = .ok (some pid, k')) :
    ∃ file segments pmm, k.host.files filename = some file ∧ validHeader file = true ∧
      readSegments file (phnum file) (phoff file) = .ok segments ∧
      k' = (freshSlot k pid filename segments pmm).withThread pid
        ((freshSlot k pid filename segments pmm).newThread pid (entry file) 0) := by
  unfold loadELF at h
  split at h
  · cases h
  · rename_i file hfile
    split_ifs at h with hheader
    · cases h
    · split at h
      · cases h
      · rename_i newPid hslot
        obtain ⟨k₁, hrecycle, h⟩ := bind_eq_ok.1 h
        obtain ⟨pmm, -, rfl⟩ := recycle_cases hrecycle
        obtain ⟨segments, hread, h⟩ := bind_eq_ok.1 h
        have hfresh : ((freshSlot k newPid filename [] pmm).modifyProcess newPid fun p =>
            { p with segments := p.segments ++ segments }) = freshSlot k newPid filename segments pmm := by
          unfold freshSlot modifyProcess
          dsimp only
          rw [Function.update_self, Function.update_idem]
          rfl
        rw [hfresh] at h
        dsimp only at h
        split at h
        · cases h
        · rename_i t k₂ hcreate
          rcases createThread_cases hcreate with ⟨hnone, -⟩ | ⟨-, ht, hk₂⟩
          · cases hnone
          · cases ht
            cases h
            exact ⟨file, segments, pmm, hfile, by simpa using hheader, hread, hk₂⟩

end Loader

namespace Kernel

variable {m : UserMemory} {k k' : Kernel}

/-- A change of processes that leaves their handles alone. -/
theorem modifyProcess_files (k : Kernel) (pid : Pid) {f : Process → Process}
    (hf : ∀ p, (f p).fdTable = p.fdTable) : SameFiles k (k.modifyProcess pid f) := by
  refine ⟨rfl, fun pid' => ?_⟩
  by_cases hpid : pid' = pid
  · rw [hpid, modifyProcess_self, hf]
  · rw [modifyProcess_ne _ _ hpid]

theorem withThread_files (k : Kernel) (pid : Pid) (thread : Thread) :
    SameFiles k (k.withThread pid thread) := by
  have hthread : SameFiles k { k with
    thread := Function.update k.thread k.numThreads { thread with state := .READY }
    numThreads := k.numThreads + 1 } := ⟨rfl, fun _ => rfl⟩
  exact hthread.trans (modifyProcess_files _ pid fun _ => rfl)

theorem withThread_process (k : Kernel) (pid : Pid) (thread : Thread) :
    (k.withThread pid thread).processList = Function.update k.processList pid { k.processList pid with
      nextStackBase := Process.stackBelow (k.processList pid)
      threads := (k.processList pid).threads ++ [k.numThreads] } := rfl

/-- The segments of every program are where a program's segments belong. -/
def ProgramsPlaced (files : Name → Option (List Byte)) : Prop :=
  ∀ name file segments, files name = some file → Loader.validHeader file = true →
    Loader.readSegments file (Loader.phnum file) (Loader.phoff file) = .ok segments → WellPlaced segments

/-- A load starts a memory, or it changes none. -/
theorem loadELF_memory {filename : Name} {created : Option Pid} (h : Coherent m k) (hok : k.FilesOk)
    (hplaced : ProgramsPlaced k.host.files) (hload : Loader.loadELF k filename = .ok (created, k'))
    (hframes : k'.FramesOk) :
    k'.FilesOk ∧ k'.host.files = k.host.files ∧ ((created = none ∧ Coherent m k') ∨
      ∃ pid file segments, created = some pid ∧ k.host.files filename = some file ∧
        Loader.validHeader file = true ∧
        Loader.readSegments file (Loader.phnum file) (Loader.phoff file) = .ok segments ∧
        Coherent (m.renew pid (({ Process.new filename with segments } : Process).image k.host.files)) k') := by
  -- the handles of a slot are those of its last process, or none
  have hfresh : ∀ pid segments pmm, (Loader.freshSlot k pid filename segments pmm).FilesOk := by
    intro pid segments pmm
    refine ⟨hok.pointer, hok.table, fun pid' fd handle hfd => ?_⟩
    unfold Loader.freshSlot at hfd
    by_cases hpid : pid' = pid
    · rw [hpid, modifyProcess_self] at hfd
      dsimp only [Loader.freshProcess] at hfd
      split_ifs at hfd
      exact hok.handles pid fd handle hfd
    · rw [modifyProcess_ne _ _ hpid] at hfd
      exact hok.handles pid' fd handle hfd
  cases created with
  | none =>
    rcases Loader.loadELF_cases hload with ⟨-, rfl⟩ | ⟨file, pid, pmm, segments, -, -, -, -, hcase⟩
    · exact ⟨hok, rfl, .inl ⟨rfl, h⟩⟩
    · rcases hcase with ⟨-, rfl⟩ | ⟨hsome, -⟩
      · refine ⟨(hfresh pid segments pmm).congr (modifyProcess_files _ _ fun _ => rfl), rfl, .inl ⟨rfl, ?_⟩⟩
        refine h.rebuild hframes rfl rfl rfl (fun _ _ => rfl) fun pid' hactive => .inl ?_
        by_cases hpid : pid' = pid
        · rw [hpid, modifyProcess_self] at hactive
          cases hactive
        · have hprocess : ((Loader.freshSlot k pid filename segments pmm).modifyProcess pid fun p =>
              { p with active := false }).processList pid' = k.processList pid' := by
            rw [modifyProcess_ne _ _ hpid, Loader.freshSlot, modifyProcess_ne _ _ hpid]
          rw [hprocess] at hactive
          refine ⟨hactive, fun vpn => ⟨(k.pte pid' vpn).referenced, ?_⟩, by rw [hprocess], by rw [hprocess],
            rfl, rfl⟩
          rw [Kernel.pte, hprocess]
          rfl
      · cases hsome
  | some pid =>
    obtain ⟨file, segments, pmm, hfile, hheader, hread, rfl⟩ := Loader.loadELF_created hload
    refine ⟨?_, rfl, .inr ⟨pid, file, segments, rfl, hfile, hheader, hread, ?_⟩⟩
    · exact (hfresh pid segments pmm).congr (withThread_files _ _ _)
    · have hslot : (Loader.freshSlot k pid filename segments pmm).processList pid =
          Loader.freshProcess (k.processList pid) filename segments := modifyProcess_self _ _ _
      refine h.started hframes rfl rfl rfl rfl (fun pid' hpid => ?_) ?_ ?_ ?_
        (hplaced _ file segments hfile hheader hread)
      · rw [withThread_process, Function.update_of_ne hpid]
        exact modifyProcess_ne _ _ hpid
      · rw [withThread_process, Function.update_self, hslot]
        rfl
      · rw [withThread_process, Function.update_self, hslot]
        rfl
      · rw [withThread_process, Function.update_self, hslot]
        rfl

/-- What a system call of process `pid` that reports `r` does to the user memories. -/
inductive Delivers (files : Name → Option (List Byte)) (exitCodes : Pid → Option Word) (m : UserMemory)
    (pid : Pid) (ctx : SyscallContext) (r : SyscallResult) : UserMemory → Prop
  | nothing (hid : ctx.id.toNat = SyscallID.SYS_CREATE_PROCESS → r.returnValue = -1) :
    Delivers files exitCodes m pid ctx r m
  | read {data : List Byte} {m' : UserMemory} (hid : ctx.id.toNat = SyscallID.SYS_READ)
    (hcount : data.length ≤ ctx.arg2.toNat) (hreturn : data.length ≤ r.returnValue.toNat)
    (hdata : m.Patched pid m' (fun i => (ctx.arg1 + BitVec.ofNat 32 i).toNat) data) :
    Delivers files exitCodes m pid ctx r m'
  | status {target : Pid} {exitCode : Word} (hid : ctx.id.toNat = SyscallID.SYS_JOIN_PROCESS)
    (htarget : Pid.ofInt? ctx.arg0.toInt = some target) (hcode : exitCodes target = some exitCode)
    (hptr : ctx.arg1 ≠ 0) :
    Delivers files exitCodes m pid ctx r (m.store pid ctx.arg1.toNat 4 (byteAt exitCode))
  | load {child : Pid} {filename : Name} {file : List Byte} {segments : List Segment}
    (hid : ctx.id.toNat = SyscallID.SYS_CREATE_PROCESS) (hreturn : r.returnValue = BitVec.ofNat 32 child)
    (hfile : files filename = some file) (hheader : Loader.validHeader file = true)
    (hsegments : Loader.readSegments file (Loader.phnum file) (Loader.phoff file) = .ok segments) :
    Delivers files exitCodes m pid ctx r
      (m.renew child (({ Process.new filename with segments } : Process).image files))

/-- The call writes its status word inside one page, and creates no file in the swap area. -/
structure CallSafe (k : Kernel) (ctx : SyscallContext) (r : SyscallResult) : Prop where
  create : ctx.id.toNat = SyscallID.SYS_CREATE → SyscallHandler.CreateFits k ctx r
  status : ctx.id.toNat = SyscallID.SYS_JOIN_PROCESS → ctx.arg1.toNat % 4096 + 4 ≤ 4096

end Kernel

namespace SyscallHandler

open Kernel

variable {m : UserMemory} {k k' : Kernel} {pid : Pid} {self : TRef} {ctx : SyscallContext}
  {r : SyscallResult}

theorem copyOut_memory (h : Coherent m k) (hon : k.OnCpu pid) (hactive : (k.processList pid).active = true)
    {addr : Word} {bytes : List Byte} {i : Nat} (hcopy : copyOut addr bytes i k = .ok k') :
    (∃ m', m.Patched pid m' (fun j => (addr + BitVec.ofNat 32 (i + j)).toNat) bytes ∧ Coherent m' k') ∧
      SameFiles k k' := by
  induction bytes generalizing m k i with
  | nil =>
    cases hcopy
    exact ⟨⟨m, .refl _ _, h⟩, .refl _⟩
  | cons byte rest ih =>
    obtain ⟨k₁, hstore, hcopy⟩ := bind_eq_ok.1 hcopy
    obtain ⟨⟨m₁, hm₁, hcoh₁⟩, hfiles, hon₁, hactive₁⟩ :=
      h.storeVirtualMemory hon hactive (by decide) (by omega) hstore
    obtain ⟨⟨m', hpatched, hcoh'⟩, hfiles'⟩ := ih hcoh₁ hon₁ hactive₁ hcopy
    refine ⟨⟨m', ?_, hcoh'⟩, hfiles.trans hfiles'⟩
    have hbyte : byteAt (byte.setWidth 32) 0 = byte := by
      rw [byteAt_zero, BitVec.setWidth_setWidth_of_le _ (by decide), BitVec.setWidth_eq]
    have hplace : (fun j => (addr + BitVec.ofNat 32 (i + 1 + j)).toNat) =
        fun j => (addr + BitVec.ofNat 32 (i + (j + 1))).toNat := by
      funext j
      rw [Nat.add_assoc, Nat.add_comm 1]
    rw [hplace] at hpatched
    have hcons : m.Patched pid m' (fun j => (addr + BitVec.ofNat 32 (i + j)).toNat)
        (byteAt (byte.setWidth 32) 0 :: rest) := .cons hm₁ hpatched
    rw [hbyte] at hcons
    exact hcons

/-- A handle reads no more than it is asked for. -/
theorem readHandle_count (k : Kernel) (pid : Pid) (fd : Nat) (handle : FileHandle) (buffer : List Byte)
    (count : Nat) : (readHandle k pid fd handle buffer count).1 ≤ count := by
  have herror : (-1 : Int) ≤ count := by omega
  cases handle with
  | console hostFD =>
    show (k.host.console.read hostFD buffer count).1 ≤ _
    unfold Console.read
    split
    · split
      · exact Int.natCast_nonneg _
      · exact herror
      · exact Int.ofNat_le.2 (List.length_take_le _ _)
    · exact herror
  | disk h =>
    show (h.read k.disk buffer count).1 ≤ _
    unfold DiskFileHandle.read
    split
    · exact Int.natCast_nonneg _
    · refine Int.ofNat_le.2 ?_
      unfold DiskFileHandle.truncate
      split
      · omega
      · exact le_refl _

theorem readHandle_cpu (k : Kernel) (pid : Pid) (fd : Nat) (handle : FileHandle) (buffer : List Byte)
    (count : Nat) : (readHandle k pid fd handle buffer count).2.2.cpu = k.cpu := by
  cases handle with
  | console hostFD => rfl
  | disk h => rfl

theorem handleRead_memory (h : Coherent m k) (hok : k.FilesOk) (hon : k.OnCpu pid)
    (hself : k.getCurrentThread = .ok self) (hparent : (k.thread self).parent = pid)
    (hactive : (k.processList pid).active = true) (hread : handleRead k ctx = .ok (r, k')) :
    k'.FilesOk ∧ ∃ (data : List Byte) (m' : UserMemory), data.length ≤ ctx.arg2.toNat ∧
      data.length ≤ r.returnValue.toNat ∧
      m.Patched pid m' (fun i => (ctx.arg1 + BitVec.ofNat 32 i).toNat) data ∧ Coherent m' k' := by
  obtain ⟨current, hcurrent, hread⟩ := bind_eq_ok.1 hread
  obtain rfl := Except.ok.inj (hself.symm.trans hcurrent)
  dsimp only at hread
  rw [hparent] at hread
  split at hread
  · cases hread
    exact ⟨hok, [], m, Nat.zero_le _, Nat.zero_le _, .refl _ _, h⟩
  · rename_i fd handle hget
    have hfd := fun h heq => hok.handles _ fd h ((getFileHandle_fd hget).trans (congrArg some heq))
    have hpages := readHandle_pages hok pid fd hfd (List.replicate ctx.arg2.toNat 0) ctx.arg2.toNat
    have hcount := readHandle_count k pid fd handle (List.replicate ctx.arg2.toNat 0) ctx.arg2.toNat
    have hcpu := readHandle_cpu k pid fd handle (List.replicate ctx.arg2.toNat 0) ctx.arg2.toNat
    generalize readHandle k pid fd handle (List.replicate ctx.arg2.toNat 0) ctx.arg2.toNat = read at *
    obtain ⟨bytesRead, buffer, k₁⟩ := read
    obtain ⟨hsame, hok₁⟩ := hpages
    dsimp only at hread hcount hcpu hsame hok₁
    have hcoh₁ := h.samePages hsame
    split_ifs at hread with hpos
    · obtain ⟨k₂, hcopy, hread⟩ := bind_eq_ok.1 hread
      have hon₁ : k₁.OnCpu pid := ⟨hcpu ▸ hon.table, hcpu ▸ hon.vm, hcpu ▸ hon.fault⟩
      have hactive₁ : (k₁.processList pid).active = true := (hsame.process pid).1.trans hactive
      obtain ⟨⟨m', hpatched, hcoh'⟩, hfiles⟩ := copyOut_memory hcoh₁ hon₁ hactive₁ hcopy
      cases hread
      have hlength : (buffer.take bytesRead.toNat).length ≤ bytesRead.toNat := List.length_take_le _ _
      refine ⟨hok₁.congr hfiles, buffer.take bytesRead.toNat, m', ?_, ?_, ?_, hcoh'⟩
      · omega
      · have hlt := ctx.arg2.isLt
        have hreturn : (BitVec.ofInt 32 bytesRead).toNat = bytesRead.toNat := by
          rw [BitVec.toNat_ofInt]
          omega
        rw [hreturn]
        exact hlength
      · simp only [Nat.zero_add] at hpatched
        exact hpatched
    · cases hread
      exact ⟨hok₁, [], m, Nat.zero_le _, Nat.zero_le _, .refl _ _, hcoh₁⟩

theorem handleJoinProcess_memory (h : Coherent m k) (hok : k.FilesOk) (hon : k.OnCpu pid)
    (hactive : (k.processList pid).active = true) (hid : ctx.id.toNat = SyscallID.SYS_JOIN_PROCESS)
    (hpage : ctx.arg1.toNat % 4096 + 4 ≤ 4096) (hjoin : handleJoinProcess k ctx = .ok (r, k')) :
    k'.FilesOk ∧ ∃ m', Delivers k.host.files k.exitCodes m pid ctx r m' ∧ Coherent m' k' := by
  have hnothing : Delivers k.host.files k.exitCodes m pid ctx r m := .nothing fun hcreate => by
    rw [hid] at hcreate
    cases hcreate
  unfold handleJoinProcess at hjoin
  dsimp only at hjoin
  split at hjoin
  · cases hjoin
    exact ⟨hok, m, hnothing, h⟩
  · rename_i target htarget
    split at hjoin
    · rename_i exitCode hcode
      split_ifs at hjoin with hptr
      · obtain ⟨k₁, hstore, hjoin⟩ := bind_eq_ok.1 hjoin
        cases hjoin
        obtain ⟨⟨m', hm', hcoh'⟩, hfiles, -, -⟩ := h.storeVirtualMemory hon hactive (by decide) hpage hstore
        have hcoh : Coherent m'
            { k₁ with exitCodes := Function.update k₁.exitCodes target none } :=
          hcoh'.samePages (.of_eq rfl rfl rfl rfl (fun _ _ => rfl) rfl)
        refine ⟨(hok.congr hfiles).congr ⟨rfl, fun _ => rfl⟩, m', ?_, hcoh⟩
        rcases hm' with rfl | rfl
        · exact hnothing
        · exact .status hid htarget hcode hptr
      · cases hjoin
        have hcoh : Coherent m { k with exitCodes := Function.update k.exitCodes target none } :=
          h.samePages (.of_eq rfl rfl rfl rfl (fun _ _ => rfl) rfl)
        exact ⟨hok.congr ⟨rfl, fun _ => rfl⟩, m, hnothing, hcoh⟩
    · split_ifs at hjoin
      · cases hjoin
        exact ⟨hok, m, hnothing, h⟩
      · obtain ⟨current, -, hjoin⟩ := bind_eq_ok.1 hjoin
        cases hjoin
        have hcoh : Coherent m (({ k with
            processWaiters := Function.update k.processWaiters target
              (k.processWaiters target ++ [current]) } : Kernel).setState current .BLOCKED) :=
          h.samePages (.of_eq rfl rfl rfl rfl (fun _ _ => rfl) rfl)
        exact ⟨hok.congr ⟨rfl, fun _ => rfl⟩, m, hnothing, hcoh⟩

theorem handleJoinProcess_hostFiles (h : handleJoinProcess k ctx = .ok (r, k')) :
    k'.host.files = k.host.files := by
  rcases handleJoinProcess_cases h with ⟨-, rfl⟩ | ⟨target, code, k₁, -, -, -, hquiet, rfl⟩ |
    ⟨target, current, -, -, -, -, -, rfl⟩
  · rfl
  · exact hquiet.field (fun k => k.host.files) fun _ => rfl
  · rfl

section
variable (h : Coherent m k) (hok : k.FilesOk) (hplaced : ProgramsPlaced k.host.files) (hon : k.OnCpu pid)
  (hself : k.getCurrentThread = .ok self) (hparent : (k.thread self).parent = pid)
  (hactive : (k.processList pid).active = true)
include h hok hplaced hon hself hparent hactive

omit hself hparent hactive in
theorem handleCreateProcess_memory (hid : ctx.id.toNat = SyscallID.SYS_CREATE_PROCESS)
    (hclean : ∀ filename k₁ file pid, readFilename k ctx.arg0 = .ok (filename, k₁) →
      k₁.host.files filename = some file → Loader.validHeader file = true →
      Loader.freeSlot k = some pid → ∀ vpn, (k.pte pid vpn).valid = false)
    (hcreate : handleCreateProcess k ctx = .ok (r, k')) :
    k'.FilesOk ∧ k'.host.files = k.host.files ∧
      ∃ m', Delivers k.host.files k.exitCodes m pid ctx r m' ∧ Coherent m' k' := by
  obtain ⟨⟨filename, k₁⟩, hread, hcreate⟩ := bind_eq_ok.1 hcreate
  obtain ⟨⟨created, k₂⟩, hload, hcreate⟩ := bind_eq_ok.1 hcreate
  obtain ⟨hsame, hfiles⟩ := readFilename_pages hon hread
  have hframes : SameFrames k k₁ := .of_quiet (readFilename_quiet hread)
  have hcoh₁ := h.samePages hsame
  have hframes₂ : k₂.FramesOk := by
    refine loadELF_framesOk hcoh₁.frames hload fun file pid hfile hheader hslot vpn => ?_
    rw [hframes.valid]
    exact hclean filename k₁ file pid hread hfile hheader (hframes.freeSlot ▸ hslot) vpn
  obtain ⟨hok₂, hhost, hcase⟩ :=
    loadELF_memory hcoh₁ (hok.congr hfiles) (hsame.files ▸ hplaced) hload hframes₂
  rw [hsame.files] at hhost hcase
  dsimp only at hcreate
  rcases hcase with ⟨rfl, hcoh₂⟩ | ⟨child, file, segments, rfl, hfile, hheader, hsegments, hcoh₂⟩
  · cases hcreate
    exact ⟨hok₂, hhost, m, .nothing fun _ => rfl, hcoh₂⟩
  · cases hcreate
    exact ⟨hok₂, hhost, _, .load hid rfl hfile hheader hsegments, hcoh₂⟩

theorem dispatch_memory (hsafe : CallSafe k ctx r)
    (hclean : ctx.id.toNat = SyscallID.SYS_CREATE_PROCESS → ∀ filename k₁ file pid,
      readFilename k ctx.arg0 = .ok (filename, k₁) →
      k₁.host.files filename = some file → Loader.validHeader file = true →
      Loader.freeSlot k = some pid → ∀ vpn, (k.pte pid vpn).valid = false)
    (hdispatch : dispatch k ctx = .ok (r, k')) :
    k'.FilesOk ∧ k'.host.files = k.host.files ∧
      ∃ m', Delivers k.host.files k.exitCodes m pid ctx r m' ∧ Coherent m' k' := by
  have hplain {id : Nat} (hid : ctx.id.toNat = id) (hne : id ≠ SyscallID.SYS_CREATE_PROCESS)
      (hchanged : SamePages k k' ∧ k'.FilesOk) : k'.FilesOk ∧ k'.host.files = k.host.files ∧
        ∃ m', Delivers k.host.files k.exitCodes m pid ctx r m' ∧ Coherent m' k' := by
    refine ⟨hchanged.2, hchanged.1.files, m, .nothing fun hcreate => ?_, h.samePages hchanged.1⟩
    exact absurd (hid.symm.trans hcreate) hne
  have hthreads (hunthreaded : k'.unthreaded = k.unthreaded) : SamePages k k' ∧ k'.FilesOk := by
    obtain ⟨hsame, hfiles⟩ := SamePages.of_unthreaded hunthreaded
    exact ⟨hsame, hok.congr hfiles⟩
  unfold dispatch at hdispatch
  split at hdispatch
  · rename_i hid
    obtain ⟨current, -, hdispatch⟩ := bind_eq_ok.1 hdispatch
    obtain ⟨⟨ok, k₁⟩, hterminate, hdispatch⟩ := bind_eq_ok.1 hdispatch
    dsimp only at hdispatch
    split_ifs at hdispatch
    cases hdispatch
    obtain ⟨hcoh', hok'⟩ := terminate_memory h hok hterminate
    refine ⟨hok', ?_, m, .nothing fun hcreate => ?_, hcoh'⟩
    · rcases terminate_cases hterminate with ⟨-, -, rfl⟩ | ⟨-, -, pmm, -, rfl⟩
      · rfl
      · rfl
    · rw [hid] at hcreate
      cases hcreate
  · rename_i hid
    exact hplain hid (by decide) (handleWrite_pages hon hok hdispatch)
  · rename_i hid
    obtain ⟨hok', data, m', hcount, hreturn, hdata, hcoh'⟩ :=
      handleRead_memory h hok hon hself hparent hactive hdispatch
    exact ⟨hok', (handleRead_quiet hdispatch).field (fun k => k.host.files) fun _ => rfl, m',
      .read hid hcount hreturn hdata, hcoh'⟩
  · rename_i hid
    exact hplain hid (by decide) (hthreads (handleThreadCreate_unthreaded hdispatch))
  · rename_i hid
    exact hplain hid (by decide) (hthreads (handleThreadExit_unthreaded hdispatch))
  · rename_i hid
    exact hplain hid (by decide) (hthreads (handleThreadJoin_unthreaded hdispatch))
  · rename_i hid
    exact hplain hid (by decide) (hthreads (handleMutexCreate_unthreaded hdispatch))
  · rename_i hid
    exact hplain hid (by decide) (hthreads (handleMutexLock_unthreaded hdispatch))
  · rename_i hid
    exact hplain hid (by decide) (hthreads (handleMutexUnlock_unthreaded hdispatch))
  · rename_i hid
    exact hplain hid (by decide) (handleOpen_pages hon hok hdispatch)
  · rename_i hid
    exact hplain hid (by decide) (handleClose_pages hok hdispatch)
  · rename_i hid
    exact hplain hid (by decide) (handleCreate_pages hon hok hdispatch (hsafe.create hid))
  · rename_i hid
    exact hplain hid (by decide) (hthreads (handleSbrk_unthreaded hdispatch))
  · rename_i hid
    exact handleCreateProcess_memory h hok hplaced hon hid (hclean hid) hdispatch
  · rename_i hid
    obtain ⟨hok', m', hdelivers, hcoh'⟩ :=
      handleJoinProcess_memory h hok hon hactive hid (hsafe.status hid) hdispatch
    exact ⟨hok', handleJoinProcess_hostFiles hdispatch, m', hdelivers, hcoh'⟩
  · cases hdispatch

end

end SyscallHandler

namespace Kernel

variable {m : UserMemory} {k k' : Kernel} {pid : Pid} {self : TRef}

section
variable (h : Coherent m k) (hok : k.FilesOk) (hself : k.getCurrentThread = .ok self)
  (hparent : (k.thread self).parent = pid) (hactive : (k.processList pid).active = true)
include h hok hself hparent hactive

theorem handleSyscall_memory {id : Word} {ctx : SyscallContext} {r : SyscallResult}
    (hplaced : ProgramsPlaced k.host.files) (hon : k.OnCpu pid) (hsafe : CallSafe k ctx r)
    (hclean : ctx.id.toNat = SyscallID.SYS_CREATE_PROCESS → ∀ filename k₁ file pid,
      SyscallHandler.readFilename k ctx.arg0 = .ok (filename, k₁) →
      k₁.host.files filename = some file → Loader.validHeader file = true →
      Loader.freeSlot k = some pid → ∀ vpn, (k.pte pid vpn).valid = false)
    (hsyscall : k.handleSyscall id = .ok (ctx, r, k')) :
    k'.FilesOk ∧ k'.host.files = k.host.files ∧
      ∃ m', Delivers k.host.files k.exitCodes m pid ctx r m' ∧ Coherent m' k' := by
  obtain ⟨-, k₁, hdispatch, hcase⟩ := handleSyscall_cases hsyscall
  obtain ⟨hok₁, hhost₁, m', hdelivers, hcoh₁⟩ :=
    SyscallHandler.dispatch_memory h hok hplaced hon hself hparent hactive hsafe hclean hdispatch
  obtain ⟨hsame, hfiles⟩ := SamePages.of_unthreaded (deliver_unthreaded k₁ r)
  rcases hcase with ⟨-, rfl⟩ | ⟨-, current, -, hkill⟩
  · exact ⟨hok₁.congr hfiles, hsame.files.trans hhost₁, m', hdelivers, hcoh₁.samePages hsame⟩
  · obtain ⟨hcoh', hok'⟩ := terminate_memory (hcoh₁.samePages hsame) (hok₁.congr hfiles) hkill
    refine ⟨hok', ?_, m', hdelivers, hcoh'⟩
    rcases terminate_cases hkill with ⟨-, -, rfl⟩ | ⟨-, -, pmm, -, rfl⟩
    · exact hsame.files.trans hhost₁
    · exact hsame.files.trans hhost₁

theorem handlePageFault_memory {faultAddr : Addr} {handled : Bool}
    (hfault : k.handlePageFault faultAddr = .ok (handled, k')) :
    Coherent m k' ∧ k'.FilesOk ∧ k'.host.files = k.host.files := by
  obtain ⟨current, hcurrent, hfault⟩ := bind_eq_ok.1 hfault
  obtain rfl := Except.ok.inj (hself.symm.trans hcurrent)
  obtain ⟨⟨served, k₁⟩, hserve, hfault⟩ := bind_eq_ok.1 hfault
  rw [hparent] at hserve
  have hunpaged := servePageFault_unpaged hserve
  have hfiles : SameFiles k k₁ := by
    refine ⟨?_, fun pid' => ?_⟩
    · have hvfs := congrArg Kernel.vfs hunpaged
      exact hvfs
    · have hfd := congrArg Process.fdTable (process_of_unpaged hunpaged pid')
      exact hfd
  have hhost : k₁.host.files = k.host.files := (SameImages.of_unpaged hunpaged).1
  have hcoh₁ : Coherent m k₁ := by
    have hensured := h.ensure (pid, faultAddr >>> 12) hactive
    rcases servePageFault_cases h.frames hserve with ⟨-, rfl⟩ | ⟨-, hinvalid, hserved⟩
    · exact hensured
    · refine hensured.served ?_ ?_ rfl hserved
      · exact (active_of_unpaged (unpaged_setPTE _ _ _ _) pid).trans hactive
      · rw [pte_setPTE_self]
        exact hinvalid
  dsimp only at hfault
  split_ifs at hfault
  · obtain ⟨⟨killed, k₂⟩, hkill, hfault⟩ := bind_eq_ok.1 hfault
    dsimp only at hfault
    split_ifs at hfault
    cases hfault
    obtain ⟨hcoh', hok'⟩ := terminate_memory hcoh₁ (hok.congr hfiles) hkill
    refine ⟨hcoh', hok', ?_⟩
    rcases terminate_cases hkill with ⟨-, -, rfl⟩ | ⟨-, -, pmm, -, rfl⟩
    · exact hhost
    · exact hhost
  · cases hfault
    exact ⟨hcoh₁, hok.congr hfiles, hhost⟩

end

end Kernel

end Rv32umos
