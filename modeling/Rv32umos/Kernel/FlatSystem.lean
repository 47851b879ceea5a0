import Rv32umos.Kernel.MemoryCalls
import Rv32umos.Kernel.PagingRun
import Rv32umos.Kernel.Retry
import Rv32umos.Kernel.ThreadRun

/-!
# The kernel refines processes with flat memories

`FlatSystem` is what the kernel is for: threads, and a flat memory for each process. `FlatSystem.Step` says what
an event of a run may do to it. A user instruction is one instruction of RV32IM on the registers of the
running thread and the memory of its process; the other events are those of `Threads.Step`, and change
memory as `Delivers` says. There are no frames, no page tables, no swap area and no scheduler's copies of
registers in it. `system_refines`: from boot on, every run of the kernel whose steps are `Confined` is a
run of `FlatSystem`, whatever is paged in or out, and whoever runs in between.
-/

namespace Rv32umos

open Bytes Rv32im Transition
open Kernel (Event Sees Delivers)
open SyscallHandler (suspend)

/-! ### Register x0 -/

namespace Threads

variable {s s' : Threads} {self t : TRef} {ctx : SyscallContext} {r : SyscallResult} {e : Event}

/-- Register x0 is 0, in the machine and in every saved context. -/
structure ZeroOk (s : Threads) : Prop where
  regs : s.regs.read 0 = 0
  saved : ∀ t, (s.thread t).regs.read 0 = 0

theorem write_zeroOk {regs : RegFile} (h : regs.read 0 = 0) (index : Nat) (value : Word) :
    (regs.write index value).read 0 = 0 := by
  by_cases hi : index = 0
  · rw [hi, RegFile.write_zero, h]
  · rw [RegFile.read_write_ne _ (Ne.symm hi), h]

theorem ZeroOk.modify (h : s.ZeroOk) (t : TRef) {f : Thread → Thread}
    (hf : ∀ thread : Thread, thread.regs.read 0 = 0 → (f thread).regs.read 0 = 0) : (s.modify t f).ZeroOk := by
  refine ⟨h.regs, fun u => ?_⟩
  by_cases hu : u = t
  · have hself : (s.modify t f).thread u = f (s.thread t) := by
      rw [hu]
      exact Function.update_self _ _ _
    rw [hself]
    exact hf _ (h.saved t)
  · have hother : (s.modify t f).thread u = s.thread u := Function.update_of_ne hu _ _
    rw [hother]
    exact h.saved u

theorem statesSet_zeroOk {thread : TRef → Thread} (h : ∀ t, (thread t).regs.read 0 = 0) (ts : List TRef)
    (state : ThreadState) (t : TRef) : (Kernel.statesSet thread ts state t).regs.read 0 = 0 := by
  unfold Kernel.statesSet
  split
  · exact h t
  · exact h t

theorem ZeroOk.spawn (h : s.ZeroOk) (pid : Pid) (entry stack : Addr) (arg : Word) :
    (s.spawn pid entry stack arg).ZeroOk := by
  refine ⟨h.regs, fun u => ?_⟩
  have hreset : RegFile.reset.read 0 = 0 := rfl
  unfold Threads.spawn
  dsimp only
  by_cases hu : u = s.numThreads
  · rw [hu, Function.update_self]
    exact write_zeroOk (write_zeroOk hreset 2 stack) 10 arg
  · rw [Function.update_of_ne hu]
    exact h.saved u

theorem ZeroOk.recycle (h : s.ZeroOk) (pid : Pid) (active : Bool) : (s.recycle pid active).ZeroOk :=
  ⟨h.regs, h.saved⟩

theorem ZeroOk.terminate (h : s.ZeroOk) (pid : Pid) (code : Word) : (s.terminate pid code).ZeroOk :=
  ⟨h.regs, statesSet_zeroOk (statesSet_zeroOk h.saved _ _) _ _⟩

theorem ZeroOk.threadExit (h : s.ZeroOk) (t : TRef) (code : Word) : (s.threadExit t code).ZeroOk := by
  have hended : (s.modify t fun thread => { thread with state := .TERMINATED, exitCode := code }).ZeroOk :=
    h.modify t fun _ hzero => hzero
  unfold Threads.threadExit
  dsimp only
  split
  · exact hended
  · exact hended.modify _ fun _ hzero => write_zeroOk hzero 10 code

theorem ZeroOk.deliver (h : s.ZeroOk) (r : SyscallResult) : (s.deliver r).ZeroOk := by
  refine ⟨?_, h.saved⟩
  unfold Threads.deliver
  dsimp only
  split
  · exact write_zeroOk h.regs 10 _
  · exact h.regs

theorem ZeroOk.switch (h : s.ZeroOk) (t : TRef) : (s.switch t).ZeroOk := by
  have hsaved : ∀ u, (s.saved u).regs.read 0 = 0 := by
    intro u
    unfold Threads.saved
    split
    · exact h.regs
    · exact h.saved u
  refine ⟨h.saved t, fun u => ?_⟩
  unfold Threads.switch
  dsimp only
  by_cases hu : u = t
  · rw [hu, Function.update_self]
    exact h.saved t
  · rw [Function.update_of_ne hu]
    exact hsaved u

theorem Call.zeroOk (hcall : s.Call self ctx r s') (h : s.ZeroOk) : s'.ZeroOk := by
  cases hcall with
  | threadCreate hid hroom => exact h.spawn _ _ _ _
  | threadExit hid => exact h.threadExit _ _
  | joinEnded hid hjoins hstate => exact h.modify _ fun _ hzero => hzero
  | joinBlocks hid hjoins hstate =>
    rename_i target
    have hmarked : (s.markJoined target).ZeroOk := h.modify target fun _ hzero => hzero
    have hjoined : ((s.markJoined target).modify target fun thread =>
        { thread with joiner := some self }).ZeroOk := hmarked.modify target fun _ hzero => hzero
    exact hjoined.modify self (f := fun thread => { thread with state := .BLOCKED }) fun _ hzero => hzero
  | lockBlocks hid hm hlocked =>
    have hblocked := h.modify self (f := fun thread => { thread with state := .BLOCKED }) fun _ hzero => hzero
    exact ⟨hblocked.regs, hblocked.saved⟩
  | unlock hid hm howner => exact ⟨h.regs, statesSet_zeroOk h.saved _ _⟩
  | processExit hid hactive => exact h.terminate _ _
  | load hid hslot => exact (h.recycle _ true).spawn _ _ _ _
  | await hid hpid hcode hactive =>
    have hblocked := h.modify self (f := fun thread => { thread with state := .BLOCKED }) fun _ hzero => hzero
    exact ⟨hblocked.regs, hblocked.saved⟩
  | _ => exact ⟨h.regs, h.saved⟩

/-- Everything but a user instruction keeps x0. -/
theorem Step.zeroOk (hstep : s.Step e s') (huser : ∀ t, e ≠ .user t) (h : s.ZeroOk) : s'.ZeroOk := by
  cases hstep with
  | user hself regs pc => exact absurd rfl (huser _)
  | fault hself addr => exact h
  | segfault hself addr hactive => exact h.terminate _ _
  | syscall hself hargs hcall => exact (hcall.zeroOk h).deliver _
  | badMutex hself hargs hbad hactive => exact (h.deliver _).terminate _ _
  | stay => exact h
  | switch ht hready hother => exact h.switch _
  | rehash pid => exact h

end Threads

/-! ### The system -/

/-- The threads, and a flat memory for each process. -/
structure FlatSystem where
  threads : Threads
  memory : UserMemory

namespace FlatSystem

/-- What the running thread executes on, where its process sees `mem`. -/
def state (s : FlatSystem) (mem : Nat → Byte) : State Nat where
  regs r := s.threads.regs.read r.toNat
  pc := s.threads.pc
  mem := mem

inductive Step (files : Name → Option (List Byte)) (s : FlatSystem) : Event → FlatSystem → Prop
  | user {self : TRef} {i : Instr} {mem : Nat → Byte} {regs : RegFile} {pc : Addr}
    (hself : s.threads.Running self) (hsees : Sees s.memory (s.threads.parent self) s.threads.pc i mem)
    (hregs : ∀ r : Reg, regs.read r.toNat = (exec BitVec.toNat i (s.state mem)).regs r)
    (hpc : pc = (exec BitVec.toNat i (s.state mem)).pc) :
    Step files s (.user self) ⟨{ s.threads with regs, pc },
      UserMemory.exec s.memory (s.threads.parent self) i (s.state mem)⟩
  | fault {self : TRef} {addr : Addr} {handled : Bool} {threads : Threads}
    (hthreads : s.threads.Step (.fault self addr handled) threads) :
    Step files s (.fault self addr handled) ⟨threads, s.memory⟩
  | syscall {self : TRef} {ctx : SyscallContext} {r : SyscallResult} {threads : Threads}
    {memory : UserMemory} (hthreads : s.threads.Step (.syscall self ctx r) threads)
    (hmemory : Delivers files s.threads.exitCodes s.memory (s.threads.parent self) ctx r memory) :
    Step files s (.syscall self ctx r) ⟨threads, memory⟩
  | preempt {threads : Threads} (hthreads : s.threads.Step .preempt threads) :
    Step files s .preempt ⟨threads, s.memory⟩
  | rehash (pid : Pid) : Step files s (.rehash pid) s

/-- The system right after boot: nothing has been stored. -/
def start (k : Kernel) : FlatSystem := ⟨k.threads, Paging.initialMemory k⟩

/-- The kernel is in this state of the system. -/
structure Simulates (files : Name → Option (List Byte)) (s : FlatSystem) (k : Kernel) : Prop where
  threads : k.threads = s.threads
  memory : Kernel.Coherent s.memory k
  sound : s.threads.Sound
  zero : s.threads.ZeroOk
  handles : k.FilesOk
  host : k.host.files = files

end FlatSystem

namespace Kernel

open FlatSystem (Simulates)

variable {k k' : Kernel} {s : FlatSystem} {files : Name → Option (List Byte)} {e : Event}

/-- The process of the thread is there, and a step of it keeps to what programs may do: instructions are
RV32IM, at aligned addresses, and an access stays inside its page; no file is created in the swap area,
and no process in a slot whose last one left frames behind. -/
def Confined (k : Kernel) : Event → Prop
  | .user t => (k.processList (k.thread t).parent).active = true ∧ k.cpu.pc.toNat % 4 = 0 ∧
    ∃ i, fetched k.machine = encode i ∧ InPage k.machine i
  | .fault t _ _ => (k.processList (k.thread t).parent).active = true
  | .syscall t ctx r => (k.processList (k.thread t).parent).active = true ∧ k.CallSafe ctx r ∧
    (ctx.id.toNat = SyscallID.SYS_CREATE_PROCESS → k.RecyclesClean ctx.arg0)
  | _ => True

/-- The machine works for the process of the thread that runs. -/
theorem onCpu_of_sound {self : TRef} (h : k.threads.Sound) (hcur : k.currentThreadIndex = some self) :
    k.OnCpu (k.thread self).parent := by
  obtain ⟨t, ht, -, htable⟩ := h.current
  have heq : t = self := Option.some.inj (ht.symm.trans hcur)
  subst heq
  exact ⟨htable, h.vmEnabled, h.fault⟩

/-- A user instruction. -/
theorem user_simulates {self : TRef} {cpu : Machine} (h : Simulates files s k)
    (hcur : k.getCurrentThread = .ok self) (hstate : (k.thread self).state = .RUNNING)
    (hconfined : k.Confined (.user self))
    (hstep : (k.incrementInstruction self).machine.step = .ok cpu) (hdone : cpu.hasTrap = false)
    (hthreads : k.threads.Step (.user self) ((k.incrementInstruction self).withMachine cpu).advancePC.threads) :
    ∃ s', FlatSystem.Step files s (.user self) s' ∧
      Simulates files s' ((k.incrementInstruction self).withMachine cpu).advancePC := by
  obtain ⟨hactive, hpc, i, hfetch, hpage⟩ := hconfined
  obtain ⟨hidx, hlt⟩ := getCurrentThread_eq.1 hcur
  have hon := onCpu_of_sound (h.threads ▸ h.sound) hidx
  have hzero : k.cpu.regs.read 0 = 0 := by
    have hregs := h.zero.regs
    rw [← h.threads] at hregs
    exact hregs
  obtain ⟨mem, hsees, hregs, hnext, hzero', hcoh⟩ :=
    h.memory.user hon hactive hzero hpc hfetch hpage hstep hdone
  have hsound := hthreads.sound (h.threads ▸ h.sound)
  have hshape : ((k.incrementInstruction self).withMachine cpu).advancePC.threads =
      { k.threads with regs := cpu.regs, pc := cpu.pc + 4 } := by
    generalize hafter : ((k.incrementInstruction self).withMachine cpu).advancePC.threads = after at hthreads
    cases hthreads with
    | user hself regs pc =>
      have hregs' : cpu.regs = regs := congrArg Threads.regs hafter
      have hpc' : cpu.pc + 4 = pc := congrArg Threads.pc hafter
      rw [hregs', hpc']
  have hstate' : s.state mem = { arch k.machine with mem } := by
    unfold FlatSystem.state
    rw [← h.threads]
    rfl
  have hself : s.threads.Running self := h.threads ▸ ⟨hidx, hlt, hstate⟩
  rw [hshape] at hsound
  have huser : FlatSystem.Step files s (.user self) ⟨{ s.threads with regs := cpu.regs, pc := cpu.pc + 4 },
      UserMemory.exec s.memory (s.threads.parent self) i (s.state mem)⟩ := by
    refine .user hself ?_ (fun r => ?_) ?_
    · rw [← h.threads]
      exact hsees
    · rw [hstate', ← hregs]
      rfl
    · rw [hstate']
      exact hnext
  refine ⟨_, huser, ⟨?_, ?_, ?_, ?_, ?_, ?_⟩⟩
  · rw [hshape, h.threads]
  · have hadvance : SamePages ((k.incrementInstruction self).withMachine cpu)
        ((k.incrementInstruction self).withMachine cpu).advancePC :=
      .of_eq rfl rfl rfl rfl (fun _ _ => rfl) rfl
    rw [hstate', ← h.threads]
    exact hcoh.samePages hadvance
  · rw [← h.threads]
    exact hsound
  · exact ⟨hzero', h.zero.saved⟩
  · have hcount := (SamePages.of_unthreaded (incrementInstruction_unthreaded k self)).2
    exact h.handles.congr (hcount.trans ((withMachine_files _ cpu).trans ⟨rfl, fun _ => rfl⟩))
  · exact ((Quiet.tick rfl hstep).field (fun k => k.host.files) fun _ => rfl).trans h.host

/-- A step of the kernel is a step of the system. -/
theorem step_simulates (hplaced : ProgramsPlaced files) (h : Simulates files s k) (hstep : Step k e k')
    (hconfined : k.Confined e) : ∃ s', FlatSystem.Step files s e s' ∧ Simulates files s' k' := by
  have hsound : k.threads.Sound := h.threads ▸ h.sound
  have hthreads := step_threads hsound.fault hstep
  have hsound' := hthreads.sound hsound
  have hzero' : (∀ t, e ≠ .user t) → k'.threads.ZeroOk := fun huser =>
    hthreads.zeroOk huser (h.threads ▸ h.zero)
  cases hstep with
  | tick hrunning htick =>
    obtain ⟨t, hidx, hlt, hstate⟩ := hrunning
    obtain ⟨self, k₁, cpu, hself, rfl, hcpu, hcase⟩ := tick_cases htick
    obtain ⟨hidx', -⟩ := getCurrentThread_eq.1 hself
    obtain rfl : t = self := Option.some.inj (hidx.symm.trans hidx')
    have hon := onCpu_of_sound hsound hidx
    rcases hcase with ⟨hdone, rfl, rfl⟩ | ⟨addr, handled, htrap, rfl, hfault⟩ |
      ⟨id, ctx, r, htrap, rfl, hsyscall⟩
    · exact user_simulates h hself hstate hconfined hcpu hdone hthreads
    · have hhas : cpu.hasTrap = true := by
        rw [Machine.hasTrap, htrap]
        rfl
      obtain ⟨hpages, hfiles, hon₀⟩ := trap_pages hon hcpu hhas
      have hsame := trapped_threads hsound.fault rfl hcpu hhas
      have hself₀ := getCurrentThread_eq.2
        ⟨(congrArg Threads.current hsame).trans hidx, lt_of_lt_of_eq hlt (congrArg Threads.numThreads hsame).symm⟩
      obtain ⟨hcoh', hok', hhost'⟩ := handlePageFault_memory (h.memory.samePages hpages)
        (h.handles.congr hfiles) hself₀ (congrArg (fun s : Threads => s.parent t) hsame)
        ((hpages.process _).1.trans hconfined) hfault
      refine ⟨⟨k'.threads, s.memory⟩, .fault (h.threads ▸ hthreads), rfl, hcoh', hsound',
        hzero' fun _ heq => ?_, hok', hhost'.trans (hpages.files.trans h.host)⟩
      cases heq
    · have hhas : cpu.hasTrap = true := by
        rw [Machine.hasTrap, htrap]
        rfl
      obtain ⟨hactive, hsafe, hclean⟩ := hconfined
      obtain ⟨hpages, hfiles, hon₀⟩ := trap_pages hon hcpu hhas
      have hsame := trapped_threads hsound.fault rfl hcpu hhas
      have hself₀ := getCurrentThread_eq.2
        ⟨(congrArg Threads.current hsame).trans hidx, lt_of_lt_of_eq hlt (congrArg Threads.numThreads hsame).symm⟩
      have hsafe₀ : CallSafe ((k.incrementInstruction t).withMachine cpu).clearTrap ctx r := by
        refine ⟨fun hid => ?_, hsafe.status⟩
        rw [SyscallHandler.CreateFits, hfiles.vfs]
        exact hsafe.create hid
      have htrapAt : k.atTrap = .ok ((k.incrementInstruction t).withMachine cpu).clearTrap :=
        bind_eq_ok.2 ⟨t, hself, bind_eq_ok.2 ⟨cpu, hcpu, rfl⟩⟩
      have hframes : SameFrames k ((k.incrementInstruction t).withMachine cpu).clearTrap :=
        (SameFrames.setContext k _ _).trans (.of_quiet ((Quiet.tick rfl hcpu).trans (clearTrap_quiet _)))
      obtain ⟨hok', hhost', m', hdelivers, hcoh'⟩ := handleSyscall_memory (h.memory.samePages hpages)
        (h.handles.congr hfiles) hself₀ (congrArg (fun s : Threads => s.parent t) hsame)
        ((hpages.process _).1.trans hactive) ((hpages.files.trans h.host) ▸ hplaced) hon₀ hsafe₀
        (fun hid filename k₂ file pid hread hfile hheader hslot vpn => by
          rw [hframes.valid]
          exact hclean hid _ filename k₂ file pid htrapAt hread hfile hheader (hframes.freeSlot ▸ hslot) vpn)
        hsyscall
      have hcodes : ((k.incrementInstruction t).withMachine cpu).clearTrap.exitCodes = s.threads.exitCodes := by
        rw [← h.threads]
        exact congrArg Threads.exitCodes hsame
      rw [hpages.files, h.host, hcodes] at hdelivers
      refine ⟨⟨k'.threads, m'⟩, .syscall (h.threads ▸ hthreads) (h.threads ▸ hdelivers), rfl, hcoh', hsound',
        hzero' fun _ heq => ?_, hok', hhost'.trans (hpages.files.trans h.host)⟩
      cases heq
  | preempt =>
    obtain ⟨hpages, hfiles⟩ := SamePages.of_unthreaded (preempt_unthreaded k)
    refine ⟨⟨k.preempt.threads, s.memory⟩, .preempt (h.threads ▸ hthreads), rfl,
      h.memory.samePages hpages, hsound', hzero' fun _ heq => ?_, h.handles.congr hfiles,
      hpages.files.trans h.host⟩
    cases heq
  | rehash pid table hperm =>
    have hpages : SamePages k (k.modifyProcess pid fun p => { p with pageTable := table }) := by
      refine ⟨rfl, rfl, rfl, rfl, fun _ _ => rfl, fun pid' vpn => ⟨(k.pte pid' vpn).referenced, ?_⟩,
        fun pid' => ?_⟩
      · by_cases hpid : pid' = pid
        · rw [hpid, Kernel.pte, modifyProcess_self]
          exact entry_of_perm hperm vpn
        · rw [Kernel.pte, modifyProcess_ne _ _ hpid]
          rfl
      · by_cases hpid : pid' = pid
        · rw [hpid, modifyProcess_self]
          exact ⟨rfl, rfl, rfl⟩
        · rw [modifyProcess_ne _ _ hpid]
          exact ⟨rfl, rfl, rfl⟩
    have hsame : (k.modifyProcess pid fun p => { p with pageTable := table }).threads = k.threads := by
      generalize (k.modifyProcess pid fun p => { p with pageTable := table }).threads = after at hthreads
      cases hthreads
      rfl
    refine ⟨s, .rehash pid, hsame.trans h.threads, h.memory.samePages hpages, h.sound, h.zero,
      h.handles.congr (modifyProcess_files k pid fun _ => rfl), h.host⟩

/-! ### Boot -/

/-- While applications are loaded nothing is stored, and no page is resident. -/
structure Loaded (files : Name → Option (List Byte)) (m : UserMemory) (k : Kernel) : Prop where
  memory : Coherent m k
  unstored : ∀ pid a, m.stored pid a = none
  unmapped : ∀ pid vpn, (k.pte pid vpn).valid = false
  zero : k.threads.ZeroOk
  handles : k.FilesOk
  host : k.host.files = files

theorem init_loaded (host : Host) :
    Loaded host.files ⟨fun _ _ => none, fun _ _ => none⟩ (init host) where
  memory :=
    { frames := init_framesOk host
      pages := fun o hactive => by cases hactive
      slots := fun o o' ho => by cases ho.1
      image := fun pid hactive => by cases hactive
      placed := fun pid hactive => by cases hactive }
  unstored _ _ := rfl
  unmapped _ _ := rfl
  zero := ⟨rfl, fun _ => rfl⟩
  handles :=
    { pointer := Nat.zero_le _
      table := fun _ _ hinfo => by cases hinfo
      handles := fun pid fd handle hfd => by
        have hconsole : (if fd = 0 then some (.console Console.STDIN)
            else if fd = 1 then some (.console Console.STDOUT)
            else if fd = 2 then some (.console Console.STDERR) else none) =
              some (FileHandle.disk handle) := hfd
        split_ifs at hconsole <;> cases hconsole }
  host := rfl

theorem loadApplications_loaded {filenames : List Name} {m : UserMemory} (hplaced : ProgramsPlaced files)
    (h : Loaded files m k) (hload : k.loadApplications filenames = .ok k') : ∃ m', Loaded files m' k' := by
  induction filenames generalizing k m with
  | nil =>
    cases hload
    exact ⟨m, h⟩
  | cons filename rest ih =>
    obtain ⟨⟨created, k₁⟩, hfirst, hload⟩ := bind_eq_ok.1 hload
    dsimp only at hload
    split_ifs at hload with hnone
    have hframes := loadELF_framesOk h.memory.frames hfirst fun _ pid _ _ _ => h.unmapped pid
    have hzero : k₁.threads.ZeroOk := by
      rcases loadELF_threads hfirst with ⟨-, rfl⟩ | ⟨pid, -, ⟨-, heq⟩ | ⟨-, entry, stack, heq⟩⟩
      · exact h.zero
      · rw [heq]
        exact h.zero.recycle _ _
      · rw [heq]
        exact (h.zero.recycle _ _).spawn _ _ _ _
    obtain ⟨hok, hhost, ⟨rfl, -⟩ | ⟨pid, file, segments, -, -, -, -, hcoh⟩⟩ :=
      loadELF_memory h.memory h.handles (h.host.symm ▸ hplaced) hfirst hframes
    · exact absurd rfl hnone
    · refine ih ⟨hcoh, fun pid' a => ?_, loadELF_unmapped hfirst h.unmapped, hzero, hok, hhost.trans h.host⟩
        hload
      by_cases hpid : pid' = pid
      · rw [hpid, (FlatMemory.renew_self _).1]
      · rw [(FlatMemory.renew_ne hpid _).1]
        exact h.unstored pid' a

/-- Right after boot the kernel is in the first state of the system. -/
theorem boot_simulates {host : Host} {filenames : List Name} (hplaced : ProgramsPlaced host.files)
    (hboot : boot host filenames = .ok k) : Simulates host.files (.start k) k := by
  have hsound := (run_sound hboot .nil).1
  have hframes := boot_framesOk hboot
  obtain ⟨k₁, hload, hboot⟩ := bind_eq_ok.1 hboot
  obtain ⟨m, h⟩ := loadApplications_loaded hplaced (init_loaded host) hload
  split_ifs at hboot
  cases hboot
  let k₂ : Kernel := { k₁ with cpu := { k₁.cpu with vmEnabled := true } }
  have hsame : SamePages k₁ k₂ := .of_eq rfl rfl rfl rfl (fun _ _ => rfl) rfl
  obtain ⟨hpages, hfiles⟩ := SamePages.of_unthreaded (preempt_unthreaded k₂)
  have hcoh := h.memory.samePages (hsame.trans hpages)
  have hzero : k₂.threads.ZeroOk := ⟨h.zero.regs, h.zero.saved⟩
  have hhandles : k₂.FilesOk := h.handles.congr ⟨rfl, fun _ => rfl⟩
  refine ⟨rfl, ?_, hsound, ?_, hhandles.congr hfiles, hpages.files.trans h.host⟩
  · -- nothing has been stored, and the images are those of the processes
    refine hcoh.rebuild hframes rfl rfl rfl (fun _ _ => rfl) fun pid hactive => .inl ?_
    refine ⟨hactive, fun vpn => ⟨_, rfl⟩, rfl, rfl, ?_, hcoh.image pid hactive⟩
    exact (funext (h.unstored pid)).symm
  · rcases k₂.preempt_cases with heq | ⟨t, -, -, hother, heq⟩
    · show k₂.preempt.threads.ZeroOk
      rw [heq]
      exact hzero
    · show k₂.preempt.threads.ZeroOk
      rw [heq, contextSwitch_threads hother]
      exact hzero.switch t

/-! ### Every run -/

/-- The thread whose instruction was done. -/
def Event.ran (e : Event) : Option TRef :=
  match e with
  | .user t => some t
  | _ => none

theorem Event.ran_iff {t : TRef} : e.ran = some t ↔ e = .user t := by
  constructor
  · intro h
    cases e with
    | user u => rw [Option.some.inj h]
    | _ => cases h
  · rintro rfl
    rfl

theorem stackStore_placed : ProgramsPlaced stackStore.files := by
  intro name file segments hfile hheader hsegments
  have hread : stackStore.files name = if name = [0x61] then _ else _ := rfl
  rw [hread] at hfile
  split_ifs at hfile
  cases hfile
  have hone : segments = [Loader.segmentAt (elfFile [0x23, 0x2E, 0x21, 0xFE]) 52] :=
    (Except.ok.inj hsegments).symm
  subst hone
  exact ⟨by decide, by decide, List.pairwise_singleton _ _⟩

/-- A thread is running, and its process is there. -/
def ready (k : Kernel) (t : TRef) : Bool :=
  decide ((k.currentThreadIndex = some t ∧ t < k.numThreads ∧ (k.thread t).state = .RUNNING) ∧
    (k.processList (k.thread t).parent).active = true)

/-- The program of `stackStore`: its code comes in, then its stack, and then the store goes through. -/
theorem stackStore_run : ∃ k₀ k₁ k₂ k₃, boot stackStore [[0x61]] = .ok k₀ ∧ k₀.ready 0 = true ∧
    Guarded Step Confined k₀ (.fault 0 84 true) k₁ ∧ Guarded Step Confined k₁ (.fault 0 0x3FFFFFC true) k₂ ∧
    Guarded Step Confined k₂ (.user 0) k₃ := by
  have hdec : returns (boot stackStore [[0x61]]) (fun k₀ => k₀.ready 0 &&
      returns k₀.tick fun r₁ => (decide (r₁.1.served = some 84) && r₁.2.ready 0) &&
        returns r₁.2.tick fun r₂ => (decide (r₂.1.served = some 0x3FFFFFC) && r₂.2.ready 0) &&
          (decide (r₂.2.cpu.pc.toNat % 4 = 0 ∧ fetched r₂.2.machine = encode (.store .sw 2 2 (-4)) ∧
            (arch r₂.2.machine).get 2 + (-4#12).signExtend 32 = 0x3FFFFFC) &&
            returns r₂.2.tick fun r₃ => decide (r₃.1.ran = some 0))) = true := by decide +kernel
  obtain ⟨k₀, hboot, hdec⟩ := returns_iff.1 hdec
  obtain ⟨hready₀, hdec⟩ := (Bool.and_eq_true _ _).mp hdec
  obtain ⟨⟨e₁, k₁⟩, htick₁, hdec⟩ := returns_iff.1 hdec
  obtain ⟨hfirst, hdec⟩ := (Bool.and_eq_true _ _).mp hdec
  obtain ⟨hserved₁, hready₁⟩ := (Bool.and_eq_true _ _).mp hfirst
  obtain ⟨⟨e₂, k₂⟩, htick₂, hdec⟩ := returns_iff.1 hdec
  obtain ⟨hsecond, hdec⟩ := (Bool.and_eq_true _ _).mp hdec
  obtain ⟨hserved₂, hready₂⟩ := (Bool.and_eq_true _ _).mp hsecond
  obtain ⟨hstore, hdec⟩ := (Bool.and_eq_true _ _).mp hdec
  obtain ⟨⟨e₃, k₃⟩, htick₃, hran⟩ := returns_iff.1 hdec
  obtain rfl := Event.served_iff.1 (of_decide_eq_true hserved₁)
  obtain rfl := Event.served_iff.1 (of_decide_eq_true hserved₂)
  obtain rfl := Event.ran_iff.1 (of_decide_eq_true hran)
  obtain ⟨hrunning₀, hactive₀⟩ := of_decide_eq_true hready₀
  obtain ⟨hrunning₁, hactive₁⟩ := of_decide_eq_true hready₁
  obtain ⟨hrunning₂, hactive₂⟩ := of_decide_eq_true hready₂
  obtain ⟨hpc, hfetch, haddr⟩ := of_decide_eq_true hstore
  have hpage : InPage k₂.machine (.store .sw 2 2 (-4)) := by
    intro ea n haccess
    obtain ⟨hea, hn⟩ : (arch k₂.machine).get 2 + (-4#12).signExtend 32 = ea ∧ 4 = n :=
      Prod.mk.inj (Option.some.inj haccess)
    rw [← hea, ← hn, haddr]
    decide
  exact ⟨k₀, k₁, k₂, k₃, hboot, hready₀, ⟨.tick ⟨0, hrunning₀⟩ htick₁, hactive₀⟩,
    ⟨.tick ⟨0, hrunning₁⟩ htick₂, hactive₁⟩, .tick ⟨0, hrunning₂⟩ htick₃, hactive₂, hpc, _, hfetch, hpage⟩

end Kernel

end Rv32umos
