import Rv32umos.Kernel.SameFrames
import Rv32umos.Kernel.Lifecycle

/-!
# Who owns a frame

The invariant `FramesOk` along whole runs. Page faults, evictions and terminations keep it.
`Process::terminate` frees the frames of a process and leaves its page table as it was, and
`Process::recycle` frees the frames of that same table once more: a creation keeps the invariant
when the slot it recycles has no valid entry left (`recycle_framesOk`), and then every run keeps it
(`frames_owned`). In the run of two programs in `free_while_mapped` a frame is freed while the
second process still maps it.
-/

namespace Rv32umos

open Transition

namespace Kernel

variable {k k' : Kernel} {pid : Pid}

/-! ### Giving back the frames of a process -/

theorem mul_pageSize (ppn : Addr) :
    ppn * BitVec.ofNat 32 KERNEL_PAGE_SIZE = frameAddr ppn.toNat := by
  rw [frameAddr, BitVec.ofNat_mul, BitVec.ofNat_toNat, BitVec.setWidth_eq]

/-- The loop of `wipeMemory` over the entries `l` of a process: the pages in `l` lose their
frames, and nothing but the physical memory manager changes. -/
theorem wipe_loop (k : Kernel) (pid : Pid) {l : List (Addr × PTE)} {pmm : PhysicalMemoryManager}
    {holds : Page → Option Nat}
    (hkeys : (l.map Prod.fst).Nodup) (hok : FrameTableOk pmm holds)
    (hheld : ∀ e ∈ l, e.2.valid = true → holds (pid, e.1) = some e.2.ppn.toNat) :
    ∃ pmm' holds', l.foldlM (fun k e => k.wipePTE e.2) { k with pmm } = .ok { k with pmm := pmm' } ∧
      FrameTableOk pmm' holds' ∧
      (∀ e ∈ l, e.2.valid = true → holds' (pid, e.1) = none) ∧
      (∀ o, (∀ e ∈ l, o = (pid, e.1) → e.2.valid = false) → holds' o = holds o) := by
  induction l generalizing pmm holds with
  | nil => exact ⟨pmm, holds, rfl, hok, nofun, fun _ _ => rfl⟩
  | cons head rest ih =>
    rw [List.map_cons, List.nodup_cons] at hkeys
    have hne : ∀ e ∈ rest, ((pid, e.1) : Page) ≠ (pid, head.1) := by
      intro e he heq
      exact hkeys.1 ((Prod.mk.inj heq).2 ▸ List.mem_map_of_mem he)
    rw [List.foldlM_cons]
    unfold wipePTE
    by_cases hvalid : head.2.valid = true
    · rw [if_pos hvalid, mul_pageSize]
      obtain ⟨pmm₁, hfree, -, hok₁⟩ := hok.freeFrame (hheld head List.mem_cons_self hvalid)
      obtain ⟨pmm', holds', hrest, hok', hwiped, hkept⟩ := ih hkeys.2 hok₁ fun e he hv => by
        rw [Function.update_of_ne (hne e he)]
        exact hheld e (List.mem_cons_of_mem _ he) hv
      refine ⟨pmm', holds', ?_, hok', fun e he hv => ?_, fun o ho => ?_⟩
      · exact bind_eq_ok.2 ⟨_, bind_eq_ok.2 ⟨pmm₁, hfree, rfl⟩, hrest⟩
      · rcases List.mem_cons.1 he with rfl | he
        · refine (hkept _ fun e' he' heq => absurd heq.symm (hne e' he')).trans ?_
          exact Function.update_self _ _ _
        · exact hwiped e he hv
      · rw [hkept o fun e he => ho e (List.mem_cons_of_mem _ he)]
        refine Function.update_of_ne (fun heq => ?_) _ _
        rw [ho head List.mem_cons_self heq] at hvalid
        cases hvalid
    · rw [if_neg hvalid]
      obtain ⟨pmm', holds', hrest, hok', hwiped, hkept⟩ :=
        ih hkeys.2 hok fun e he => hheld e (List.mem_cons_of_mem _ he)
      refine ⟨pmm', holds', hrest, hok', fun e he hv => ?_, fun o ho => ?_⟩
      · rcases List.mem_cons.1 he with rfl | he
        · exact absurd hv hvalid
        · exact hwiped e he hv
      · exact hkept o fun e he => ho e (List.mem_cons_of_mem _ he)

theorem pageFrame_of_inactive {o : Page} (h : (k.processList o.1).active = false) :
    k.pageFrame o = none := by
  rw [pageFrame, h, Bool.false_and]
  rfl

/-- Wiping the memory of an active process frees the frames of all its pages. -/
theorem wipeMemory_of_active (hok : k.FramesOk) (hactive : (k.processList pid).active = true) :
    ∃ pmm, k.wipeMemory pid = .ok { k with pmm } ∧
      FrameTableOk pmm fun o => if o.1 = pid then none else k.pageFrame o := by
  have hpte : ∀ e ∈ (k.processList pid).pageTable.toList, k.pte pid e.1 = e.2 := fun e he =>
    PageTable.entry_of_find? (PageTable.mem_toList.1 he)
  obtain ⟨pmm, holds, hloop, hok', hwiped, hkept⟩ :=
    wipe_loop k pid (PageTable.toList_keys_nodup _) hok fun e he hvalid => by
      rw [← hpte e he] at hvalid ⊢
      exact pageFrame_of_valid hactive hvalid
  refine ⟨pmm, hloop, ?_⟩
  have hholds : holds = fun o => if o.1 = pid then none else k.pageFrame o := by
    funext ⟨pid', vpn⟩
    by_cases hpid : pid' = pid
    · subst hpid
      rw [if_pos rfl]
      by_cases hvalid : (k.pte pid' vpn).valid = true
      · exact hwiped (vpn, k.pte pid' vpn) (PageTable.mem_toList.2 (PageTable.find?_of_valid hvalid))
          hvalid
      · have hinvalid := Bool.eq_false_of_not_eq_true hvalid
        rw [hkept (pid', vpn) fun e he heq => ?_]
        · exact pageFrame_of_invalid hinvalid
        · rw [← hpte e he, ← (Prod.mk.inj heq).2]
          exact hinvalid
    · rw [if_neg hpid]
      exact hkept _ fun e _ heq => absurd (Prod.mk.inj heq).1 hpid
  exact hholds ▸ hok'

/-- Wiping the memory of a process without resident pages changes nothing. -/
theorem wipeMemory_of_clean (h : ∀ vpn, (k.pte pid vpn).valid = false) :
    k.wipeMemory pid = .ok k := by
  have hloop : ∀ l : List (Addr × PTE), (∀ e ∈ l, e.2.valid = false) →
      l.foldlM (fun k e => k.wipePTE e.2) k = .ok k := by
    intro l hl
    induction l with
    | nil => rfl
    | cons head rest ih =>
      rw [List.foldlM_cons, wipePTE, hl head List.mem_cons_self]
      exact ih fun e he => hl e (List.mem_cons_of_mem _ he)
  refine hloop _ fun e he => ?_
  rw [← PageTable.entry_of_find? (PageTable.mem_toList.1 he)]
  exact h e.1

/-! ### Termination and creation -/

/-- A change of one process after which none of its pages is resident. -/
theorem framesOk_unmapped {f : Process → Process}
    (hok : FrameTableOk k.pmm fun o => if o.1 = pid then none else k.pageFrame o)
    (hf : (f (k.processList pid)).active = false ∨
      ∀ vpn, ((f (k.processList pid)).pageTable.entry vpn).valid = false) :
    (k.modifyProcess pid f).FramesOk := by
  have hframe : (k.modifyProcess pid f).pageFrame =
      fun o => if o.1 = pid then none else k.pageFrame o := by
    funext o
    by_cases hpid : o.1 = pid
    · rw [if_pos hpid]
      subst hpid
      rcases hf with hf | hf
      · exact pageFrame_of_inactive (by rw [modifyProcess_self]; exact hf)
      · exact pageFrame_of_invalid (by rw [pte, modifyProcess_self]; exact hf o.2)
    · rw [if_neg hpid, pageFrame, pageFrame, pte, modifyProcess_ne k f hpid]
      rfl
  rw [FramesOk, hframe]
  exact hok

theorem terminate_framesOk {exitCode : Word} {ok : Bool} (hok : k.FramesOk)
    (h : k.terminate pid exitCode = .ok (ok, k')) : k'.FramesOk := by
  rcases terminate_cases h with ⟨-, -, rfl⟩ | ⟨-, hactive, pmm, hwipe, rfl⟩
  · exact hok
  · obtain ⟨pmm', hwipe', hok'⟩ := wipeMemory_of_active hok hactive
    have hpmm := congrArg Kernel.pmm (Except.ok.inj (hwipe.symm.trans hwipe'))
    dsimp only at hpmm
    subst hpmm
    exact framesOk_unmapped hok' (.inl rfl)

/-- A process none of whose pages is resident. -/
theorem FramesOk.without (hok : k.FramesOk) (hpid : ∀ vpn, k.pageFrame (pid, vpn) = none) :
    FrameTableOk k.pmm fun o => if o.1 = pid then none else k.pageFrame o := by
  have hframe : (fun o : Page => if o.1 = pid then none else k.pageFrame o) = k.pageFrame := by
    funext o
    split_ifs with h
    · exact (h ▸ hpid o.2).symm
    · rfl
  rw [hframe]
  exact hok

theorem freshSlot_unmapped (k : Kernel) (pid : Pid) (name : Name) (segments : List Segment)
    (pmm : PhysicalMemoryManager) (vpn : Addr) :
    ((Loader.freshSlot k pid name segments pmm).pte pid vpn).valid = false := by
  rw [pte, Loader.freshSlot, modifyProcess_self]
  rfl

theorem withThread_frames (k : Kernel) (pid : Pid) (thread : Thread) :
    SameFrames k (k.withThread pid thread) := by
  have hthread : SameFrames k { k with
    thread := Function.update k.thread k.numThreads { thread with state := .READY }
    numThreads := k.numThreads + 1 } := .of_eq rfl rfl rfl rfl
  exact hthread.trans (.modifyProcess _ pid _ (fun _ => rfl) fun _ => rfl)

/-- A creation in a slot whose page table has no valid entry. -/
theorem loadELF_framesOk {filename : Name} {created : Option Pid} (hok : k.FramesOk)
    (h : Loader.loadELF k filename = .ok (created, k'))
    (hclean : ∀ file pid, k.host.files filename = some file → Loader.validHeader file = true →
      Loader.freeSlot k = some pid → ∀ vpn, (k.pte pid vpn).valid = false) : k'.FramesOk := by
  rcases Loader.loadELF_cases h with
    ⟨-, rfl⟩ | ⟨file, pid, pmm, segments, hfile, hheader, hslot, hwipe, hcase⟩
  · exact hok
  · have hunmapped := hclean file pid hfile hheader hslot
    have hpmm := congrArg Kernel.pmm (Except.ok.inj (hwipe.symm.trans (wipeMemory_of_clean hunmapped)))
    dsimp only at hpmm
    subst hpmm
    have hfresh : (Loader.freshSlot k pid filename segments k.pmm).FramesOk :=
      framesOk_unmapped (hok.without fun vpn => pageFrame_of_invalid (hunmapped vpn))
        (.inr fun vpn => rfl)
    have hwithout := hfresh.without fun vpn => pageFrame_of_invalid (freshSlot_unmapped ..)
    rcases hcase with ⟨-, rfl⟩ | ⟨-, rfl⟩
    · exact framesOk_unmapped hwithout (.inl rfl)
    · exact (withThread_frames _ _ _).framesOk hfresh

/-! ### One step -/

/-- The kernel when the trap that the current instruction leaves is handled. -/
def atTrap (k : Kernel) : Except Halt Kernel := do
  let self ← k.getCurrentThread
  let k := k.incrementInstruction self
  let cpu ← k.machine.step
  .ok (k.withMachine cpu).clearTrap

/-- A `SYS_CREATE_PROCESS` that gets as far as `recycle` finds no valid entry in the page table of
the slot. -/
def RecyclesClean (k : Kernel) (pathAddr : Word) : Prop :=
  ∀ k₁ filename k₂ file pid, k.atTrap = .ok k₁ →
    SyscallHandler.readFilename k₁ pathAddr = .ok (filename, k₂) →
    k₂.host.files filename = some file → Loader.validHeader file = true →
    Loader.freeSlot k = some pid → ∀ vpn, (k.pte pid vpn).valid = false

/-- What a step must meet to keep the frames in order. -/
def FrameSafe (k : Kernel) : Event → Prop
  | .syscall _ ctx _ => ctx.id.toNat = SyscallID.SYS_CREATE_PROCESS → k.RecyclesClean ctx.arg0
  | .fault t _ _ => (k.processList (k.thread t).parent).active = true
  | _ => True

theorem handlePageFault_framesOk {faultAddr : Addr} {handled : Bool} {t : TRef} (hok : k.FramesOk)
    (hcurrent : k.getCurrentThread = .ok t)
    (hactive : (k.processList (k.thread t).parent).active = true)
    (h : k.handlePageFault faultAddr = .ok (handled, k')) : k'.FramesOk := by
  obtain ⟨current, hcurrent', h⟩ := bind_eq_ok.1 h
  obtain rfl := Except.ok.inj (hcurrent.symm.trans hcurrent')
  obtain ⟨⟨handled', k₁⟩, hserve, h⟩ := bind_eq_ok.1 h
  have hok₁ : k₁.FramesOk := by
    rcases servePageFault_cases hok hserve with ⟨-, rfl⟩ | ⟨-, -, hserved⟩
    · rw [FramesOk, pageFrame_ensure]
      exact hok
    · refine (hserved.framesOk ?_ ?_).1
      · rw [FramesOk, pageFrame_ensure]
        exact hok
      · exact (active_of_unpaged (unpaged_setPTE _ _ _ _) _).trans hactive
  dsimp only at h
  split_ifs at h
  · obtain ⟨⟨killed, k₂⟩, hkill, h⟩ := bind_eq_ok.1 h
    dsimp only at h
    split_ifs at h
    cases h
    exact terminate_framesOk hok₁ hkill
  · cases h
    exact hok₁

theorem deliver_frames (k : Kernel) (r : SyscallResult) : SameFrames k (k.deliver r) := by
  unfold deliver
  split <;> split <;> exact .of_eq rfl rfl rfl rfl

theorem handleSyscall_framesOk {id : Word} {ctx : SyscallContext} {r : SyscallResult}
    (hok : k.FramesOk) (h : k.handleSyscall id = .ok (ctx, r, k'))
    (hcreate : ctx.id.toNat = SyscallID.SYS_CREATE_PROCESS → ∀ filename k₁ file pid,
      SyscallHandler.readFilename k ctx.arg0 = .ok (filename, k₁) →
      k₁.host.files filename = some file → Loader.validHeader file = true →
      Loader.freeSlot k = some pid → ∀ vpn, (k.pte pid vpn).valid = false) : k'.FramesOk := by
  obtain ⟨-, k₁, hdispatch, hcase⟩ := handleSyscall_cases h
  have hok₁ : k₁.FramesOk := by
    rcases SyscallHandler.dispatch_frames hdispatch with
      hsame | ⟨-, pid, hterminate⟩ | ⟨hid, filename, k₂, created, hread, hload⟩
    · exact hsame.framesOk hok
    · exact terminate_framesOk hok hterminate
    · have hsame := SameFrames.of_quiet (SyscallHandler.readFilename_quiet hread)
      refine loadELF_framesOk (hsame.framesOk hok) hload fun file pid hfile hheader hslot vpn => ?_
      rw [hsame.valid]
      exact hcreate hid filename k₂ file pid hread hfile hheader (hsame.freeSlot ▸ hslot) vpn
  have hdelivered := (deliver_frames k₁ r).framesOk hok₁
  rcases hcase with ⟨-, rfl⟩ | ⟨-, current, -, hkill⟩
  · exact hdelivered
  · exact terminate_framesOk hdelivered hkill

theorem tick_framesOk {e : Event} (hok : k.FramesOk) (h : k.tick = .ok (e, k'))
    (hsafe : k.FrameSafe e) : k'.FramesOk := by
  obtain ⟨self, k₁, cpu, hself, hk₁, hcpu, hcase⟩ := tick_cases h
  have hquiet : Quiet (k.setContext cpu.regs cpu.pc) (k₁.withMachine cpu).clearTrap :=
    (Quiet.tick hk₁ hcpu).trans (clearTrap_quiet _)
  have hsame : SameFrames k (k₁.withMachine cpu).clearTrap :=
    (SameFrames.setContext k _ _).trans (.of_quiet hquiet)
  rcases hcase with ⟨-, rfl, rfl⟩ | ⟨addr, handled, -, rfl, hfault⟩ | ⟨id, ctx, r, -, rfl, hsyscall⟩
  · have huser : SameFrames k (k₁.withMachine cpu) :=
      (SameFrames.setContext k _ _).trans (.of_quiet (Quiet.tick hk₁ hcpu))
    exact (huser.trans (.setContext _ _ _)).framesOk hok
  · refine handlePageFault_framesOk (hsame.framesOk hok) (hquiet.getCurrentThread.trans hself) ?_ hfault
    rw [hquiet.active, hquiet.thread]
    exact hsafe
  · refine handleSyscall_framesOk (hsame.framesOk hok) hsyscall fun hid filename k₂ file pid hread
      hfile hheader hslot vpn => ?_
    rw [hsame.valid]
    have htrap : k.atTrap = .ok (k₁.withMachine cpu).clearTrap := by
      subst hk₁
      exact bind_eq_ok.2 ⟨self, hself, bind_eq_ok.2 ⟨cpu, hcpu, rfl⟩⟩
    exact hsafe hid _ filename k₂ file pid htrap hread hfile hheader
      (hsame.freeSlot ▸ hslot) vpn

theorem preempt_frames (k : Kernel) : SameFrames k k.preempt := by
  rcases k.preempt_cases with h | ⟨t, -, -, -, h⟩
  · rw [h]
    exact .refl k
  · rw [h, contextSwitch_eq]
    exact .of_eq rfl rfl rfl rfl

/-- The order of a page table's iteration does not matter to its entries. -/
theorem entry_of_perm {table table' : PageTable} (h : table'.toList.Perm table.toList) (vpn : Addr) :
    table'.entry vpn = table.entry vpn := by
  have hfind : table'.find? vpn = table.find? vpn := by
    refine Option.ext fun e => ?_
    rw [← PageTable.mem_toList, ← PageTable.mem_toList]
    exact h.mem_iff
  rw [PageTable.entry, PageTable.entry, hfind]

theorem rehash_frames {table : PageTable}
    (h : table.toList.Perm (k.processList pid).pageTable.toList) :
    SameFrames k (k.modifyProcess pid fun p => { p with pageTable := table }) := by
  have hpte : ∀ pid' vpn, (k.modifyProcess pid fun p => { p with pageTable := table }).pte pid' vpn =
      k.pte pid' vpn := by
    intro pid' vpn
    by_cases hpid : pid' = pid
    · subst hpid
      rw [pte, modifyProcess_self]
      exact entry_of_perm h vpn
    · rw [pte, modifyProcess_ne k _ hpid]
      rfl
  refine ⟨rfl, rfl, fun pid' vpn => by rw [hpte], fun pid' => ?_, rfl⟩
  by_cases hpid : pid' = pid
  · rw [hpid, modifyProcess_self]
  · rw [modifyProcess_ne k _ hpid]

theorem step_framesOk {e : Event} (hok : k.FramesOk) (h : Step k e k') (hsafe : k.FrameSafe e) :
    k'.FramesOk := by
  cases h with
  | tick hrunning htick => exact tick_framesOk hok htick hsafe
  | preempt => exact (preempt_frames k).framesOk hok
  | rehash pid table hperm => exact (rehash_frames hperm).framesOk hok

/-! ### Boot -/

theorem init_framesOk (host : Host) : (init host).FramesOk := by
  have hframe : (init host).pageFrame = fun _ => none :=
    funext fun o => pageFrame_of_inactive rfl
  rw [FramesOk, hframe]
  have hnodup : PhysicalMemoryManager.new.freeFrames.Nodup := by decide
  refine ⟨hnodup, fun frame => ?_, fun ppn hall => ?_, fun ppn o => ?_⟩
  · simp only [init, PhysicalMemoryManager.new, List.mem_reverse, List.mem_map, List.mem_range,
      and_true, frameAddr, MEMORY_BASE, Nat.zero_add]
    constructor
    · rintro ⟨i, hi, rfl⟩
      exact ⟨i, hi, rfl⟩
    · rintro ⟨i, hi, rfl⟩
      exact ⟨i, hi, rfl⟩
  · cases hall
  · constructor
    · intro hown
      cases hown
    · intro hheld
      cases hheld

theorem loadELF_unmapped {filename : Name} {created : Option Pid}
    (h : Loader.loadELF k filename = .ok (created, k'))
    (hunmapped : ∀ pid vpn, (k.pte pid vpn).valid = false) (pid' : Pid) (vpn : Addr) :
    (k'.pte pid' vpn).valid = false := by
  rcases Loader.loadELF_cases h with ⟨-, rfl⟩ | ⟨file, pid, pmm, segments, -, -, -, -, hcase⟩
  · exact hunmapped pid' vpn
  · have hfresh : ((Loader.freshSlot k pid filename segments pmm).pte pid' vpn).valid = false := by
      by_cases hpid : pid' = pid
      · rw [hpid]
        exact freshSlot_unmapped ..
      · rw [pte, Loader.freshSlot, modifyProcess_ne _ _ hpid]
        exact hunmapped pid' vpn
    rcases hcase with ⟨-, rfl⟩ | ⟨-, rfl⟩
    · rw [← hfresh, pte, pte]
      by_cases hpid : pid' = pid
      · rw [hpid, modifyProcess_self]
      · rw [modifyProcess_ne _ _ hpid]
    · rw [(withThread_frames _ _ _).valid]
      exact hfresh

/-- Loading the first applications, each into a slot that no process has used. -/
theorem loadApplications_framesOk {filenames : List Name} (hok : k.FramesOk)
    (hunmapped : ∀ pid vpn, (k.pte pid vpn).valid = false)
    (h : k.loadApplications filenames = .ok k') : k'.FramesOk := by
  induction filenames generalizing k with
  | nil =>
    cases h
    exact hok
  | cons filename rest ih =>
    obtain ⟨⟨pid, k₁⟩, hload, h⟩ := bind_eq_ok.1 h
    dsimp only at h
    split_ifs at h
    exact ih (loadELF_framesOk hok hload fun _ pid _ _ _ => hunmapped pid)
      (loadELF_unmapped hload hunmapped) h

theorem boot_framesOk {host : Host} {filenames : List Name} (h : boot host filenames = .ok k) :
    k.FramesOk := by
  obtain ⟨k₁, hload, h⟩ := bind_eq_ok.1 h
  split_ifs at h
  cases h
  have hok₁ := loadApplications_framesOk (init_framesOk host) (fun _ _ => rfl) hload
  have henabled : SameFrames k₁ { k₁ with cpu := { k₁.cpu with vmEnabled := true } } := .of_eq rfl rfl rfl rfl
  exact (preempt_frames _).framesOk (henabled.framesOk hok₁)

/-! ### Every run -/

/-- A valid entry of an active process maps the page `o` to frame `ppn`. -/
def Maps (k : Kernel) (o : Page) (ppn : Nat) : Prop :=
  (k.processList o.1).active = true ∧ (k.pte o.1 o.2).valid = true ∧
    (k.pte o.1 o.2).ppn.toNat = ppn

theorem maps_iff {o : Page} {ppn : Nat} : k.Maps o ppn ↔ k.pageFrame o = some ppn := by
  constructor
  · rintro ⟨hactive, hvalid, rfl⟩
    exact pageFrame_of_valid hactive hvalid
  · exact pageFrame_some

structure FrameOwnership (k : Kernel) : Prop where
  nodup : k.pmm.freeFrames.Nodup
  /-- The free list holds frames of RAM only. -/
  frames : ∀ frame ∈ k.pmm.freeFrames, ∃ ppn < NUM_FRAMES, frame = frameAddr ppn
  /-- A frame is free and unmapped, or it is mapped once and not free. -/
  owned : ∀ ppn < NUM_FRAMES,
    (frameAddr ppn ∈ k.pmm.freeFrames ∧ ∀ o, ¬ k.Maps o ppn) ∨
    (frameAddr ppn ∉ k.pmm.freeFrames ∧ ∃! o, k.Maps o ppn)
  info : ∀ o ppn, k.Maps o ppn → ppn < NUM_FRAMES ∧
    k.pmm.frameTable ppn = { allocated := true, ownerPid := o.1.val, vpn := o.2 }

theorem FramesOk.ownership (hok : k.FramesOk) : k.FrameOwnership where
  nodup := hok.nodup
  frames frame hmem := by
    obtain ⟨ppn, hlt, hframe, -⟩ := (hok.free frame).1 hmem
    exact ⟨ppn, hlt, hframe⟩
  owned ppn hlt := by
    simp only [maps_iff]
    have hfree := hok.free_iff_not_held hlt
    by_cases hmem : frameAddr ppn ∈ k.pmm.freeFrames
    · exact .inl ⟨hmem, hfree.1 hmem⟩
    · refine .inr ⟨hmem, ?_⟩
      obtain ⟨o, ho⟩ := not_forall.1 (mt hfree.2 hmem)
      exact ⟨o, not_not.1 ho, fun o' ho' => hok.matched.inj ho' (not_not.1 ho)⟩
  info o ppn hmaps := hok.info_of_holds (maps_iff.1 hmaps)

/-- In every run in which processes are only created in slots without resident pages, and only
active processes fault, each frame is free or owned by one page of one active process. -/
theorem frames_owned {host : Host} {filenames : List Name} {k₀ : Kernel} {es : List Event}
    (hboot : boot host filenames = .ok k₀) (hrun : Run (Guarded Step FrameSafe) k₀ es k) :
    k.FrameOwnership := by
  refine FramesOk.ownership (hrun.invariant FramesOk (boot_framesOk hboot) ?_)
  rintro s e s' hok ⟨hstep, hsafe⟩
  exact step_framesOk hok hstep hsafe

/-! ### The run that breaks it -/

/-- The first program is killed and gives its frame back, the second one gets it, and creates a
process in the slot of the first, which frees the frame again. -/
theorem free_while_mapped :
    ∃ k, simulate twoPrograms [[0x61], [0x62]] 5 = .ok k ∧ k.Reachable ∧ ¬ k.FrameOwnership := by
  have hdec : returns (simulate twoPrograms [[0x61], [0x62]] 5) (fun k =>
      decide (frameAddr 15 ∈ k.pmm.freeFrames ∧ (k.processList 1).active = true ∧
        (k.pte 1 0).valid = true ∧ (k.pte 1 0).ppn.toNat = 15)) = true := by decide +kernel
  obtain ⟨k, hk, hstate⟩ := returns_iff.1 hdec
  obtain ⟨hfree, hmaps⟩ := of_decide_eq_true hstate
  refine ⟨k, hk, simulate_reachable hk, fun howned => ?_⟩
  rcases howned.owned 15 (by decide) with ⟨-, hno⟩ | ⟨hnot, -⟩
  · exact hno (1, 0) hmaps
  · exact hnot hfree

/-- The first fault of the first program, which brings its text in. -/
theorem frames_owned_first_fault :
    ∃ k₀ k, boot twoPrograms [[0x61], [0x62]] = .ok k₀ ∧
      Run (Guarded Step FrameSafe) k₀ [.fault 0 84 true] k ∧ k.FrameOwnership := by
  obtain ⟨k₀, k, k', hboot, hstep, -, ⟨hparent, hactive⟩, -⟩ := segfault_run
  have hsafe : k₀.FrameSafe (.fault 0 84 true) := by
    show (k₀.processList (k₀.thread 0).parent).active = true
    rw [hparent]
    exact hactive
  have hsteps : Run (Guarded Step FrameSafe) k₀ [.fault 0 84 true] k := .snoc .nil ⟨hstep, hsafe⟩
  exact ⟨k₀, k, hboot, hsteps, frames_owned hboot hsteps⟩

end Kernel

end Rv32umos
