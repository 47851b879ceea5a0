import Rv32umos.Kernel.LastThread

/-!
# What every run keeps of the frames

`FrameStep`: a step leaves the frames alone, or serves a page fault, ends a process, or loads one
(`step_frames`). In every reachable state the frames that have an owner hold its page, and every
resident page, also of a process that has ended, is in RAM (`reachable_tracked`). The free list may
hold a frame twice, and a frame that is mapped.
-/

namespace Rv32umos

open Kernel (Event)
open Transition

namespace PhysicalMemoryManager.InRam

variable {pmm : PhysicalMemoryManager} {ppn : Nat}

theorem freed (h : pmm.InRam) (hlt : ppn < NUM_FRAMES) : (pmm.freed ppn).InRam := by
  refine (h.freeFrame ?_ (pmm.freeFrame_eq hlt)).1
  rw [frameAddr_shift hlt]

theorem taken {rest : List Addr} (h : pmm.InRam) (hfree : pmm.freeFrames = frameAddr ppn :: rest)
    (hlt : ppn < NUM_FRAMES) (o : Page) : (pmm.taken rest ppn o).InRam := by
  refine ⟨fun frame hmem => h.free frame (hfree ▸ List.mem_cons_of_mem _ hmem), fun ppn' hall => ?_⟩
  by_cases heq : ppn' = ppn
  · rw [heq]
    exact hlt
  · rw [pmm.taken_ne rest o heq] at hall
    exact h.table ppn' hall

end PhysicalMemoryManager.InRam

namespace Kernel

variable {k k' : Kernel} {pid : Pid} {o : Page}

/-! ### What a step does -/

inductive FrameStep (k : Kernel) : Event → Kernel → Prop
  | same {e : Event} {k' : Kernel} (h : SameFrames k k') : FrameStep k e k'
  | serve {t : TRef} {addr : Addr} {k₁ k' : Kernel} (htrap : k.atTrap = .ok k₁) (hsame : SameFrames k k₁)
    (h : k₁.servePageFault (k.thread t).parent addr = .ok (true, k')) :
    FrameStep k (.fault t addr true) k'
  | kill {e : Event} {pid : Pid} {exitCode : Word} {k₁ k₂ k' : Kernel}
    (hkills : k.threads.Kills e pid) (hsame : SameFrames k k₁)
    (h : k₁.terminate pid exitCode = .ok (true, k₂)) (hsame' : SameFrames k₂ k') : FrameStep k e k'
  | load {t : TRef} {ctx : SyscallContext} {r : SyscallResult} {filename : Name}
    {created : Option Pid} {k₁ k₂ k' : Kernel} (hsame : SameFrames k k₁)
    (h : Loader.loadELF k₁ filename = .ok (created, k₂)) (hsame' : SameFrames k₂ k') :
    FrameStep k (.syscall t ctx r) k'

theorem step_frames {e : Event} (hsound : k.threads.Sound) (h : Step k e k') : FrameStep k e k' := by
  by_cases hkills : ∃ pid, k.threads.Kills e pid
  · obtain ⟨pid, hkills⟩ := hkills
    obtain ⟨k₁, exitCode, k₂, hsame, hterminate, hsame'⟩ := step_terminates hsound h hkills
    exact .kill hkills hsame hterminate hsame'
  · cases h with
    | preempt => exact .same (preempt_frames k)
    | rehash pid table hperm => exact .same (rehash_frames hperm)
    | tick hrunning htick =>
      obtain ⟨self, k₁, cpu, hself, hk₁, hcpu, hcase⟩ := tick_cases htick
      have huser : SameFrames k (k₁.withMachine cpu) :=
        (SameFrames.setContext k _ _).trans (.of_quiet (Quiet.tick hk₁ hcpu))
      have hquiet : Quiet (k.setContext cpu.regs cpu.pc) (k₁.withMachine cpu).clearTrap :=
        (Quiet.tick hk₁ hcpu).trans (clearTrap_quiet _)
      have hsame : SameFrames k (k₁.withMachine cpu).clearTrap :=
        (SameFrames.setContext k _ _).trans (.of_quiet hquiet)
      rcases hcase with ⟨-, rfl, rfl⟩ | ⟨addr, handled, -, rfl, hfault⟩ | ⟨id, ctx, r, -, rfl, hsyscall⟩
      · exact .same (huser.trans (.setContext _ _ _))
      · cases handled with
        | false => exact absurd ⟨_, self, rfl, rfl⟩ hkills
        | true =>
          obtain ⟨current, hcurrent, hfault⟩ := bind_eq_ok.1 hfault
          cases (hquiet.getCurrentThread.trans hself).symm.trans hcurrent
          obtain ⟨⟨handled, k₂⟩, hserve, hfault⟩ := bind_eq_ok.1 hfault
          cases handled with
          | true =>
            cases hfault
            rw [hquiet.thread] at hserve
            have htrap : k.atTrap = .ok (k₁.withMachine cpu).clearTrap := by
              subst hk₁
              exact bind_eq_ok.2 ⟨self, hself, bind_eq_ok.2 ⟨cpu, hcpu, rfl⟩⟩
            exact .serve htrap hsame hserve
          | false =>
            obtain ⟨⟨killed, k₃⟩, -, hfault⟩ := bind_eq_ok.1 hfault
            cases killed <;> cases hfault
      · have hkiller : ¬ (ctx.id.toNat = SyscallID.SYS_EXIT ∨ r.error = true) := fun hexit =>
          hkills ⟨_, self, killer_syscall.2 ⟨rfl, hexit⟩, rfl⟩
        obtain ⟨-, k₂, hdispatch, ⟨-, rfl⟩ | ⟨herror, -⟩⟩ := handleSyscall_cases hsyscall
        · rcases SyscallHandler.dispatch_frames hdispatch with
            hrest | ⟨hid, -⟩ | ⟨-, filename, k₃, created, hread, hload⟩
          · exact .same ((hsame.trans hrest).trans (deliver_frames _ _))
          · exact absurd (.inl hid) hkiller
          · have hread' := SameFrames.of_quiet (SyscallHandler.readFilename_quiet hread)
            exact .load (hsame.trans hread') hload (deliver_frames _ _)
        · exact absurd (.inr herror) hkiller

/-- What holds after the boot and is kept by what a step can do to the frames holds in every
reachable state. -/
theorem Reachable.induct (inv : Kernel → Prop) (h : k.Reachable)
    (hboot : ∀ host filenames k, boot host filenames = .ok k → inv k)
    (hstep : ∀ k e k', inv k → FrameStep k e k' → inv k') : inv k := by
  obtain ⟨host, filenames, k₀, es, hk₀, hrun⟩ := h
  have hboth : k.threads.Sound ∧ inv k := by
    refine hrun.invariant (fun k => k.threads.Sound ∧ inv k) ?_ ?_
    · exact ⟨reachable_sound ⟨host, filenames, k₀, [], hk₀, .nil⟩, hboot _ _ _ hk₀⟩
    · rintro k e k' ⟨hsound, hinv⟩ hlast
      exact ⟨(step_threads hsound.fault hlast).sound hsound, hstep k e k' hinv (step_frames hsound hlast)⟩
  exact hboth.2

theorem Reachable.snoc {e : Event} (h : k.Reachable) (hstep : Step k e k') : k'.Reachable := by
  obtain ⟨host, filenames, k₀, es, hboot, hrun⟩ := h
  exact ⟨host, filenames, k₀, es ++ [e], hboot, hrun.snoc hstep⟩

/-! ### The frames that have an owner -/

structure Tracked (k : Kernel) : Prop where
  owners : k.OwnersOk
  /-- A page that is resident is in RAM, also when its process has ended. -/
  frame : ∀ o : Page, (k.pte o.1 o.2).valid = true → (k.pte o.1 o.2).ppn.toNat < NUM_FRAMES

theorem SameFrames.tracked (h : SameFrames k k') (hk : k.Tracked) : k'.Tracked where
  owners :=
    { inRam := by rw [h.pmm]; exact hk.owners.inRam
      owner := fun ppn hall => by
        rw [h.pmm] at hall ⊢
        obtain ⟨o, hinfo, hvalid, hppn⟩ := hk.owners.owner ppn hall
        exact ⟨o, hinfo, (h.valid _ _).trans hvalid, (congrArg BitVec.toNat (h.ppn _ _)).trans hppn⟩ }
  frame o hvalid := by
    rw [h.valid] at hvalid
    rw [h.ppn]
    exact hk.frame o hvalid

theorem evictPage_tracked (hk : k.Tracked) (h : k.evictPage = .ok k') : k'.Tracked := by
  obtain ⟨hok, -, -, o, -, hinvalid, hother⟩ := evictPage_owners hk.owners h
  refine ⟨hok, fun o' hvalid => ?_⟩
  by_cases heq : o' = o
  · rw [heq, hinvalid] at hvalid
    cases hvalid
  · rw [hother o' heq] at hvalid ⊢
    exact hk.frame o' hvalid

theorem Allocates.tracked {k₁ : Kernel} {ppn : Nat} {rest : List Addr} (h : k.Allocates o k₁ ppn rest)
    (hk : k.Tracked) : k₁.Tracked := by
  rcases h.evicted with rfl | hevict
  · exact hk
  · exact evictPage_tracked hk hevict

theorem Serves.tracked {faultAddr : Addr} (h : k.Serves o faultAddr k') (hk : k.Tracked)
    (hinvalid : (k.pte o.1 o.2).valid = false) : k'.Tracked := by
  obtain ⟨k₁, ppn, rest, prp, e, memory, swap, halloc, hfills, hk'⟩ := h
  have hk₁ := halloc.tracked hk
  obtain ⟨hvalid, hppn⟩ := hfills.valid
  have hpmm : k'.pmm = k₁.pmm.taken rest ppn o := by rw [hk']; rfl
  have hself : k'.pte o.1 o.2 = e := by rw [hk', pte_setPTE_self]
  have hother : ∀ o' : Page, o' ≠ o → k'.pte o'.1 o'.2 = k₁.pte o'.1 o'.2 := by
    intro o' hne
    rw [hk']
    exact pte_setPTE_ne _ e hne
  clear hk'
  have hframe : (k'.pte o.1 o.2).ppn.toNat = ppn := by
    rw [hself, hppn]
    exact frameAddr_shift halloc.lt
  refine ⟨⟨?_, fun ppn' hall => ?_⟩, fun o' hvalid' => ?_⟩
  · rw [hpmm]
    exact hk₁.owners.inRam.taken halloc.free halloc.lt o
  · rw [hpmm] at hall ⊢
    by_cases heq : ppn' = ppn
    · subst heq
      exact ⟨o, PhysicalMemoryManager.taken_self _ _ _ _, hself ▸ hvalid, hframe⟩
    · rw [k₁.pmm.taken_ne rest o heq] at hall ⊢
      obtain ⟨o', hinfo, hvalid', hppn'⟩ := halloc.owners.owner ppn' hall
      have hne : o' ≠ o := by
        rintro rfl
        rw [halloc.pte, hinvalid] at hvalid'
        cases hvalid'
      rw [← hother o' hne] at hvalid' hppn'
      exact ⟨o', hinfo, hvalid', hppn'⟩
  · by_cases heq : o' = o
    · rw [heq, hframe]
      exact halloc.lt
    · rw [hother o' heq] at hvalid' ⊢
      exact hk₁.frame o' hvalid'

theorem Tracked.ensure (hk : k.Tracked) (o : Page) : (k.setPTE o.1 o.2 (k.pte o.1 o.2)).Tracked :=
  (ensure_frames k o.1 o.2).tracked hk

theorem servePageFault_tracked {faultAddr : Addr} {handled : Bool} (hk : k.Tracked)
    (h : k.servePageFault pid faultAddr = .ok (handled, k')) : k'.Tracked := by
  rcases servePageFault_effect hk.owners h with ⟨-, rfl⟩ | ⟨-, hinvalid, hserves⟩
  · exact hk.ensure (pid, faultAddr >>> 12)
  · have hinvalid₀ := (congrArg PTE.valid (pte_ensure k (pid, faultAddr >>> 12) _)).trans hinvalid
    exact hserves.tracked (hk.ensure (pid, faultAddr >>> 12)) hinvalid₀

/-! ### The end and the start of a process -/

/-- `wipeMemory` ends, takes the owner from every frame that the process has, and gives none to any. -/
structure Wiped (k : Kernel) (l : List (Addr × PTE)) (pmm : PhysicalMemoryManager) : Prop where
  inRam : pmm.InRam
  kept : ∀ ppn, (pmm.frameTable ppn).allocated = true → pmm.frameTable ppn = k.pmm.frameTable ppn
  gone : ∀ e ∈ l, e.2.valid = true → (pmm.frameTable e.2.ppn.toNat).allocated = false

theorem wipe_list (hram : k.pmm.InRam) {l : List (Addr × PTE)}
    (hlt : ∀ e ∈ l, e.2.valid = true → e.2.ppn.toNat < NUM_FRAMES) :
    ∃ pmm, l.foldlM (fun k e => k.wipePTE e.2) k = .ok { k with pmm } ∧ k.Wiped l pmm := by
  induction l generalizing k with
  | nil => exact ⟨k.pmm, rfl, hram, fun _ _ => rfl, nofun⟩
  | cons head rest ih =>
    have hlt' : ∀ e ∈ rest, e.2.valid = true → e.2.ppn.toNat < NUM_FRAMES :=
      fun e he => hlt e (List.mem_cons_of_mem _ he)
    rw [List.foldlM_cons]
    unfold wipePTE
    by_cases hvalid : head.2.valid = true
    · have hppn := hlt head List.mem_cons_self hvalid
      rw [if_pos hvalid, mul_pageSize]
      obtain ⟨pmm, hrest, hwiped⟩ := ih (k := { k with pmm := k.pmm.freed head.2.ppn.toNat })
        (hram.freed hppn) hlt'
      have hkept : ∀ ppn, (pmm.frameTable ppn).allocated = true →
          ppn ≠ head.2.ppn.toNat ∧ pmm.frameTable ppn = k.pmm.frameTable ppn := by
        intro ppn hall
        have hfreed : pmm.frameTable ppn = (k.pmm.freed head.2.ppn.toNat).frameTable ppn :=
          hwiped.kept ppn hall
        by_cases heq : ppn = head.2.ppn.toNat
        · rw [hfreed, heq, PhysicalMemoryManager.freed_self] at hall
          cases hall
        · exact ⟨heq, hfreed.trans (k.pmm.freed_ne heq)⟩
      refine ⟨pmm, ?_, hwiped.inRam, fun ppn hall => (hkept ppn hall).2, fun e he hv => ?_⟩
      · exact bind_eq_ok.2 ⟨_, bind_eq_ok.2 ⟨_, k.pmm.freeFrame_eq hppn, rfl⟩, hrest⟩
      · rcases List.mem_cons.1 he with rfl | he
        · refine Bool.eq_false_of_not_eq_true fun hall => (hkept _ hall).1 rfl
        · exact hwiped.gone e he hv
    · rw [if_neg hvalid]
      obtain ⟨pmm, hrest, hwiped⟩ := ih hram hlt'
      refine ⟨pmm, hrest, hwiped.inRam, hwiped.kept, fun e he hv => ?_⟩
      rcases List.mem_cons.1 he with rfl | he
      · exact absurd hv hvalid
      · exact hwiped.gone e he hv

theorem wipeMemory_wiped (hk : k.Tracked) (pid : Pid) :
    ∃ pmm, k.wipeMemory pid = .ok { k with pmm } ∧
      k.Wiped (k.processList pid).pageTable.toList pmm := by
  refine wipe_list hk.owners.inRam fun e he hvalid => ?_
  have hpte : k.pte pid e.1 = e.2 := PageTable.entry_of_find? (PageTable.mem_toList.1 he)
  rw [← hpte] at hvalid ⊢
  exact hk.frame (pid, e.1) hvalid

/-- No frame belongs to a process whose memory has been wiped. -/
theorem Wiped.foreign {pmm : PhysicalMemoryManager} {ppn : Nat} (hk : k.Tracked)
    (h : k.Wiped (k.processList pid).pageTable.toList pmm)
    (hall : (pmm.frameTable ppn).allocated = true) :
    ∃ o : Page, o.1 ≠ pid ∧ pmm.frameTable ppn = { ownerPid := o.1.val, vpn := o.2, allocated := true } ∧
      (k.pte o.1 o.2).valid = true ∧ (k.pte o.1 o.2).ppn.toNat = ppn := by
  have hkept := h.kept ppn hall
  obtain ⟨o, hinfo, hvalid, hppn⟩ := hk.owners.owner ppn (hkept ▸ hall)
  refine ⟨o, fun heq => ?_, hkept.trans hinfo, hvalid, hppn⟩
  subst heq
  have hgone := h.gone (o.2, k.pte o.1 o.2)
    (PageTable.mem_toList.2 (PageTable.find?_of_valid hvalid)) hvalid
  dsimp only at hgone
  rw [hppn, hall] at hgone
  cases hgone

/-- A change inside a process, outside its page table. -/
theorem modifyProcess_pte (k : Kernel) (pid : Pid) (f : Process → Process)
    (htable : ∀ p, (f p).pageTable = p.pageTable) (pid' : Pid) (vpn : Addr) :
    (k.modifyProcess pid f).pte pid' vpn = k.pte pid' vpn := by
  by_cases heq : pid' = pid
  · rw [heq, pte, pte, modifyProcess_self, htable]
  · rw [pte, pte, modifyProcess_ne _ _ heq]

theorem terminated_pte (k : Kernel) (pid : Pid) (exitCode : Word) (pmm : PhysicalMemoryManager)
    (pid' : Pid) (vpn : Addr) : (k.terminated pid exitCode pmm).pte pid' vpn = k.pte pid' vpn :=
  modifyProcess_pte _ pid (fun p => { p with active := false }) (fun _ => rfl) pid' vpn

/-- A process whose memory has been wiped keeps its page table, or loses it. -/
theorem Tracked.wiped {pmm : PhysicalMemoryManager} (hk : k.Tracked)
    (h : k.Wiped (k.processList pid).pageTable.toList pmm) (hpmm : k'.pmm = pmm)
    (hself : ∀ vpn, (k'.pte pid vpn).valid = true → k'.pte pid vpn = k.pte pid vpn)
    (hother : ∀ o : Page, o.1 ≠ pid → k'.pte o.1 o.2 = k.pte o.1 o.2) : k'.Tracked := by
  refine ⟨⟨?_, fun ppn hall => ?_⟩, fun o hvalid => ?_⟩
  · rw [hpmm]
    exact h.inRam
  · rw [hpmm] at hall ⊢
    obtain ⟨o, hne, hinfo, hvalid, hppn⟩ := h.foreign hk hall
    rw [← hother o hne] at hvalid hppn
    exact ⟨o, hinfo, hvalid, hppn⟩
  · have hsame : k'.pte o.1 o.2 = k.pte o.1 o.2 := by
      by_cases heq : o.1 = pid
      · subst heq
        exact hself o.2 hvalid
      · exact hother o heq
    rw [hsame] at hvalid ⊢
    exact hk.frame o hvalid

theorem terminate_tracked {exitCode : Word} {ok : Bool} (hk : k.Tracked)
    (h : k.terminate pid exitCode = .ok (ok, k')) : k'.Tracked := by
  rcases terminate_cases h with ⟨-, -, rfl⟩ | ⟨-, -, pmm, hwipe, rfl⟩
  · exact hk
  · obtain ⟨pmm', hwipe', hwiped⟩ := wipeMemory_wiped hk pid
    have hpmm := congrArg Kernel.pmm (Except.ok.inj (hwipe.symm.trans hwipe'))
    dsimp only at hpmm
    subst hpmm
    exact hk.wiped hwiped rfl (fun vpn _ => terminated_pte ..) fun o _ => terminated_pte ..

theorem freshSlot_tracked {pmm : PhysicalMemoryManager} (hk : k.Tracked)
    (hwipe : k.wipeMemory pid = .ok { k with pmm }) (name : Name) (segments : List Segment) :
    (Loader.freshSlot k pid name segments pmm).Tracked := by
  obtain ⟨pmm', hwipe', hwiped⟩ := wipeMemory_wiped hk pid
  have hpmm := congrArg Kernel.pmm (Except.ok.inj (hwipe.symm.trans hwipe'))
  dsimp only at hpmm
  subst hpmm
  refine hk.wiped hwiped rfl (fun vpn hvalid => ?_) fun o hne => ?_
  · rw [freshSlot_unmapped] at hvalid
    cases hvalid
  · rw [pte, Loader.freshSlot, modifyProcess_ne _ _ hne]
    rfl

theorem loadELF_tracked {filename : Name} {created : Option Pid} (hk : k.Tracked)
    (h : Loader.loadELF k filename = .ok (created, k')) : k'.Tracked := by
  rcases Loader.loadELF_cases h with ⟨-, rfl⟩ | ⟨file, pid, pmm, segments, -, -, -, hwipe, hcase⟩
  · exact hk
  · have hfresh := freshSlot_tracked hk hwipe filename segments
    rcases hcase with ⟨-, rfl⟩ | ⟨-, rfl⟩
    · have hpte : ∀ o : Page, ((Loader.freshSlot k pid filename segments pmm).modifyProcess pid
          fun p => { p with active := false }).pte o.1 o.2 =
          (Loader.freshSlot k pid filename segments pmm).pte o.1 o.2 :=
        fun o => modifyProcess_pte _ pid (fun p => { p with active := false }) (fun _ => rfl) o.1 o.2
      refine ⟨⟨hfresh.owners.inRam, fun ppn hall => ?_⟩, fun o hvalid => ?_⟩
      · obtain ⟨o, hinfo, hvalid, hppn⟩ := hfresh.owners.owner ppn hall
        rw [← hpte o] at hvalid hppn
        exact ⟨o, hinfo, hvalid, hppn⟩
      · rw [hpte o] at hvalid ⊢
        exact hfresh.frame o hvalid
    · exact (withThread_frames _ _ _).tracked hfresh

theorem FrameStep.tracked {e : Event} (hk : k.Tracked) (h : FrameStep k e k') : k'.Tracked := by
  cases h with
  | same hsame => exact hsame.tracked hk
  | serve _ hsame hserve => exact servePageFault_tracked (hsame.tracked hk) hserve
  | kill _ hsame hkill hsame' => exact hsame'.tracked (terminate_tracked (hsame.tracked hk) hkill)
  | load hsame hload hsame' => exact hsame'.tracked (loadELF_tracked (hsame.tracked hk) hload)

theorem boot_tracked {host : Host} {filenames : List Name} (h : boot host filenames = .ok k) :
    k.Tracked := by
  obtain ⟨k₁, hload, h⟩ := bind_eq_ok.1 h
  split_ifs at h
  cases h
  have hinit : (init host).Tracked := ⟨(init_framesOk host).owners, nofun⟩
  have hloaded : ∀ {filenames : List Name} {k k' : Kernel}, k.Tracked →
      k.loadApplications filenames = .ok k' → k'.Tracked := by
    intro filenames
    induction filenames with
    | nil =>
      intro k k' hk hload
      cases hload
      exact hk
    | cons filename rest ih =>
      intro k k' hk hload
      obtain ⟨⟨pid, k₂⟩, hload₂, hload⟩ := bind_eq_ok.1 hload
      dsimp only at hload
      split_ifs at hload
      exact ih (loadELF_tracked hk hload₂) hload
  have henabled : SameFrames k₁ { k₁ with cpu := { k₁.cpu with vmEnabled := true } } :=
    .of_eq rfl rfl rfl rfl
  exact (preempt_frames _).tracked (henabled.tracked (hloaded hinit hload))

theorem reachable_tracked (h : k.Reachable) : k.Tracked :=
  h.induct Tracked (fun _ _ _ hboot => boot_tracked hboot) fun _ _ _ hk hstep => hstep.tracked hk

end Kernel

end Rv32umos
