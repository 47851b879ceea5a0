import Rv32umos.Kernel.FramePool
import Rv32umos.Kernel.Residue
import Rv32umos.Kernel.UserAccess
import Rv32umos.Kernel.SamePages
import Rv32umos.Kernel.Ownership
import Rv32umos.Vm.Restart

/-!
# Trying an instruction again

A page fault that is served sends the thread back to the same instruction, which may fault again, at the
page of the pc or at that of its data, and each of the two may be the victim when the other is brought in.
Serving a fault brings one page in and takes a frame from at most one other (`servePageFault_brings`). If
the two pages go on taking a frame from each other, the other frames only move forward in the queue of the
policy: so the retry ends (`retry_ends`), however many stale entries the queue holds.
-/

namespace Rv32umos

open Transition

namespace Kernel

variable {k k' : Kernel} {pid : Pid} {vpn faultAddr : Addr} {o : Page}

/-! ### Serving a fault -/

/-- The handler takes a frame for the page, fills it and enters it into the page table. -/
structure TakesFrame (k : Kernel) (o : Page) (x : Except Halt (Bool × Kernel)) : Prop where
  error : ∀ why, k.allocateFrame o.1 o.2 = .error why → x = .error why
  ok : ∀ ppn < NUM_FRAMES, ∀ k₁, k.allocateFrame o.1 o.2 = .ok (frameAddr ppn, k₁) →
    ∃ (e : PTE) (memory : Memory) (swap : SwapManager), e.valid = true ∧ e.ppn.toNat = ppn ∧
      x = .ok (true, ({ k₁ with memory, swap } : Kernel).setPTE o.1 o.2 e)

/-- The handlers after one that takes a frame are not tried. -/
theorem TakesFrame.orElse {x : Except Halt (Bool × Kernel)} (h : k.TakesFrame o x)
    {f : Bool × Kernel → Except Halt (Bool × Kernel)} (hf : ∀ k, f (true, k) = .ok (true, k)) :
    k.TakesFrame o (x >>= f) where
  error why halloc := by
    rw [h.error why halloc]
    rfl
  ok ppn hlt k₁ halloc := by
    obtain ⟨e, memory, swap, hvalid, hppn, rfl⟩ := h.ok ppn hlt k₁ halloc
    exact ⟨e, memory, swap, hvalid, hppn, hf _⟩

theorem swapInPage_takes (k : Kernel) (o : Page) :
    k.TakesFrame o (k.swapInPage o.1 o.2 >>= fun k => .ok (true, k)) where
  error why halloc := by
    unfold swapInPage
    rw [halloc]
    rfl
  ok ppn hlt k₁ halloc :=
    ⟨_, _, _, rfl, frameAddr_shift hlt, bind_eq_ok.2 ⟨_, bind_eq_ok.2 ⟨_, halloc, bind_eq_ok.2
      ⟨_, Memory.storePage_eq _ hlt _, rfl⟩⟩, rfl⟩⟩

theorem handleStackGrowth_takes (k : Kernel) (pid : Pid) (faultAddr vpn : Addr) :
    k.handleStackGrowth pid faultAddr vpn = .ok (false, k) ∨
    k.TakesFrame (pid, vpn) (k.handleStackGrowth pid faultAddr vpn) := by
  rw [handleStackGrowth_eq]
  split_ifs
  · refine .inr ⟨fun why halloc => ?_, fun ppn hlt k₁ halloc => ?_⟩
    · rw [halloc]
      rfl
    · exact ⟨_, k₁.memory, k₁.swap, rfl, frameAddr_shift hlt, bind_eq_ok.2 ⟨_, halloc, rfl⟩⟩
  · exact .inl rfl

theorem handleLazyLoading_takes (k : Kernel) (pid : Pid) (faultAddr vpn : Addr) :
    k.handleLazyLoading pid faultAddr vpn = .ok (false, k) ∨
    k.TakesFrame (pid, vpn) (k.handleLazyLoading pid faultAddr vpn) := by
  unfold handleLazyLoading
  cases (k.processList pid).segments.find? (·.contains faultAddr) with
  | none => exact .inl rfl
  | some seg =>
    refine .inr ⟨fun why halloc => ?_, fun ppn hlt k₁ halloc => ?_⟩
    · dsimp only
      rw [halloc]
      rfl
    · exact ⟨_, _, k₁.swap, rfl, frameAddr_shift hlt, bind_eq_ok.2 ⟨_, halloc, bind_eq_ok.2
        ⟨_, Memory.storePage_eq _ hlt _, rfl⟩⟩⟩

theorem handleHeapGrowth_takes (k : Kernel) (pid : Pid) (faultAddr vpn : Addr) :
    k.handleHeapGrowth pid faultAddr vpn = .ok (false, k) ∨
    k.TakesFrame (pid, vpn) (k.handleHeapGrowth pid faultAddr vpn) := by
  unfold handleHeapGrowth
  split_ifs
  · refine .inr ⟨fun why halloc => ?_, fun ppn hlt k₁ halloc => ?_⟩
    · rw [halloc]
      rfl
    · exact ⟨_, _, k₁.swap, rfl, frameAddr_shift hlt, bind_eq_ok.2 ⟨_, halloc, bind_eq_ok.2
        ⟨_, Memory.storePage_eq _ hlt _, rfl⟩⟩⟩
  · exact .inl rfl

/-- Serving a fault refuses, or takes a frame for a page that is not resident. -/
theorem servePageFault_takes (k : Kernel) (pid : Pid) (faultAddr : Addr) :
    let o : Page := (pid, faultAddr >>> 12)
    let k₀ := k.setPTE o.1 o.2 (k.pte o.1 o.2)
    k.servePageFault pid faultAddr = .ok (false, k₀) ∨
    ((k.pte o.1 o.2).valid = false ∧ k₀.TakesFrame o (k.servePageFault pid faultAddr)) := by
  intro o k₀
  by_cases hvalid : (k₀.pte o.1 o.2).valid = true
  · exact .inl (if_pos hvalid)
  · have hinvalid : (k.pte o.1 o.2).valid = false := by
      rw [← pte_ensure k o o]
      exact Bool.eq_false_of_not_eq_true hvalid
    cases hswapped : (k.pte o.1 o.2).swapped with
    | true =>
      refine .inr ⟨hinvalid, ?_⟩
      have hswap : k₀.handleSwapIn o.1 o.2 = k₀.swapInPage o.1 o.2 >>= fun k => .ok (true, k) := by
        refine if_pos ?_
        rw [pte_ensure k o o, hswapped, hinvalid]
        rfl
      have hserve : k.servePageFault pid faultAddr = k₀.handleSwapIn o.1 o.2 >>= _ := if_neg hvalid
      rw [hserve, hswap]
      exact (swapInPage_takes k₀ o).orElse fun _ => rfl
    | false =>
      rw [servePageFault_eq hinvalid hswapped]
      unfold firstFault
      split_ifs
      · exact (handleStackGrowth_takes k₀ pid faultAddr o.2).imp_right fun htakes => ⟨hinvalid, htakes⟩
      · exact (handleLazyLoading_takes k₀ pid faultAddr o.2).imp_right fun htakes => ⟨hinvalid, htakes⟩
      · exact (handleHeapGrowth_takes k₀ pid faultAddr o.2).imp_right fun htakes => ⟨hinvalid, htakes⟩

/-- Frames, their owners and the queue of the policy as the retry of an instruction needs them. -/
structure Retriable (k : Kernel) : Prop where
  owners : k.OwnersOk
  covered : ∀ ppn < NUM_FRAMES, frameAddr ppn ∈ k.pmm.freeFrames ∨ (k.pmm.frameTable ppn).allocated = true
  queued : ∀ ppn, (k.pmm.frameTable ppn).allocated = true → ppn ∈ k.prp.queue

theorem Retriable.pool (hk : k.Retriable) : PoolOk k.pmm k.prp.queue where
  inRam := hk.owners.inRam
  covered := hk.covered
  queued := hk.queued
  owned ppn hall := by
    obtain ⟨o, hinfo, -⟩ := hk.owners.owner ppn hall
    exact ⟨o.1, by rw [hinfo]⟩

theorem Retriable.congr (hk : k.Retriable) (hpmm : k'.pmm = k.pmm) (hprp : k'.prp = k.prp)
    (hcore : ∀ pid vpn, (k'.pte pid vpn).core = (k.pte pid vpn).core) : k'.Retriable where
  owners :=
    { inRam := hpmm ▸ hk.owners.inRam
      owner := fun ppn hall => by
        rw [hpmm] at hall ⊢
        obtain ⟨o, hinfo, hvalid, hppn⟩ := hk.owners.owner ppn hall
        refine ⟨o, hinfo, ?_, ?_⟩
        · rw [← PTE.core_valid, hcore, PTE.core_valid, hvalid]
        · rw [← PTE.core_ppn, hcore, PTE.core_ppn, hppn] }
  covered := by
    rw [hpmm]
    exact hk.covered
  queued := by
    rw [hpmm, hprp]
    exact hk.queued

/-- Frames in order, all in the queue. -/
theorem Retriable.of_framesOk (hok : k.FramesOk)
    (hqueued : ∀ ppn < NUM_FRAMES, (k.pmm.frameTable ppn).allocated = true → ppn ∈ k.prp.queue) :
    k.Retriable where
  owners := hok.owners
  covered ppn hlt := by
    cases hall : (k.pmm.frameTable ppn).allocated with
    | true => exact .inr rfl
    | false => exact .inl ((hok.free _).2 ⟨ppn, hlt, rfl, hall⟩)
  queued ppn hall := hqueued ppn (hok.owners.inRam.table ppn hall) hall

/-- Frame `ppn` has gone over from page `o'` to page `o`, and the other frames of the policy's queue are
nearer to its front. -/
structure Replaces (k k' : Kernel) (o o' : Page) (ppn : Nat) : Prop where
  was : k.pmm.frameTable ppn = { ownerPid := o'.1.val, vpn := o'.2, allocated := true }
  is : k'.pmm.frameTable ppn = { ownerPid := o.1.val, vpn := o.2, allocated := true }
  passed : ∀ ppn' < NUM_FRAMES, ppn' ≠ ppn → k'.prp.queue.idxOf ppn' < k.prp.queue.idxOf ppn'

/-- A page has become resident, and no other page has lost its frame but to it. -/
structure Brings (k k' : Kernel) (o : Page) : Prop where
  retriable : k'.Retriable
  before : (k.pte o.1 o.2).valid = false
  after : (k'.pte o.1 o.2).valid = true
  lost : ∀ o' : Page, o' ≠ o → (k.pte o'.1 o'.2).valid = true → (k'.pte o'.1 o'.2).valid = false →
    ∃ ppn, k.Replaces k' o o' ppn

/-- An eviction gives its victim's frame away, and takes the victim out of the queue. -/
theorem evictPage_replaces {k₁ : Kernel} {rest : List Addr} (hk : k.Retriable) (hfull : k.pmm.freeFrames = [])
    (hevict : k.evictPage = .ok k₁) (hlt : ppn < NUM_FRAMES)
    (hfree : k₁.pmm.freeFrames = frameAddr ppn :: rest) :
    k₁.OwnersOk ∧ ∃ o' : Page,
      k.pmm.frameTable ppn = { ownerPid := o'.1.val, vpn := o'.2, allocated := true } ∧
      (∀ o'' : Page, o'' ≠ o' → k₁.pte o''.1 o''.2 = k.pte o''.1 o''.2) ∧
      ∀ ppn' < NUM_FRAMES, ppn' ≠ ppn →
        (k₁.prp.queue ++ [ppn]).idxOf ppn' < k.prp.queue.idxOf ppn' := by
  obtain ⟨hok, -, -, o', hvalid, hinvalid, hothers⟩ := evictPage_owners hk.owners hevict
  obtain ⟨o'', v, prp, hvictim, hv, hinfo, hvalid'', -, hcase⟩ := evictPage_effect hk.owners hevict
  have hall : (k.pmm.frameTable v).allocated = true := by rw [hinfo]
  have hpmm : k₁.pmm = k.pmm.freed v := by
    rcases hcase with ⟨-, rfl⟩ | ⟨slot, -, -, rfl⟩
    · rfl
    · rfl
  have heq : v = ppn := by
    rw [hpmm] at hfree
    exact frameAddr_inj hv hlt (List.cons.inj hfree).1
  subst heq
  have hpage : o'' = o' := by
    by_contra hne
    have hlost : (k₁.pte o''.1 o''.2).valid = false := by
      rcases hcase with ⟨-, rfl⟩ | ⟨slot, -, -, rfl⟩
      · exact congrArg PTE.valid (pte_setPTE_self k o''.1 o''.2 _)
      · exact congrArg PTE.valid (pte_setPTE_self k o''.1 o''.2 _)
    rw [hothers o'' hne, hvalid''] at hlost
    cases hlost
  subst hpage
  refine ⟨hok, o'', hinfo, hothers, fun ppn' hlt' hne => ?_⟩
  rcases evictPage_pool hk.pool hall with herror | ⟨_, v', queue, hok', -, -, -, hvictim', hrest, hqueue, -⟩
  · cases herror.symm.trans hevict
  · cases hok'.symm.trans hevict
    cases hvictim'.symm.trans hvictim
    have hpop : StaleQueue.pop (fun ppn => (k.pmm.frameTable ppn).allocated) k.prp.queue =
        (some v, queue) := by
      rw [← FIFOPolicy.popVictim_eq]
      exact Prod.ext hvictim (congrArg FIFOPolicy.queue hrest)
    have hall' : (k.pmm.frameTable ppn').allocated = true :=
      (hk.covered ppn' hlt').resolve_left (by rw [hfull]; exact List.not_mem_nil)
    rw [hqueue]
    exact StaleQueue.idxOf_pop_lt hpop hall' hne (hk.queued ppn' hall')

/-- The allocated frame is filled, and entered into the page table. -/
theorem Brings.of_allotted {k₁ : Kernel} {rest : List Addr} {e : PTE} (memory : Memory) (swap : SwapManager)
    (hk : k.Retriable) (hbefore : (k.pte o.1 o.2).valid = false)
    (hcause : k₁ = k ∨ k.pmm.freeFrames = [] ∧ k.evictPage = .ok k₁) (hpool : PoolOk k₁.pmm k₁.prp.queue)
    (hentries : ∀ o : Page, (k₁.pte o.1 o.2).valid = true → k₁.pte o.1 o.2 = k.pte o.1 o.2)
    (hlt : ppn < NUM_FRAMES) (hfree : k₁.pmm.freeFrames = frameAddr ppn :: rest)
    (hvalid : e.valid = true) (hppn : e.ppn.toNat = ppn) :
    k.Brings (({ k₁.allotted o ppn rest with memory, swap } : Kernel).setPTE o.1 o.2 e) o := by
  have hself : (({ k₁.allotted o ppn rest with memory, swap } : Kernel).setPTE o.1 o.2 e).pte o.1 o.2 = e :=
    pte_setPTE_self _ _ _ _
  have hother : ∀ o' : Page, o' ≠ o →
      (({ k₁.allotted o ppn rest with memory, swap } : Kernel).setPTE o.1 o.2 e).pte o'.1 o'.2 =
        k₁.pte o'.1 o'.2 := fun o' hne => pte_setPTE_ne _ _ hne
  have hpool' := hpool.taken hlt hfree o
  have hinvalid : ¬ (k₁.pte o.1 o.2).valid = true := fun hvalid₁ => by
    rw [hentries o hvalid₁, hbefore] at hvalid₁
    cases hvalid₁
  have hok₁ : k₁.OwnersOk := by
    rcases hcause with rfl | ⟨-, hevict⟩
    · exact hk.owners
    · exact (evictPage_owners hk.owners hevict).1
  refine ⟨⟨⟨hpool'.inRam, fun ppn' hall => ?_⟩, hpool'.covered, hpool'.queued⟩, hbefore, ?_,
    fun o' hne hwas his => ?_⟩
  · show ∃ o' : Page, (k₁.pmm.taken rest ppn o).frameTable ppn' = _ ∧ _
    by_cases heq : ppn' = ppn
    · subst heq
      exact ⟨o, k₁.pmm.taken_self rest ppn' o, by rw [hself, hvalid], by rw [hself, hppn]⟩
    · rw [k₁.pmm.taken_ne rest o heq]
      have hall₁ : (k₁.pmm.frameTable ppn').allocated = true := by
        rw [← k₁.pmm.taken_ne rest o heq]
        exact hall
      obtain ⟨o', hinfo, hvalid', hppn'⟩ := hok₁.owner ppn' hall₁
      have hne : o' ≠ o := by
        rintro rfl
        exact hinvalid hvalid'
      rw [← hother o' hne] at hvalid' hppn'
      exact ⟨o', hinfo, hvalid', hppn'⟩
  · rw [hself, hvalid]
  · rw [hother o' hne] at his
    rcases hcause with rfl | ⟨hfull, hevict⟩
    · rw [hwas] at his
      cases his
    · obtain ⟨-, o'', hinfo, hothers, hpassed⟩ := evictPage_replaces hk hfull hevict hlt hfree
      have heq : o' = o'' := by
        by_contra hne'
        rw [hothers o' hne', hwas] at his
        cases his
      subst heq
      exact ⟨ppn, hinfo, k₁.pmm.taken_self rest ppn o, hpassed⟩

/-- Serving a fault fails for want of swap, refuses, or brings the page in. -/
theorem servePageFault_brings (hk : k.Retriable) (pid : Pid) (faultAddr : Addr) :
    k.servePageFault pid faultAddr = .error (.panic "Swap Full!") ∨
    (∃ k', k.servePageFault pid faultAddr = .ok (false, k')) ∨
    ∃ k', k.servePageFault pid faultAddr = .ok (true, k') ∧ k.Brings k' (pid, faultAddr >>> 12) := by
  let o : Page := (pid, faultAddr >>> 12)
  let k₀ := k.setPTE o.1 o.2 (k.pte o.1 o.2)
  have hpte : ∀ o' : Page, k₀.pte o'.1 o'.2 = k.pte o'.1 o'.2 := pte_ensure k o
  have hk₀ : k₀.Retriable := hk.congr rfl rfl fun pid vpn => by rw [hpte (pid, vpn)]
  rcases servePageFault_takes k pid faultAddr with hrefused | ⟨hinvalid, htakes⟩
  · exact .inr (.inl ⟨_, hrefused⟩)
  · rcases allocateFrame_pool hk₀.pool o with
      hfull | ⟨k₁, ppn, rest, halloc, hcause, hpool, hentries, hlt, hfree⟩
    · exact .inl (htakes.error _ hfull)
    · obtain ⟨e, memory, swap, hvalid, hppn, hserve⟩ := htakes.ok ppn hlt _ halloc
      have hbefore : (k₀.pte o.1 o.2).valid = false := by
        rw [hpte o]
        exact hinvalid
      have hbrings : k₀.Brings _ o :=
        .of_allotted memory swap hk₀ hbefore hcause hpool hentries hlt hfree hvalid hppn
      refine .inr (.inr ⟨_, hserve, ⟨hbrings.retriable, hinvalid, hbrings.after, fun o' hne hwas his => ?_⟩⟩)
      rw [← hpte o'] at hwas
      obtain ⟨ppn, hreplaces⟩ := hbrings.lost o' hne hwas his
      exact ⟨ppn, hreplaces.was, hreplaces.is, hreplaces.passed⟩

/-! ### Rounds -/

/-- One round of the retry: the instruction of thread `t` faults at `v`, and the fault is served. -/
def Round (t : TRef) (k : Kernel) (v : Addr) (k' : Kernel) : Prop := k.tick = .ok (.fault t v true, k')

/-- The instruction in the page of the pc, when that page may be fetched from. -/
def instruction (k : Kernel) : Option Word :=
  if k.machine.mmu.accessible .fetch k.cpu.pc then
    (k.memory.load (k.machine.mmu.physical k.cpu.pc) 4).toOption
  else none

/-- Thread `t` of process `pid` is trying the instruction at `pc`, with registers `regs`. -/
structure Trying (t : TRef) (pid : Pid) (regs : RegFile) (pc : Addr) (k : Kernel) : Prop where
  retriable : k.Retriable
  current : k.getCurrentThread = .ok t
  parent : (k.thread t).parent = pid
  table : k.cpu.currentTable = some pid
  vm : k.cpu.vmEnabled = true
  fault : k.cpu.fault = false
  regs_eq : k.cpu.regs = regs
  pc_eq : k.cpu.pc = pc

variable {t : TRef} {regs : RegFile} {pc v : Addr}

theorem Trying.of_unpaged (h : Trying t pid regs pc k) (hretriable : k'.Retriable)
    (hunpaged : k'.unpaged = k.unpaged) : Trying t pid regs pc k' := by
  have hcpu : k'.cpu = k.cpu := by
    have hfield := congrArg Kernel.cpu hunpaged
    exact hfield
  have hthread : k'.thread = k.thread := by
    have hfield := congrArg Kernel.thread hunpaged
    exact hfield
  have hnum : k'.numThreads = k.numThreads := by
    have hfield := congrArg Kernel.numThreads hunpaged
    exact hfield
  have hindex : k'.currentThreadIndex = k.currentThreadIndex := by
    have hfield := congrArg Kernel.currentThreadIndex hunpaged
    exact hfield
  have hcurrent : k'.getCurrentThread = k.getCurrentThread := by
    unfold getCurrentThread
    rw [hindex, hnum]
  exact ⟨hretriable, hcurrent.trans h.current, by rw [hthread, h.parent], by rw [hcpu, h.table],
    by rw [hcpu, h.vm], by rw [hcpu, h.fault], by rw [hcpu, h.regs_eq], by rw [hcpu, h.pc_eq]⟩

/-- A faulting step changes what is quiet only. -/
theorem Trying.faulted (h : Trying t pid regs pc k) {k₁ : Kernel} {cpu : Machine}
    (hk₁ : k₁ = k.incrementInstruction t) (hstep : k₁.machine.step = .ok cpu)
    (htrap : cpu.trap = ⟨.PageFault, v⟩) :
    Quiet k (k₁.withMachine cpu).clearTrap ∧ k₁.machine.FaultsAt v := by
  have hquiet := incrementInstruction_quiet k t
  rw [← hk₁] at hquiet
  have hfault₁ : k₁.machine.mmu.fault = false := by
    rw [hk₁]
    exact h.fault
  have hhas : cpu.hasTrap = true := by
    rw [Machine.hasTrap, htrap]
    rfl
  have hfaults : k₁.machine.FaultsAt v ∧ cpu.regs = k₁.machine.regs ∧ cpu.pc = k₁.machine.pc := by
    rcases Machine.step_traps hfault₁ hstep hhas with ⟨v', hfaults, hcpu⟩ | ⟨id, -, hcpu⟩
    · have hv : v' = v := by
        rcases hcpu with rfl | ⟨-, rfl⟩
        · exact congrArg Trap.value htrap
        · exact congrArg Trap.value htrap
      rw [← hv]
      rcases hcpu with rfl | ⟨-, rfl⟩
      · exact ⟨hfaults, rfl, rfl⟩
      · exact ⟨hfaults, rfl, rfl⟩
    · rw [hcpu] at htrap
      cases congrArg Trap.type htrap
  obtain ⟨hfaults, hregs, hpc⟩ := hfaults
  have haccess : Quiet k₁ (k₁.withMachine cpu) :=
    .access (Machine.step_mapping hstep) (Machine.step_fault hstep) ⟨hregs, hpc⟩
  exact ⟨(hquiet.trans haccess).trans (clearTrap_quiet _), hfaults⟩

theorem unpaged_of_serve {handled : Bool} (hk : k.Retriable)
    (h : k.servePageFault pid faultAddr = .ok (handled, k')) : k'.unpaged = k.unpaged := by
  have hensure := unpaged_setPTE k pid (faultAddr >>> 12) (k.pte pid (faultAddr >>> 12))
  rcases servePageFault_effect hk.owners h with ⟨-, rfl⟩ | ⟨-, -, hserves⟩
  · exact hensure
  · obtain ⟨k₁, ppn, rest, prp, e, memory, swap, halloc, -, rfl⟩ := hserves
    exact (unpaged_setPTE _ _ _ _).trans (halloc.unpaged.trans hensure)

/-- What is quiet goes on with the instruction. -/
theorem Trying.quiet (h : Trying t pid regs pc k) (hquiet : Quiet k k') : Trying t pid regs pc k' where
  retriable := h.retriable.congr (hquiet.field Kernel.pmm fun _ => rfl) (hquiet.field Kernel.prp fun _ => rfl)
    hquiet.core
  current := hquiet.getCurrentThread.trans h.current
  parent := by rw [hquiet.thread, h.parent]
  table := (hquiet.field (fun k => k.cpu.currentTable) fun _ => rfl).trans h.table
  vm := (hquiet.field (fun k => k.cpu.vmEnabled) fun _ => rfl).trans h.vm
  fault := hquiet.fault h.fault
  regs_eq := (hquiet.field (fun k => k.cpu.regs) fun _ => rfl).trans h.regs_eq
  pc_eq := (hquiet.field (fun k => k.cpu.pc) fun _ => rfl).trans h.pc_eq

/-- The page at which an instruction can fault: that of the pc, or that of its access to data once the
page of the pc is resident. -/
def Wants (k : Kernel) (pid : Pid) (regs : RegFile) (pc v : Addr) : Prop :=
  v = pc ∨ (k.pte pid (pc >>> 12)).valid = true ∧
    ∃ w a, k.instruction = some w ∧ Machine.dataAccess regs w = some (a, v)

theorem Trying.wants (h : Trying t pid regs pc k) (hfaults : k.machine.FaultsAt v) :
    k.Wants pid regs pc v := by
  have hpc : k.machine.pc = k.cpu.pc := rfl
  rcases hfaults with ⟨-, rfl⟩ | ⟨hacc, w, a, hload, haccess, -⟩
  · exact .inl (hpc.trans h.pc_eq)
  · have hallowed : k.allowed pid .fetch pc = true := by
      rw [← machine_accessible h.table h.vm, ← h.pc_eq]
      exact hacc
    have hvalid := (Bool.and_eq_true_iff.1 hallowed).1
    refine .inr ⟨hvalid, w, a, ?_, ?_⟩
    · unfold instruction
      rw [if_pos (show k.machine.mmu.accessible .fetch k.cpu.pc = true from hacc)]
      exact congrArg Except.toOption hload
    · rw [← h.regs_eq]
      exact haccess

/-- A round brings in a page that the instruction wants. -/
theorem Trying.round (h : Trying t pid regs pc k) (hround : Round t k v k') :
    Trying t pid regs pc k' ∧ k.Brings k' (pid, v >>> 12) ∧ k.Wants pid regs pc v := by
  obtain ⟨self, k₁, cpu, hself, hk₁, hstep, hcase⟩ := tick_cases hround
  obtain rfl : self = t := Except.ok.inj (hself.symm.trans h.current)
  rcases hcase with ⟨-, he, -⟩ | ⟨addr, handled, htrap, he, hhandle⟩ | ⟨id, ctx, r, -, he, -⟩
  · cases he
  · cases he
    obtain ⟨hquiet, hfaults⟩ := h.faulted hk₁ hstep htrap
    have hq := h.quiet hquiet
    rw [hk₁, incrementInstruction_machine] at hfaults
    obtain ⟨current, hcurrent, hhandle⟩ := bind_eq_ok.1 hhandle
    obtain rfl : current = self := Except.ok.inj (hcurrent.symm.trans hq.current)
    obtain ⟨⟨handled, k₂⟩, hserve, hhandle⟩ := bind_eq_ok.1 hhandle
    rw [hq.parent] at hserve
    cases handled with
    | false =>
      obtain ⟨⟨killed, k₃⟩, -, hhandle⟩ := bind_eq_ok.1 hhandle
      dsimp only at hhandle
      split at hhandle
      · cases hhandle
      · cases hhandle
    | true =>
      cases hhandle
      have hbrings : (k₁.withMachine cpu).clearTrap.Brings k' (pid, v >>> 12) := by
        rcases servePageFault_brings hq.retriable pid v with hfull | ⟨k₃, hrefused⟩ | ⟨k₃, hserved, hbrings⟩
        · cases hfull.symm.trans hserve
        · cases hrefused.symm.trans hserve
        · cases hserved.symm.trans hserve
          exact hbrings
      have hvalid : ∀ o : Page, ((k₁.withMachine cpu).clearTrap.pte o.1 o.2).valid = (k.pte o.1 o.2).valid := by
        intro o
        rw [← PTE.core_valid, hquiet.core, PTE.core_valid]
      have hpmm : (k₁.withMachine cpu).clearTrap.pmm = k.pmm := hquiet.field Kernel.pmm fun _ => rfl
      have hprp : (k₁.withMachine cpu).clearTrap.prp = k.prp := hquiet.field Kernel.prp fun _ => rfl
      refine ⟨hq.of_unpaged hbrings.retriable (unpaged_of_serve hq.retriable hserve),
        ⟨hbrings.retriable, ?_, hbrings.after, fun o' hne hwas his => ?_⟩, h.wants hfaults⟩
      · rw [← hvalid]
        exact hbrings.before
      · rw [← hvalid] at hwas
        obtain ⟨ppn, hreplaces⟩ := hbrings.lost o' hne hwas his
        have hfrom := hreplaces.was
        have hpassed := hreplaces.passed
        rw [hpmm] at hfrom
        rw [hprp] at hpassed
        exact ⟨ppn, hfrom, hreplaces.is, hpassed⟩
  · cases he

/-! ### The end of the retry -/

/-- At most `n` iterations of the main loop for the current thread, as long as each is a page fault that is
served: the first that is not, or `none`. -/
def retry : Nat → Kernel → Except Halt (Option (Event × Kernel))
  | 0, _ => .ok none
  | n + 1, k => do
    let (e, k') ← k.tick
    match e with
    | .fault _ _ true => retry n k'
    | e => .ok (some (e, k'))

/-- The retry of the current instruction comes to an end. -/
def Ends (k : Kernel) : Prop := ∃ n, retry n k ≠ .ok none

/-- As long as it is tried, the instruction is `w`. -/
def Steady (t : TRef) (w : Word) (k : Kernel) : Prop :=
  ∀ vs k', Run (Round t) k vs k' → ∀ w', k'.instruction = some w' → w' = w

theorem Steady.round {w : Word} (h : Steady t w k) (hround : Round t k v k') : Steady t w k' :=
  fun vs k'' hrun => h ([v] ++ vs) k'' ((Run.snoc .nil hround).append hrun)

/-- The retry ends if it ends after the next round. -/
theorem Ends.of_next (h : Trying t pid regs pc k) (hnext : ∀ v k', Round t k v k' → k'.Ends) : k.Ends := by
  by_cases hround : ∃ v k', Round t k v k'
  · obtain ⟨v, k', hround⟩ := hround
    obtain ⟨n, hn⟩ := hnext v k' hround
    refine ⟨n + 1, fun hnone => hn ?_⟩
    obtain ⟨⟨e, k₁⟩, htick, hnone⟩ := bind_eq_ok.1 hnone
    cases hround.symm.trans htick
    exact hnone
  · refine ⟨1, fun hnone => hround ?_⟩
    obtain ⟨⟨e, k'⟩, htick, hnone⟩ := bind_eq_ok.1 hnone
    cases e with
    | fault self addr handled =>
      cases handled with
      | true =>
        obtain ⟨self', k₁, cpu, hself, hk₁, hstep, hcase⟩ := tick_cases htick
        have ht : self' = t := Except.ok.inj (hself.symm.trans h.current)
        rcases hcase with ⟨-, he, -⟩ | ⟨addr', handled', -, he, -⟩ | ⟨id, ctx, r, -, he, -⟩
        · cases he
        · cases he
          exact ⟨addr, k', ht ▸ htick⟩
        · cases he
      | false => cases hnone
    | _ => cases hnone

/-- The frame table knows a page by its owner and number. -/
theorem page_of_info {o o' : Page} (h : ({ ownerPid := o.1.val, vpn := o.2, allocated := true } : FrameInfo) =
    { ownerPid := o'.1.val, vpn := o'.2, allocated := true }) : o = o' := by
  have hpid : (o.1.val : Int) = o'.1.val := congrArg FrameInfo.ownerPid h
  exact Prod.ext (Fin.ext (Int.ofNat.inj hpid)) (congrArg FrameInfo.vpn h)

theorem Retriable.resident (hk : k.Retriable)
    (hinfo : k.pmm.frameTable ppn = { ownerPid := o.1.val, vpn := o.2, allocated := true }) :
    (k.pte o.1 o.2).valid = true ∧ (k.pte o.1 o.2).ppn.toNat = ppn := by
  obtain ⟨o', hinfo', hvalid, hppn⟩ := hk.owners.owner ppn (by rw [hinfo])
  obtain rfl : o' = o := page_of_info (hinfo'.symm.trans hinfo)
  exact ⟨hvalid, hppn⟩

section
variable {w : Word} {x y : Page} (hwanted : ∀ k v, Trying t pid regs pc k → Steady t w k →
  k.Wants pid regs pc v → (pid, v >>> 12) = x ∨ (pid, v >>> 12) = y)
include hwanted

/-- Once both pages are resident, no round follows. -/
theorem Trying.ends_of_resident (h : Trying t pid regs pc k) (hsteady : Steady t w k)
    (hx : (k.pte x.1 x.2).valid = true) (hy : (k.pte y.1 y.2).valid = true) : k.Ends := by
  refine .of_next h fun v k' hround => ?_
  obtain ⟨-, hbrings, hwants⟩ := h.round hround
  have hbefore := hbrings.before
  rcases hwanted k v h hsteady hwants with heq | heq
  · rw [heq, hx] at hbefore
    cases hbefore
  · rw [heq, hy] at hbefore
    cases hbefore

end

/-- Two pages take frame `ppn` from each other: each time, every other frame comes nearer to the front of
the queue. -/
theorem Trying.ends_of_held {w : Word} {x y : Page} (hwanted : ∀ k v, Trying t pid regs pc k →
      Steady t w k → k.Wants pid regs pc v → (pid, v >>> 12) = x ∨ (pid, v >>> 12) = y)
    {other : Nat} (hlt : other < NUM_FRAMES) (hne : other ≠ ppn) (h : Trying t pid regs pc k)
    (hsteady : Steady t w k)
    (hheld : k.pmm.frameTable ppn = { ownerPid := x.1.val, vpn := x.2, allocated := true })
    (hout : (k.pte y.1 y.2).valid = false) : k.Ends := by
  induction hrank : k.prp.queue.idxOf other using Nat.strong_induction_on generalizing k x y with
  | _ rank ih =>
    have hx := (h.retriable.resident hheld).1
    refine .of_next h fun v k' hround => ?_
    obtain ⟨h', hbrings, hwants⟩ := h.round hround
    have hsteady' := hsteady.round hround
    have hbrought : (pid, v >>> 12) = y := by
      refine (hwanted k v h hsteady hwants).resolve_left fun heq => ?_
      have hbefore := hbrings.before
      rw [heq, hx] at hbefore
      cases hbefore
    rw [hbrought] at hbrings
    cases hx' : (k'.pte x.1 x.2).valid with
    | true => exact h'.ends_of_resident hwanted hsteady' hx' hbrings.after
    | false =>
      have hxy : x ≠ y := by
        rintro rfl
        rw [hx] at hout
        cases hout
      obtain ⟨ppn', hreplaces⟩ := hbrings.lost x hxy hx hx'
      obtain rfl : ppn' = ppn := (h.retriable.resident hreplaces.was).2.symm.trans
        (h.retriable.resident hheld).2
      exact ih _ (hrank ▸ hreplaces.passed other hlt hne)
        (fun k v h hsteady hwants => (hwanted k v h hsteady hwants).symm) h' hsteady' hreplaces.is hx' rfl

/-- Page-fault retry terminates: where each frame is free or owned by one resident page that the frame
table names, the queue of the policy holds every allocated frame, and the instruction stays the same as
long as it is tried, an iteration that is not a served page fault comes after finitely many. -/
theorem retry_ends {w : Word} (h : Trying t pid regs pc k) (hsteady : Steady t w k) :
    ∃ n, retry n k ≠ .ok none := by
  let x : Page := (pid, pc >>> 12)
  -- the page of the instruction's data, if it has any
  let y : Page := (Machine.dataAccess regs w).elim x fun access => (pid, access.2 >>> 12)
  have hwanted : ∀ k v, Trying t pid regs pc k → Steady t w k → k.Wants pid regs pc v →
      (pid, v >>> 12) = x ∨ (pid, v >>> 12) = y := by
    rintro k v - hsteady (rfl | ⟨-, w', a, hinstr, haccess⟩)
    · exact .inl rfl
    · refine .inr ?_
      rw [hsteady [] k .nil w' hinstr] at haccess
      show _ = (Machine.dataAccess regs w).elim x _
      rw [haccess]
      rfl
  refine Ends.of_next h fun v k' hround => ?_
  obtain ⟨h', hbrings, hwants⟩ := h.round hround
  have hsteady' := hsteady.round hround
  refine .of_next h' fun v' k'' hround' => ?_
  obtain ⟨h'', hbrings', hwants'⟩ := h'.round hround'
  have hsteady'' := hsteady'.round hround'
  have hne : (pid, v >>> 12) ≠ (pid, v' >>> 12) := fun heq => by
    have hbefore := hbrings'.before
    rw [← heq, hbrings.after] at hbefore
    cases hbefore
  -- the two pages that the rounds have brought in are the two that the instruction wants
  have hboth : ∀ k u, Trying t pid regs pc k → Steady t w k → k.Wants pid regs pc u →
      (pid, u >>> 12) = (pid, v' >>> 12) ∨ (pid, u >>> 12) = (pid, v >>> 12) := by
    intro k₁ u h₁ hsteady₁ hwants₁
    rcases hwanted k v h hsteady hwants with heq | heq
    · have hother := (hwanted k' v' h' hsteady' hwants').resolve_left fun heq' => hne (heq.trans heq'.symm)
      rw [heq, hother]
      exact (hwanted k₁ u h₁ hsteady₁ hwants₁).symm
    · have hother := (hwanted k' v' h' hsteady' hwants').resolve_right fun heq' => hne (heq.trans heq'.symm)
      rw [heq, hother]
      exact hwanted k₁ u h₁ hsteady₁ hwants₁
  cases hfirst : (k''.pte pid (v >>> 12)).valid with
  | true => exact h''.ends_of_resident hboth hsteady'' hbrings'.after hfirst
  | false =>
    obtain ⟨ppn, hreplaces⟩ := hbrings'.lost (pid, v >>> 12) hne hbrings.after hfirst
    obtain ⟨other, hlt, hother⟩ : ∃ other < NUM_FRAMES, other ≠ ppn := by
      by_cases hppn : ppn = 0
      · exact ⟨1, by decide, by omega⟩
      · exact ⟨0, by decide, Ne.symm hppn⟩
    exact h''.ends_of_held hboth hlt hother hsteady'' hreplaces.is hfirst

/-! ### A store to the stack -/

/-- `a.elf` stores at the top of its stack. -/
def stackStore : Host where
  files name := if name = [0x61] then some (elfFile [0x23, 0x2E, 0x21, 0xFE]) else none
  console := { stdin := [], answers := [], written := [] }

/-- The served faults of thread 0. -/
def Event.served (e : Event) : Option Addr :=
  match e with
  | .fault 0 v true => some v
  | _ => none

theorem Event.served_iff {e : Event} : e.served = some v ↔ e = .fault 0 v true := by
  unfold Event.served
  split
  · rw [Option.some.injEq]
    constructor
    · rintro rfl
      rfl
    · intro h
      cases h
      rfl
  · rename_i hne
    constructor
    · intro h
      cases h
    · rintro rfl
      exact absurd rfl (hne v)

/-- Its code comes in, then its stack, and then the store goes through. -/
theorem retry_ends_stack : ∃ k₀ k₁ k₂, boot stackStore [[0x61]] = .ok k₀ ∧ Round 0 k₀ 84 k₁ ∧
    Round 0 k₁ 0x3FFFFFC k₂ ∧ ∃ n, retry n k₀ ≠ .ok none := by
  have hdec : returns (boot stackStore [[0x61]]) (fun k₀ =>
      decide (k₀.currentThreadIndex = some 0 ∧ 0 < k₀.numThreads ∧ (k₀.thread 0).parent = 0 ∧
        k₀.cpu.currentTable = some 0 ∧ k₀.cpu.vmEnabled = true ∧ k₀.cpu.fault = false ∧
        (∀ ppn < NUM_FRAMES, (k₀.pmm.frameTable ppn).allocated = false) ∧ k₀.instruction = none) &&
      returns k₀.tick fun r₁ => decide (r₁.1.served = some 84) && decide (r₁.2.instruction = some 0xFE212E23) &&
        returns r₁.2.tick fun r₂ => decide (r₂.1.served = some 0x3FFFFFC) &&
          decide (r₂.2.instruction = some 0xFE212E23) &&
          returns r₂.2.tick fun r₃ => decide (r₃.1.served = none)) = true := by decide +kernel
  obtain ⟨k₀, hboot, hdec⟩ := returns_iff.1 hdec
  rw [Bool.and_eq_true] at hdec
  obtain ⟨hstart, hdec⟩ := hdec
  obtain ⟨hindex, hnum, hparent, htable, hvm, hfault, hunused, hinstr₀⟩ := of_decide_eq_true hstart
  obtain ⟨⟨e₁, k₁⟩, htick₁, hdec⟩ := returns_iff.1 hdec
  rw [Bool.and_eq_true, Bool.and_eq_true] at hdec
  obtain ⟨⟨hserved₁, hinstr₁⟩, hdec⟩ := hdec
  obtain ⟨⟨e₂, k₂⟩, htick₂, hdec⟩ := returns_iff.1 hdec
  rw [Bool.and_eq_true, Bool.and_eq_true] at hdec
  obtain ⟨⟨hserved₂, hinstr₂⟩, hdec⟩ := hdec
  obtain ⟨⟨e₃, k₃⟩, htick₃, hdone⟩ := returns_iff.1 hdec
  obtain rfl := Event.served_iff.1 (of_decide_eq_true hserved₁)
  obtain rfl := Event.served_iff.1 (of_decide_eq_true hserved₂)
  have hround₁ : Round 0 k₀ 84 k₁ := htick₁
  have hround₂ : Round 0 k₁ 0x3FFFFFC k₂ := htick₂
  -- the three states of the retry, and the instruction in each
  have hsteady : Steady 0 0xFE212E23 k₀ := by
    intro vs k' hrun w' hinstr
    have hstates : k' = k₀ ∨ k' = k₁ ∨ k' = k₂ := by
      apply hrun.invariant fun k' => k' = k₀ ∨ k' = k₁ ∨ k' = k₂
      · exact .inl rfl
      · rintro s v s' (rfl | rfl | rfl) hround
        · cases hround₁.symm.trans hround
          exact .inr (.inl rfl)
        · cases hround₂.symm.trans hround
          exact .inr (.inr rfl)
        · cases htick₃.symm.trans hround
          cases (Event.served_iff (e := .fault 0 v true)).2 rfl ▸ of_decide_eq_true hdone
    rcases hstates with rfl | rfl | rfl
    · cases hinstr₀.symm.trans hinstr
    · exact (Option.some.inj ((of_decide_eq_true hinstr₁).symm.trans hinstr)).symm
    · exact (Option.some.inj ((of_decide_eq_true hinstr₂).symm.trans hinstr)).symm
  have htrying : Trying 0 0 k₀.cpu.regs k₀.cpu.pc k₀ :=
    ⟨.of_framesOk (boot_framesOk hboot) fun ppn hlt hall => absurd hall (by rw [hunused ppn hlt]; decide),
      getCurrentThread_eq.2 ⟨hindex, hnum⟩, hparent, htable, hvm, hfault, rfl, rfl⟩
  exact ⟨k₀, k₁, k₂, hboot, hround₁, hround₂, retry_ends htrying hsteady⟩

end Kernel

end Rv32umos
