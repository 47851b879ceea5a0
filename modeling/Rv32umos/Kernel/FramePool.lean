import Rv32umos.Kernel.Tracking
import Rv32umos.Lib.StaleQueue

/-!
# The pool of frames

Allocations, evictions and wipes in any order, with page tables that change in between (`PoolStep`).
A wipe tells the frame table and the free list of a frame, but not the replacement policy, and it may
free a frame twice. What lasts (`Pooled`): a frame is free or allocated, and the queue of the policy
holds every allocated frame, among entries that are out of date. So an allocation ends in no other
panic than that of a full swap area (`frame_available`).
-/

namespace Rv32umos

open Transition

theorem FIFOPolicy.popVictim_eq (frameTable : Nat → FrameInfo) (queue : List Nat) :
    popVictim frameTable queue = StaleQueue.pop (fun ppn => (frameTable ppn).allocated) queue := by
  induction queue with
  | nil => rfl
  | cons head rest ih => rw [popVictim, StaleQueue.pop, ih]

/-- The free list, the frame table, and the queue of the policy. -/
structure PoolOk (pmm : PhysicalMemoryManager) (queue : List Nat) : Prop where
  inRam : pmm.InRam
  covered : ∀ ppn < NUM_FRAMES, frameAddr ppn ∈ pmm.freeFrames ∨ (pmm.frameTable ppn).allocated = true
  queued : ∀ ppn, (pmm.frameTable ppn).allocated = true → ppn ∈ queue
  owned : ∀ ppn, (pmm.frameTable ppn).allocated = true →
    ∃ pid : Pid, (pmm.frameTable ppn).ownerPid = pid.val

namespace PoolOk

variable {pmm : PhysicalMemoryManager} {queue queue' : List Nat} {ppn : Nat}

/-- A frame is freed, and the queue loses no other allocated frame. -/
theorem freed (h : PoolOk pmm queue) (hlt : ppn < NUM_FRAMES)
    (hqueue : ∀ ppn' ∈ queue, (pmm.frameTable ppn').allocated = true → ppn' = ppn ∨ ppn' ∈ queue') :
    PoolOk (pmm.freed ppn) queue' := by
  have hkept : ∀ ppn', ((pmm.freed ppn).frameTable ppn').allocated = true →
      ppn' ≠ ppn ∧ (pmm.freed ppn).frameTable ppn' = pmm.frameTable ppn' := by
    intro ppn' hall
    have hne : ppn' ≠ ppn := by
      rintro rfl
      rw [pmm.freed_self] at hall
      cases hall
    exact ⟨hne, pmm.freed_ne hne⟩
  refine ⟨h.inRam.freed hlt, fun ppn' hlt' => ?_, fun ppn' hall => ?_, fun ppn' hall => ?_⟩
  · by_cases heq : ppn' = ppn
    · rw [heq]
      exact .inl List.mem_cons_self
    · rw [pmm.freed_ne heq]
      exact (h.covered ppn' hlt').imp_left (List.mem_cons_of_mem _)
  · obtain ⟨hne, hsame⟩ := hkept ppn' hall
    rw [hsame] at hall
    exact (hqueue ppn' (h.queued ppn' hall) hall).resolve_left hne
  · obtain ⟨-, hsame⟩ := hkept ppn' hall
    rw [hsame] at hall ⊢
    exact h.owned ppn' hall

/-- The first free frame is given to a page. -/
theorem taken {rest : List Addr} (h : PoolOk pmm queue) (hlt : ppn < NUM_FRAMES)
    (hfree : pmm.freeFrames = frameAddr ppn :: rest) (o : Page) :
    PoolOk (pmm.taken rest ppn o) (queue ++ [ppn]) := by
  refine ⟨h.inRam.taken hfree hlt o, fun ppn' hlt' => ?_, fun ppn' hall => ?_, fun ppn' hall => ?_⟩
  · by_cases heq : ppn' = ppn
    · rw [heq, pmm.taken_self]
      exact .inr rfl
    · rw [pmm.taken_ne rest o heq]
      refine (h.covered ppn' hlt').imp_left fun hmem => ?_
      rw [hfree, List.mem_cons] at hmem
      exact hmem.resolve_left fun hframe => heq (frameAddr_inj hlt' hlt hframe)
  · by_cases heq : ppn' = ppn
    · rw [heq]
      exact List.mem_append_right _ (List.mem_singleton_self _)
    · rw [pmm.taken_ne rest o heq] at hall
      exact List.mem_append_left _ (h.queued ppn' hall)
  · by_cases heq : ppn' = ppn
    · rw [heq, pmm.taken_self]
      exact ⟨o.1, rfl⟩
    · rw [pmm.taken_ne rest o heq] at hall ⊢
      exact h.owned ppn' hall

end PoolOk

namespace Kernel

variable {k k' : Kernel} {o : Page} {ppn : Nat}

/-- The pool of a kernel, whose page tables name frames of RAM. -/
structure Pooled (k : Kernel) : Prop where
  pool : PoolOk k.pmm k.prp.queue
  mapped : ∀ o : Page, (k.pte o.1 o.2).valid = true → (k.pte o.1 o.2).ppn.toNat < NUM_FRAMES

/-- The policy finds a frame as long as one is allocated. -/
theorem victim_of_allocated (hpool : PoolOk k.pmm k.prp.queue)
    (hall : (k.pmm.frameTable ppn).allocated = true) :
    ∃ v rest, k.victim = some v ∧ (k.prp.findVictim k.pmm.frameTable).2 = ⟨rest⟩ ∧
      (k.pmm.frameTable v).allocated = true ∧
      ∀ ppn ∈ k.prp.queue, (k.pmm.frameTable ppn).allocated = true → ppn = v ∨ ppn ∈ rest := by
  obtain ⟨dead, v, rest, hqueue, hdead, hv, hpop⟩ :=
    StaleQueue.exists_pop (fun ppn => (k.pmm.frameTable ppn).allocated) (hpool.queued ppn hall) hall
  rw [← FIFOPolicy.popVictim_eq] at hpop
  refine ⟨v, rest, ?_, ?_, hv, fun ppn' hmem hlive => ?_⟩
  · rw [victim, FIFOPolicy.findVictim, hpop]
  · rw [FIFOPolicy.findVictim, hpop]
  · exact StaleQueue.mem_rest hdead hlive (hqueue ▸ hmem)

/-- When nothing is free, everything is allocated. -/
theorem allocated_of_full (hpool : PoolOk k.pmm k.prp.queue) (hfull : k.pmm.freeFrames = []) :
    (k.pmm.frameTable 0).allocated = true := by
  refine (hpool.covered 0 (by decide)).resolve_left fun hmem => ?_
  rw [hfull] at hmem
  cases hmem

theorem freeFrame_frameAddr (hlt : ppn < NUM_FRAMES) :
    k.freeFrame (frameAddr ppn) = .ok { k with pmm := k.pmm.freed ppn } :=
  bind_eq_ok.2 ⟨_, k.pmm.freeFrame_eq hlt, rfl⟩

theorem swapOutPage_cases (pid : Pid) (vpn : Addr) (hlt : ppn < NUM_FRAMES) :
    k.swapOutPage pid vpn (frameAddr ppn) = .error (.panic "Swap Full!") ∨
    ∃ slot swap disk, k.swapOutPage pid vpn (frameAddr ppn) =
      .ok { k.setPTE pid vpn (swappedPTE (k.pte pid vpn) slot) with pmm := k.pmm.freed ppn, swap, disk } := by
  unfold swapOutPage SwapManager.swapOut
  rw [k.memory.loadPage_eq hlt]
  cases hslot : k.swap.firstFree with
  | none => exact .inl rfl
  | some slot =>
    exact .inr ⟨slot, ⟨Function.update k.swap.allocationMap slot true⟩,
      k.disk.writeBlock (SwapManager.swapStartBlock + slot) (k.memory.page ppn), freeFrame_frameAddr hlt⟩

/-- An eviction frees its victim, and takes the entry of a page away; or the swap area is full. -/
theorem evictPage_victim (hpool : PoolOk k.pmm k.prp.queue) {v : Nat} {rest : List Nat} (hvictim : k.victim = some v)
    (hrest : (k.prp.findVictim k.pmm.frameTable).2 = ⟨rest⟩)
    (hv : (k.pmm.frameTable v).allocated = true) :
    k.evictPage = .error (.panic "Swap Full!") ∨
    ∃ k', k.evictPage = .ok k' ∧ k'.pmm = k.pmm.freed v ∧ k'.prp.queue = rest ∧
      ∀ o : Page, (k'.pte o.1 o.2).valid = true → k'.pte o.1 o.2 = k.pte o.1 o.2 := by
  have hlt := hpool.inRam.table v hv
  obtain ⟨pid, hpid⟩ := hpool.owned v hv
  have hentry : ∀ (k₁ : Kernel) (e : PTE), e.valid = false → (∀ o : Page, k₁.pte o.1 o.2 =
      (k.setPTE pid (k.pmm.frameTable v).vpn e).pte o.1 o.2) →
      ∀ o : Page, (k₁.pte o.1 o.2).valid = true → k₁.pte o.1 o.2 = k.pte o.1 o.2 := by
    intro k₁ e he hsame o hvalid
    rw [hsame] at hvalid ⊢
    rw [pte_setPTE] at hvalid ⊢
    split_ifs at hvalid ⊢
    · rw [he] at hvalid
      cases hvalid
    · rfl
  have hpaddr : (BitVec.ofNat 32 (v * KERNEL_PAGE_SIZE) : Addr) = frameAddr v := rfl
  unfold victim at hvictim
  unfold evictPage
  simp only [hvictim, hrest, hpid, Pid.ofInt?_val, hpaddr]
  split_ifs
  · refine .inr ⟨_, freeFrame_frameAddr hlt, rfl, rfl, ?_⟩
    exact hentry _ (droppedPTE (k.pte pid (k.pmm.frameTable v).vpn)) rfl fun _ => rfl
  · rcases swapOutPage_cases (k := { k with prp := ⟨rest⟩ }) pid (k.pmm.frameTable v).vpn hlt with
      hswap | ⟨slot, swap, disk, hswap⟩
    · exact .inl hswap
    · refine .inr ⟨_, hswap, rfl, rfl, ?_⟩
      exact hentry _ (swappedPTE (k.pte pid (k.pmm.frameTable v).vpn) slot) rfl fun _ => rfl

/-- After the first free frame has been given to page `o`. -/
def allotted (k : Kernel) (o : Page) (ppn : Nat) (rest : List Addr) : Kernel :=
  { k with pmm := k.pmm.taken rest ppn o, prp := k.prp.onAllocate ppn }

/-- The eviction that makes room for an allocation. -/
theorem evictPage_pool (hpool : PoolOk k.pmm k.prp.queue) (hall : (k.pmm.frameTable ppn).allocated = true) :
    k.evictPage = .error (.panic "Swap Full!") ∨
    ∃ k' v rest, k.evictPage = .ok k' ∧ PoolOk k'.pmm k'.prp.queue ∧
      (∀ o : Page, (k'.pte o.1 o.2).valid = true → k'.pte o.1 o.2 = k.pte o.1 o.2) ∧ v < NUM_FRAMES ∧
      k.victim = some v ∧ (k.prp.findVictim k.pmm.frameTable).2 = ⟨rest⟩ ∧ k'.prp.queue = rest ∧
      k'.pmm = k.pmm.freed v := by
  obtain ⟨v, rest, hvictim, hrest, hv, hothers⟩ := victim_of_allocated hpool hall
  rcases evictPage_victim hpool hvictim hrest hv with hfull | ⟨k', hevict, hpmm, hqueue, hentries⟩
  · exact .inl hfull
  · have hlt := hpool.inRam.table v hv
    refine .inr ⟨k', v, rest, hevict, ?_, hentries, hlt, hvictim, hrest, hqueue, hpmm⟩
    rw [hpmm, hqueue]
    exact hpool.freed hlt hothers

theorem Pooled.of_entries (hk : k.Pooled) (hpool : PoolOk k'.pmm k'.prp.queue)
    (hentries : ∀ o : Page, (k'.pte o.1 o.2).valid = true → k'.pte o.1 o.2 = k.pte o.1 o.2) :
    k'.Pooled := by
  refine ⟨hpool, fun o hvalid => ?_⟩
  have hsame := hentries o hvalid
  rw [hsame] at hvalid ⊢
  exact hk.mapped o hvalid

theorem evict_pooled (hk : k.Pooled) (hall : (k.pmm.frameTable ppn).allocated = true) :
    k.evictPage = .error (.panic "Swap Full!") ∨
    ∃ k' v rest, k.evictPage = .ok k' ∧ k'.Pooled ∧ v < NUM_FRAMES ∧ k.victim = some v ∧
      (k.prp.findVictim k.pmm.frameTable).2 = ⟨rest⟩ ∧ k'.prp.queue = rest ∧ k'.pmm = k.pmm.freed v := by
  rcases evictPage_pool hk.pool hall with hfull | ⟨k', v, rest, hevict, hpool, hentries, hmore⟩
  · exact .inl hfull
  · exact .inr ⟨k', v, rest, hevict, hk.of_entries hpool hentries, hmore⟩

theorem allocated_of_evictPage (h : k.evictPage = .ok k') :
    ∃ v, (k.pmm.frameTable v).allocated = true := by
  unfold evictPage FIFOPolicy.findVictim at h
  dsimp only at h
  cases hfound : (FIFOPolicy.popVictim k.pmm.frameTable k.prp.queue).1 with
  | none =>
    rw [hfound] at h
    cases h
  | some v => exact ⟨v, popVictim_allocated hfound⟩

/-- An allocation takes the first free frame, after an eviction if there is none; or the swap area is
full. -/
theorem allocateFrame_pool (hpool : PoolOk k.pmm k.prp.queue) (o : Page) :
    k.allocateFrame o.1 o.2 = .error (.panic "Swap Full!") ∨
    ∃ k₁ ppn rest, k.allocateFrame o.1 o.2 = .ok (frameAddr ppn, k₁.allotted o ppn rest) ∧
      (k₁ = k ∨ k.pmm.freeFrames = [] ∧ k.evictPage = .ok k₁) ∧ PoolOk k₁.pmm k₁.prp.queue ∧
      (∀ o : Page, (k₁.pte o.1 o.2).valid = true → k₁.pte o.1 o.2 = k.pte o.1 o.2) ∧
      ppn < NUM_FRAMES ∧ k₁.pmm.freeFrames = frameAddr ppn :: rest := by
  unfold allocateFrame
  rcases hfree : k.pmm.freeFrames with _ | ⟨frame, rest⟩
  · have hnone : k.pmm.allocateFrame = (none, k.pmm) := by
      unfold PhysicalMemoryManager.allocateFrame
      rw [hfree]
    simp only [hnone]
    rcases evictPage_pool hpool (allocated_of_full hpool hfree) with
      hfull | ⟨k₁, v, -, hevict, hpool₁, hentries, hlt, -, -, -, hpmm⟩
    · exact .inl (by rw [hfull]; rfl)
    · have hfree₁ : k₁.pmm.freeFrames = frameAddr v :: k.pmm.freeFrames := by
        rw [hpmm]
        rfl
      refine .inr ⟨k₁, v, _, ?_, .inr ⟨trivial, hevict⟩, hpool₁, hentries, hlt, hfree₁⟩
      refine bind_eq_ok.2 ⟨k₁, hevict, ?_⟩
      simp only [PhysicalMemoryManager.allocateFrame_eq hfree₁]
      exact bind_eq_ok.2 ⟨_, registerFrame_eq hlt _, rfl⟩
  · obtain ⟨ppn, hlt, rfl⟩ := hpool.inRam.free frame (hfree ▸ List.mem_cons_self)
    refine .inr ⟨k, ppn, rest, ?_, .inl rfl, hpool, fun _ _ => rfl, hlt, hfree⟩
    simp only [PhysicalMemoryManager.allocateFrame_eq hfree]
    exact bind_eq_ok.2 ⟨_, registerFrame_eq hlt _, rfl⟩

theorem allocateFrame_pooled (hk : k.Pooled) (o : Page) :
    k.allocateFrame o.1 o.2 = .error (.panic "Swap Full!") ∨
    ∃ k₁ ppn rest, k.allocateFrame o.1 o.2 = .ok (frameAddr ppn, k₁.allotted o ppn rest) ∧
      (k₁ = k ∨ k.pmm.freeFrames = [] ∧ k.evictPage = .ok k₁) ∧ k₁.Pooled ∧ ppn < NUM_FRAMES ∧
      k₁.pmm.freeFrames = frameAddr ppn :: rest := by
  rcases allocateFrame_pool hk.pool o with
    hfull | ⟨k₁, ppn, rest, hok, hcause, hpool, hentries, hlt, hfree⟩
  · exact .inl hfull
  · exact .inr ⟨k₁, ppn, rest, hok, hcause, hk.of_entries hpool hentries, hlt, hfree⟩

theorem Pooled.allotted {rest : List Addr} (hk : k.Pooled) (hlt : ppn < NUM_FRAMES)
    (hfree : k.pmm.freeFrames = frameAddr ppn :: rest) (o : Page) : (k.allotted o ppn rest).Pooled :=
  ⟨hk.pool.taken hlt hfree o, hk.mapped⟩

/-- A wipe frees frames of RAM only. -/
theorem wipeMemory_pooled (hk : k.Pooled) (pid : Pid) :
    ∃ pmm, k.wipeMemory pid = .ok { k with pmm } ∧ ({ k with pmm } : Kernel).Pooled := by
  have hlist : ∀ (l : List (Addr × PTE)), (∀ e ∈ l, e.2.valid = true → e.2.ppn.toNat < NUM_FRAMES) →
      ∀ k : Kernel, k.Pooled → ∃ pmm, l.foldlM (fun k e => wipePTE k e.2) k = .ok { k with pmm } ∧
        ({ k with pmm } : Kernel).Pooled := by
    intro l
    induction l with
    | nil => exact fun _ k hk => ⟨k.pmm, rfl, hk⟩
    | cons e l ih =>
      intro hl k hk
      rw [List.foldlM_cons, wipePTE]
      split_ifs with hvalid
      · have hlt := hl e List.mem_cons_self hvalid
        have hfreed : ({ k with pmm := k.pmm.freed e.2.ppn.toNat } : Kernel).Pooled :=
          ⟨hk.pool.freed hlt fun _ hmem _ => .inr hmem, hk.mapped⟩
        obtain ⟨pmm, hrest, hpooled⟩ := ih (fun e he => hl e (List.mem_cons_of_mem _ he)) _ hfreed
        refine ⟨pmm, bind_eq_ok.2 ⟨_, ?_, hrest⟩, hpooled⟩
        rw [mul_pageSize]
        exact freeFrame_frameAddr hlt
      · exact ih (fun e he => hl e (List.mem_cons_of_mem _ he)) k hk
  refine hlist _ (fun e he hvalid => ?_) k hk
  have hpte : k.pte pid e.1 = e.2 := PageTable.entry_of_find? (PageTable.mem_toList.1 he)
  rw [← hpte] at hvalid ⊢
  exact hk.mapped (pid, e.1) hvalid

/-! ### Every run -/

/-- One operation on the pool, with the frame that it allocates, or a change elsewhere: an entry of a
page table becomes valid for a frame that is allocated. -/
inductive PoolStep (k : Kernel) : Option Nat → Kernel → Prop
  | allocate {pid : Pid} {vpn paddr : Addr} {k' : Kernel} (h : k.allocateFrame pid vpn = .ok (paddr, k')) :
    PoolStep k (some (paddr >>> 12).toNat) k'
  | evict {k' : Kernel} (h : k.evictPage = .ok k') : PoolStep k none k'
  | wipe {pid : Pid} {k' : Kernel} (h : k.wipeMemory pid = .ok k') : PoolStep k none k'
  | edit {k' : Kernel} (hpmm : k'.pmm = k.pmm) (hprp : k'.prp = k.prp)
    (hentries : ∀ o : Page, (k'.pte o.1 o.2).valid = true →
      (k.pmm.frameTable (k'.pte o.1 o.2).ppn.toNat).allocated = true ∨
      ((k.pte o.1 o.2).valid = true ∧ (k'.pte o.1 o.2).ppn = (k.pte o.1 o.2).ppn)) : PoolStep k none k'

theorem PoolStep.pooled {e : Option Nat} (hk : k.Pooled) (h : PoolStep k e k') : k'.Pooled := by
  cases h with
  | @allocate pid vpn paddr _ h =>
    rcases allocateFrame_pooled hk (pid, vpn) with hfull | ⟨k₁, ppn, rest, hok, -, hk₁, hlt, hfree⟩
    · cases hfull.symm.trans h
    · cases hok.symm.trans h
      exact hk₁.allotted hlt hfree _
  | evict h =>
    obtain ⟨v, hall⟩ := allocated_of_evictPage h
    rcases evict_pooled hk hall with hfull | ⟨k₁, _, _, hok, hk₁, -⟩
    · cases hfull.symm.trans h
    · cases hok.symm.trans h
      exact hk₁
  | @wipe pid _ h =>
    obtain ⟨pmm, hok, hpooled⟩ := wipeMemory_pooled hk pid
    cases hok.symm.trans h
    exact hpooled
  | edit hpmm hprp hentries =>
    refine ⟨?_, fun o hvalid => ?_⟩
    · rw [hpmm, hprp]
      exact hk.pool
    · rcases hentries o hvalid with hall | ⟨hvalid', hppn⟩
      · exact hk.pool.inRam.table _ hall
      · rw [hppn]
        exact hk.mapped o hvalid'

theorem init_pooled (host : Host) : (init host).Pooled := by
  have hfree := (init_framesOk host).free
  refine ⟨⟨(init_framesOk host).owners.inRam, fun ppn hlt => .inl ?_, nofun, nofun⟩, nofun⟩
  exact (hfree (frameAddr ppn)).2 ⟨ppn, hlt, rfl, rfl⟩

/-- A frame can always be found: after any allocations, evictions and wipes, every frame is free or
allocated, and the queue holds the allocated ones. So a victim is found when nothing is free, and the
only panic of an allocation, or of an eviction that makes room, is that of a full swap area; a wipe
frees no frame outside RAM. -/
theorem frame_available {host : Host} {es : List (Option Nat)} (hrun : Run PoolStep (init host) es k) :
    (∀ ppn < NUM_FRAMES, frameAddr ppn ∈ k.pmm.freeFrames ∨ (k.pmm.frameTable ppn).allocated = true) ∧
    (∀ ppn, (k.pmm.frameTable ppn).allocated = true → ppn ∈ k.prp.queue) ∧
    (k.pmm.freeFrames = [] → (k.prp.findVictim k.pmm.frameTable).1 ≠ none ∧
      ∀ why, k.evictPage = .error why → why = .panic "Swap Full!") ∧
    (∀ pid vpn why, k.allocateFrame pid vpn = .error why → why = .panic "Swap Full!") ∧
    ∀ pid, ∃ k', k.wipeMemory pid = .ok k' := by
  have hk : k.Pooled := hrun.invariant Pooled (init_pooled host) fun _ _ _ hk hstep => hstep.pooled hk
  refine ⟨hk.pool.covered, hk.pool.queued, fun hfull => ?_, fun pid vpn why h => ?_, fun pid => ?_⟩
  · have hall := allocated_of_full hk.pool hfull
    obtain ⟨v, -, hvictim, -⟩ := victim_of_allocated hk.pool hall
    refine ⟨fun hnone => ?_, fun why h => ?_⟩
    · cases hvictim.symm.trans hnone
    · rcases evict_pooled hk hall with hswap | ⟨_, _, _, hok, -⟩
      · cases hswap.symm.trans h
        rfl
      · cases hok.symm.trans h
  · rcases allocateFrame_pooled hk (pid, vpn) with hswap | ⟨_, _, _, hok, -⟩
    · cases hswap.symm.trans h
      rfl
    · cases hok.symm.trans h
  · obtain ⟨pmm, hok, -⟩ := wipeMemory_pooled hk pid
    exact ⟨_, hok⟩

/-- The kernel after the first allocation. -/
def firstAllocation : Kernel := (init twoPrograms).allotted (0, 0) 15 ((init twoPrograms).pmm.freeFrames.tail)

theorem allocateFrame_first : (init twoPrograms).allocateFrame 0 0 = .ok (frameAddr 15, firstAllocation) := by
  rfl

theorem frame_available_first :
    (frameAddr 14 ∈ firstAllocation.pmm.freeFrames ∨ (firstAllocation.pmm.frameTable 14).allocated = true) ∧
    ∃ k', firstAllocation.wipeMemory 0 = .ok k' :=
  have h := frame_available (.snoc .nil (.allocate allocateFrame_first))
  ⟨h.1 14 (by decide), h.2.2.2.2 0⟩

end Kernel

end Rv32umos
