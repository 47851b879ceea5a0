import Rv32umos.Kernel.FramePool

/-!
# First in, first out

The history of a run of the pool lists the frames in the order in which they were allocated. As long
as no allocation takes a frame whose last entry is still in the queue (`TakesFresh`), the queue
stands in that order, and the victim is the frame whose allocation is the oldest (`fifo`). A frame
that is released when its process ends and given away again keeps its old place (`fifo_stale`).
-/

namespace Rv32umos

open Transition StaleQueue

namespace Kernel

variable {k k' : Kernel} {o : Page} {ppn : Nat} {es : List (Option Nat)}

/-- The free frame that an allocation takes has no entry in the queue. -/
def TakesFresh (k : Kernel) (e : Option Nat) : Prop :=
  e ≠ none → ∀ frame rest, k.pmm.freeFrames = frame :: rest → (frame >>> 12).toNat ∉ k.prp.queue

/-- If a frame is allocated, `findVictim` finds one that is, and every other allocated frame was
allocated after it. -/
def OldestVictim (es : List (Option Nat)) (k : Kernel) : Prop :=
  ∀ ppn, (k.pmm.frameTable ppn).allocated = true →
    ∃ v, (k.prp.findVictim k.pmm.frameTable).1 = some v ∧ (k.pmm.frameTable v).allocated = true ∧
      ∀ u, (k.pmm.frameTable u).allocated = true → u ≠ v → Before es (some v) (some u)

/-- The queue stands in the order of the last allocations. -/
structure InOrder (es : List (Option Nat)) (queue : List Nat) : Prop where
  order : queue.Pairwise fun ppn ppn' => Before es (some ppn) (some ppn')
  entered : ∀ ppn ∈ queue, some ppn ∈ es

theorem InOrder.sublist {queue queue' : List Nat} (h : InOrder es queue) (hsub : queue'.Sublist queue) :
    InOrder es queue' :=
  ⟨h.order.sublist hsub, fun ppn hmem => h.entered ppn (hsub.subset hmem)⟩

theorem InOrder.other {queue : List Nat} (h : InOrder es queue) : InOrder (es ++ [none]) queue where
  order := h.order.imp fun hbefore => hbefore.snoc nofun
  entered ppn hmem := List.mem_append_left _ (h.entered ppn hmem)

/-- A frame that is not in the queue goes to its end. -/
theorem InOrder.allocate {queue : List Nat} (h : InOrder es queue) (hfresh : ppn ∉ queue) :
    InOrder (es ++ [some ppn]) (queue ++ [ppn]) := by
  have hne : ∀ ppn' ∈ queue, some ppn' ≠ some ppn := by
    rintro ppn' hmem ⟨⟩
    exact hfresh hmem
  constructor
  · refine List.pairwise_append.2 ⟨?_, List.pairwise_singleton _ _, fun ppn' hmem u hu => ?_⟩
    · exact h.order.imp_of_mem fun hmem _ hbefore => hbefore.snoc (hne _ hmem)
    · rw [List.mem_singleton.1 hu]
      exact before_last (h.entered ppn' hmem) (hne ppn' hmem)
  · intro ppn' hmem
    rcases List.mem_append.1 hmem with hmem | hmem
    · exact List.mem_append_left _ (h.entered ppn' hmem)
    · rw [List.mem_singleton.1 hmem]
      exact List.mem_append_right _ (List.mem_singleton_self _)

/-- The victim's own entry is gone from the queue that is left. -/
theorem InOrder.popped (h : InOrder es k.prp.queue) {v : Nat} {rest : List Nat}
    (hvictim : k.victim = some v) (hrest : (k.prp.findVictim k.pmm.frameTable).2 = ⟨rest⟩) :
    InOrder es rest ∧ v ∉ rest := by
  unfold victim at hvictim
  rw [FIFOPolicy.findVictim, FIFOPolicy.popVictim_eq] at hvictim hrest
  rcases pop_cases (fun ppn => (k.pmm.frameTable ppn).allocated) k.prp.queue with
    ⟨hpop, -⟩ | ⟨dead, x, rest', hqueue, -, -, hpop⟩
  · rw [hpop] at hvictim
    cases hvictim
  · rw [hpop] at hvictim hrest
    cases hvictim
    cases hrest
    have hlast : InOrder es (v :: rest') := h.sublist (hqueue ▸ List.sublist_append_right dead _)
    refine ⟨hlast.sublist (List.sublist_cons_self v rest'), fun hmem => ?_⟩
    exact (List.rel_of_pairwise_cons hlast.order hmem).ne rfl

theorem InOrder.oldest (h : InOrder es k.prp.queue) (hk : k.Pooled) : k.OldestVictim es := by
  intro ppn hall
  obtain ⟨v, rest, hvictim, -, hv, -⟩ := victim_of_allocated hk.pool hall
  refine ⟨v, hvictim, hv, fun u hu hne => ?_⟩
  have hpop : (pop (fun ppn => (k.pmm.frameTable ppn).allocated) k.prp.queue).1 = some v := by
    rw [← FIFOPolicy.popVictim_eq]
    exact hvictim
  exact (pop_oldest h.order hpop (hk.pool.queued u hu) hu).resolve_left hne

theorem PoolStep.inOrder {e : Option Nat} (hk : k.Pooled) (h : InOrder es k.prp.queue)
    (hstep : PoolStep k e k') (hfresh : k.TakesFresh e) : InOrder (es ++ [e]) k'.prp.queue := by
  cases hstep with
  | @allocate pid vpn paddr _ halloc =>
    rcases allocateFrame_pooled hk (pid, vpn) with hfull | ⟨k₁, ppn, rest, hok, hk₁, -, hlt, hfree⟩
    · cases hfull.symm.trans halloc
    · cases hok.symm.trans halloc
      rw [frameAddr_shift hlt]
      rcases hk₁ with rfl | ⟨hfull, hevict⟩
      · refine h.allocate ?_
        have hnot := hfresh nofun _ _ hfree
        rwa [frameAddr_shift hlt] at hnot
      · rcases evict_pooled hk (allocated_of_full hk.pool hfull) with
          hswap | ⟨k₂, v, rest', hok₂, -, hlt₂, hvictim, hrest, hqueue, hpmm⟩
        · cases hswap.symm.trans hevict
        · cases hok₂.symm.trans hevict
          obtain ⟨hrest', hnot⟩ := h.popped hvictim hrest
          -- the frame that has just been freed is the one that is taken
          have hframe : frameAddr v = frameAddr ppn := by
            rw [hpmm] at hfree
            exact (List.cons.inj hfree).1
          obtain rfl := frameAddr_inj hlt₂ hlt hframe
          show InOrder _ (k₁.prp.queue ++ [v])
          rw [hqueue]
          exact hrest'.allocate hnot
  | evict hevict =>
    obtain ⟨v, hall⟩ := allocated_of_evictPage hevict
    rcases evict_pooled hk hall with hswap | ⟨k₂, v, rest', hok₂, -, -, hvictim, hrest, hqueue, -⟩
    · cases hswap.symm.trans hevict
    · cases hok₂.symm.trans hevict
      rw [hqueue]
      exact (h.popped hvictim hrest).1.other
  | @wipe pid _ hwipe =>
    obtain ⟨pmm, hok, -⟩ := wipeMemory_pooled hk pid
    cases hok.symm.trans hwipe
    exact h.other
  | edit hpmm hprp =>
    rw [hprp]
    exact h.other

/-- Replacement is first in, first out in every run whose allocations take no frame with an old entry
in the queue. -/
theorem fifo {host : Host} (hrun : Run (Guarded PoolStep TakesFresh) (init host) es k) :
    k.OldestVictim es := by
  have h := hrun.induct (fun es k => k.Pooled ∧ InOrder es k.prp.queue)
    ⟨init_pooled host, List.Pairwise.nil, nofun⟩ fun _ _ _ _ ⟨hk, h⟩ ⟨hstep, hfresh⟩ =>
      ⟨hstep.pooled hk, hstep.inOrder hk h hfresh⟩
  exact h.2.oldest h.1

theorem fifo_firstAllocation : firstAllocation.OldestVictim [some (frameAddr 15 >>> 12).toNat] :=
  fifo (.snoc .nil ⟨.allocate allocateFrame_first, fun _ _ _ _ => nofun⟩)

/-! ### A frame that comes back -/

/-- The entry of the page that `firstAllocation` has given a frame. -/
def firstMapped : Kernel := firstAllocation.setPTE 0 0 { ppn := 15, valid := true }

/-- A second frame goes to another process. -/
def secondAllocation : Kernel := firstMapped.allotted (1, 0) 14 firstMapped.pmm.freeFrames.tail

/-- The first process ends. -/
def firstWiped : Kernel := { secondAllocation with pmm := secondAllocation.pmm.freed 15 }

/-- The other process is given the frame of the first. -/
def thirdAllocation : Kernel := firstWiped.allotted (1, 1) 15 firstWiped.pmm.freeFrames.tail

/-- Frame 15 is released and allocated again after frame 14, and is still the victim. -/
theorem fifo_stale : ¬ ∀ (host : Host) (es : List (Option Nat)) (k : Kernel),
    Run PoolStep (init host) es k → k.OldestVictim es := by
  intro hall
  have hmap : PoolStep firstAllocation none firstMapped := by
    refine .edit rfl rfl fun o hvalid => ?_
    rw [firstMapped, pte_setPTE] at hvalid ⊢
    split_ifs at hvalid ⊢
    · exact .inl rfl
    · cases hvalid
  have hsecond : PoolStep firstMapped (some (frameAddr 14 >>> 12).toNat) secondAllocation :=
    .allocate (show firstMapped.allocateFrame 1 0 = .ok (frameAddr 14, secondAllocation) from rfl)
  have hwiped : PoolStep secondAllocation none firstWiped :=
    .wipe (show secondAllocation.wipeMemory 0 = .ok firstWiped from rfl)
  have hthird : PoolStep firstWiped (some (frameAddr 15 >>> 12).toNat) thirdAllocation :=
    .allocate (show firstWiped.allocateFrame 1 1 = .ok (frameAddr 15, thirdAllocation) from rfl)
  have hrun : Run PoolStep (init twoPrograms) _ thirdAllocation :=
    .snoc (.snoc (.snoc (.snoc (.snoc .nil (.allocate allocateFrame_first)) hmap) hsecond) hwiped) hthird
  obtain ⟨v, hvictim, -, holdest⟩ := hall _ _ _ hrun 15 rfl
  obtain rfl : (15 : Nat) = v := Option.some.inj hvictim
  exact not_before_last (holdest 14 rfl (by decide))

end Kernel

end Rv32umos
