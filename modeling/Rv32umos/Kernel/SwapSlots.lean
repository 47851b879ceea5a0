import Rv32umos.Kernel.Tracking
import Rv32umos.Lib.Holdings

/-!
# Swap slots

The slots that the swap manager marks allocated are the ones of the pages that are out in the swap
area, each of one page, and the lost ones (`SlotsOk`). Evictions and swap-ins keep this, also for the
pages of other processes. Nothing gives back the slots of a process that has ended: they stay with
the entries of its page table, and are lost when `recycle` puts an empty table in its place
(`abandoned`). A lost slot is never used again, so at all times the free slots, the pages in the swap
area and the lost slots add up to `NUM_SWAP_BLOCKS` (`swap_slots`).
-/

namespace Rv32umos

open Kernel (Event)
open Transition

/-- The slot that an entry names. -/
def PTE.slot (e : PTE) : Option Nat := if e.swapped && !e.valid then some e.ppn.toNat else none

@[simp] theorem PTE.slot_core (e : PTE) : e.core.slot = e.slot := rfl

theorem PTE.slot_of_valid {e : PTE} (h : e.valid = true) : e.slot = none := by
  unfold slot
  rw [h, Bool.not_true, Bool.and_false]
  rfl

theorem PTE.slot_of_kept {e : PTE} (h : e.swapped = false) : e.slot = none := by
  unfold slot
  rw [h, Bool.false_and]
  rfl

theorem PTE.slot_some {e : PTE} {s : Nat} :
    e.slot = some s ↔ (e.swapped = true ∧ e.valid = false) ∧ e.ppn.toNat = s := by
  unfold slot
  rw [← Bool.not_eq_true' e.valid, ← Bool.and_eq_true]
  split_ifs with hout
  · exact ⟨fun h => ⟨hout, Option.some.inj h⟩, fun h => congrArg some h.2⟩
  · exact ⟨nofun, fun h => absurd h.1 hout⟩

namespace Kernel

variable {k k' k'' : Kernel} {pid : Pid} {o : Page} {lost : Set Nat}

def slotOf (k : Kernel) (o : Page) : Option Nat := (k.pte o.1 o.2).slot

structure SlotsOk (k : Kernel) (lost : Set Nat) : Prop where
  holdings : Holdings k.swap.allocationMap k.slotOf lost
  lt : ∀ s, k.swap.allocationMap s = true → s < SwapManager.swapSize

theorem SlotsOk.slot_lt (h : k.SlotsOk lost) {s : Nat} (ho : k.slotOf o = some s) :
    s < SwapManager.swapSize := h.lt s ((h.holdings.used_iff s).2 (.inl ⟨o, ho⟩))

theorem SlotsOk.congr (h : k.SlotsOk lost) (hswap : k'.swap = k.swap) (hslots : k'.slotOf = k.slotOf) :
    k'.SlotsOk lost := by
  refine ⟨?_, ?_⟩
  · rw [hswap, hslots]
    exact h.holdings
  · rw [hswap]
    exact h.lt

theorem slotOf_setPTE (k : Kernel) (o : Page) (e : PTE) :
    (k.setPTE o.1 o.2 e).slotOf = Function.update k.slotOf o e.slot := by
  funext o'
  unfold slotOf
  by_cases heq : o' = o
  · rw [heq, pte_setPTE_self, Function.update_self]
  · rw [pte_setPTE_ne k e heq, Function.update_of_ne heq]

/-- A new entry that is in no slot, for a page that is in none. -/
theorem slotOf_setPTE_none {e : PTE} (ho : k.slotOf o = none) (he : e.slot = none) :
    (k.setPTE o.1 o.2 e).slotOf = k.slotOf := by
  rw [slotOf_setPTE, he, ← ho, Function.update_eq_self]

theorem slotOf_of_valid (h : (k.pte o.1 o.2).valid = true) : k.slotOf o = none := PTE.slot_of_valid h

theorem SameFrames.slotOf (h : SameFrames k k') : k'.slotOf = k.slotOf := by
  funext o
  rw [Kernel.slotOf, ← PTE.slot_core, h.core, PTE.slot_core]
  rfl

theorem SameFrames.slotsOk (h : SameFrames k k') (hk : k.SlotsOk lost) : k'.SlotsOk lost :=
  hk.congr h.swap h.slotOf

/-! ### Paging -/

theorem SlotsOk.update (h : k.SlotsOk lost) {slot : Nat} {b : Bool}
    (hlt : slot < SwapManager.swapSize) (s : Nat)
    (hs : Function.update k.swap.allocationMap slot b s = true) : s < SwapManager.swapSize := by
  by_cases heq : s = slot
  · rw [heq]
    exact hlt
  · rw [Function.update_of_ne heq] at hs
    exact h.lt s hs

theorem evictPage_slotsOk (hk : k.SlotsOk lost) (hok : k.OwnersOk) (h : k.evictPage = .ok k') :
    k'.SlotsOk lost := by
  obtain ⟨o, ppn, prp, -, -, -, hvalid, -, ⟨-, rfl⟩ | ⟨slot, -, hslot, rfl⟩⟩ := evictPage_effect hok h
  · exact hk.congr rfl (slotOf_setPTE_none (slotOf_of_valid hvalid) rfl)
  · obtain ⟨hlt, hfree⟩ := SwapManager.firstFree_some hslot
    have hwritten : (swappedPTE (k.pte o.1 o.2) slot).slot = some slot := by
      refine PTE.slot_some.2 ⟨⟨rfl, rfl⟩, ?_⟩
      refine (BitVec.toNat_ofNat slot 32).trans (Nat.mod_eq_of_lt ?_)
      simp only [SwapManager.swapSize, NUM_SWAP_BLOCKS] at hlt
      omega
    have hslots : ({ k.setPTE o.1 o.2 (swappedPTE (k.pte o.1 o.2) slot) with
        pmm := k.pmm.freed ppn, prp
        swap := ⟨Function.update k.swap.allocationMap slot true⟩
        disk := k.disk.writeBlock (SwapManager.swapStartBlock + slot) (k.memory.page ppn) } :
        Kernel).slotOf = Function.update k.slotOf o (some slot) := by
      rw [← hwritten]
      exact slotOf_setPTE k o _
    refine ⟨?_, hk.update hlt⟩
    rw [hslots]
    exact hk.holdings.take hfree (slotOf_of_valid hvalid)

theorem Allocates.slotsOk {k₁ : Kernel} {ppn : Nat} {rest : List Addr} (h : k.Allocates o k₁ ppn rest)
    (hk : k.SlotsOk lost) (hok : k.OwnersOk) : k₁.SlotsOk lost := by
  rcases h.evicted with rfl | hevict
  · exact hk
  · exact evictPage_slotsOk hk hok hevict

/-- A page that comes back gives its slot back. -/
theorem Serves.slotsOk {faultAddr : Addr} (h : k.Serves o faultAddr k') (hk : k.SlotsOk lost)
    (hok : k.OwnersOk) (hinvalid : (k.pte o.1 o.2).valid = false) : k'.SlotsOk lost := by
  obtain ⟨k₁, ppn, rest, prp, e, memory, swap, halloc, hfills, rfl⟩ := h
  have hk₁ := halloc.slotsOk hk hok
  have hslot₁ : k₁.slotOf o = (k.pte o.1 o.2).slot := congrArg PTE.slot halloc.pte
  cases hfills with
  | swapIn hswapped =>
    have hout : k₁.slotOf o = some (k.pte o.1 o.2).ppn.toNat :=
      hslot₁.trans (PTE.slot_some.2 ⟨⟨hswapped, hinvalid⟩, rfl⟩)
    have hlt := hk₁.slot_lt hout
    have hint : (k.pte o.1 o.2).ppn.toInt = ((k.pte o.1 o.2).ppn.toNat : Int) := by
      refine BitVec.toInt_eq_toNat_of_lt ?_
      simp only [SwapManager.swapSize, NUM_SWAP_BLOCKS] at hlt
      omega
    have hfreed : (k₁.swap.swapIn k₁.disk (List.replicate KERNEL_PAGE_SIZE 0)
        (k.pte o.1 o.2).ppn.toInt).2 =
          ⟨Function.update k₁.swap.allocationMap (k.pte o.1 o.2).ppn.toNat false⟩ := by
      unfold SwapManager.swapIn
      rw [hint, Int.toNat_natCast, if_neg]
      rintro (hneg | hge)
      · omega
      · omega
    rw [hfreed]
    refine ⟨?_, hk₁.update hlt⟩
    have hslots := slotOf_setPTE k₁ o { k.pte o.1 o.2 with
      ppn := frameAddr ppn >>> 12, valid := true, referenced := true, dirty := false }
    rw [PTE.slot_of_valid rfl] at hslots
    exact hslots ▸ hk₁.holdings.give hout
  | stack hswapped _ | segment hswapped _ _ | heap hswapped _ =>
    refine hk₁.congr rfl (slotOf_setPTE_none (hslot₁.trans ?_) ?_)
    · exact PTE.slot_of_kept hswapped
    · exact PTE.slot_of_kept hswapped

theorem SlotsOk.ensure (hk : k.SlotsOk lost) (o : Page) :
    (k.setPTE o.1 o.2 (k.pte o.1 o.2)).SlotsOk lost := (ensure_frames k o.1 o.2).slotsOk hk

theorem servePageFault_slotsOk {faultAddr : Addr} {handled : Bool} (hk : k.SlotsOk lost)
    (hok : k.OwnersOk) (h : k.servePageFault pid faultAddr = .ok (handled, k')) : k'.SlotsOk lost := by
  rcases servePageFault_effect hok h with ⟨-, rfl⟩ | ⟨-, hinvalid, hserves⟩
  · exact hk.ensure (pid, faultAddr >>> 12)
  · refine hserves.slotsOk (hk.ensure (pid, faultAddr >>> 12)) (hok.ensure _) ?_
    exact (congrArg PTE.valid (pte_ensure k (pid, faultAddr >>> 12) _)).trans hinvalid

/-! ### The slots that are lost -/

/-- The slots of the pages of ended processes that were in the swap area and are there no more,
without having come back: `recycle` has replaced the page table. -/
def abandoned (k k' : Kernel) : Set Nat :=
  {s | ∃ o : Page, k.slotOf o = some s ∧ (k.processList o.1).active = false ∧
    (k'.pte o.1 o.2).swapped = false}

theorem swapped_of_slotOf {s : Nat} (h : k.slotOf o = some s) : (k.pte o.1 o.2).swapped = true :=
  (PTE.slot_some.1 h).1.1

/-- Steps that keep the flag of every page in the swap area lose no slot. -/
theorem abandoned_eq_empty
    (h : ∀ o s, k.slotOf o = some s → (k'.pte o.1 o.2).swapped = (k.pte o.1 o.2).swapped) :
    abandoned k k' = ∅ := by
  refine Set.eq_empty_iff_forall_notMem.2 ?_
  rintro s ⟨o, ho, -, hcleared⟩
  rw [h o s ho, swapped_of_slotOf ho] at hcleared
  cases hcleared

theorem SlotsOk.keep (h : k'.SlotsOk lost)
    (hkept : ∀ o s, k.slotOf o = some s → (k'.pte o.1 o.2).swapped = (k.pte o.1 o.2).swapped) :
    k'.SlotsOk (lost ∪ abandoned k k') := by
  rw [abandoned_eq_empty hkept, Set.union_empty]
  exact h

/-- Serving a fault keeps the flag of every page that is not resident. -/
theorem Serves.swapped {faultAddr : Addr} {o' : Page} (h : k.Serves o faultAddr k') (hok : k.OwnersOk)
    (hinvalid' : (k.pte o'.1 o'.2).valid = false) :
    (k'.pte o'.1 o'.2).swapped = (k.pte o'.1 o'.2).swapped := by
  obtain ⟨k₁, ppn, rest, prp, e, memory, swap, halloc, hfills, rfl⟩ := h
  by_cases heq : o' = o
  · rw [heq, pte_setPTE_self]
    cases hfills <;> rfl
  · rw [pte_setPTE_ne _ e heq]
    have hpte : (k₁.pte o'.1 o'.2).swapped = (k.pte o'.1 o'.2).swapped := by
      rcases halloc.evicted with rfl | hevict
      · rfl
      · obtain ⟨-, -, -, o'', hvalid, -, hother⟩ := evictPage_owners hok hevict
        rw [hother o']
        rintro rfl
        rw [hinvalid'] at hvalid
        cases hvalid
    exact hpte

theorem servePageFault_swapped {faultAddr : Addr} {handled : Bool} (hok : k.OwnersOk)
    (h : k.servePageFault pid faultAddr = .ok (handled, k')) (hinvalid : (k.pte o.1 o.2).valid = false) :
    (k'.pte o.1 o.2).swapped = (k.pte o.1 o.2).swapped := by
  have hensure := pte_ensure k (pid, faultAddr >>> 12) o
  rcases servePageFault_effect hok h with ⟨-, rfl⟩ | ⟨-, -, hserves⟩
  · rw [hensure]
  · rw [hserves.swapped (hok.ensure _) (hensure ▸ hinvalid), hensure]

/-! ### The end and the start of a process -/

theorem slotOf_modifyProcess (k : Kernel) (pid : Pid) (f : Process → Process)
    (htable : ∀ p, (f p).pageTable = p.pageTable) : (k.modifyProcess pid f).slotOf = k.slotOf := by
  funext o
  rw [slotOf, slotOf, modifyProcess_pte k pid f htable]

theorem terminate_slotsOk {exitCode : Word} {ok : Bool} (hk : k.SlotsOk lost)
    (h : k.terminate pid exitCode = .ok (ok, k')) : k'.SlotsOk lost := by
  rcases terminate_cases h with ⟨-, -, rfl⟩ | ⟨-, -, pmm, -, rfl⟩
  · exact hk
  · refine hk.congr rfl ?_
    funext o
    rw [slotOf, slotOf, terminated_pte]

/-- A recycled slot of the process list has no page, and loses the swap slots of its old ones. -/
theorem SlotsOk.recycled (hk : k.SlotsOk lost) (hswap : k'.swap = k.swap)
    (hinactive : (k.processList pid).active = false)
    (hself : ∀ vpn, k'.pte pid vpn = {}) (hother : ∀ o : Page, o.1 ≠ pid → k'.pte o.1 o.2 = k.pte o.1 o.2) :
    k'.SlotsOk (lost ∪ abandoned k k') := by
  have habandoned : abandoned k k' = {s | ∃ o : Page, o.1 = pid ∧ k.slotOf o = some s} := by
    ext s
    constructor
    · rintro ⟨o, ho, -, hcleared⟩
      refine ⟨o, by_contra fun hne => ?_, ho⟩
      rw [hother o hne, swapped_of_slotOf ho] at hcleared
      cases hcleared
    · rintro ⟨o, rfl, ho⟩
      refine ⟨o, ho, hinactive, ?_⟩
      rw [hself]
  refine ⟨?_, ?_⟩
  · rw [hswap, habandoned]
    refine hk.holdings.abandon (fun o ho => ?_) fun o ho => ?_
    · subst ho
      rw [slotOf, hself]
      rfl
    · rw [slotOf, slotOf, hother o ho]
  · rw [hswap]
    exact hk.lt

theorem loadELF_slotsOk {filename : Name} {created : Option Pid} (hk : k.SlotsOk lost)
    (h : Loader.loadELF k filename = .ok (created, k')) : k'.SlotsOk (lost ∪ abandoned k k') := by
  rcases Loader.loadELF_cases h with ⟨-, rfl⟩ | ⟨file, pid, pmm, segments, -, -, hslot, -, hcase⟩
  · exact hk.keep fun _ _ _ => rfl
  · have hself : ∀ vpn, (Loader.freshSlot k pid filename segments pmm).pte pid vpn = {} := by
      intro vpn
      rw [pte, Loader.freshSlot, modifyProcess_self]
      rfl
    have hother : ∀ o : Page, o.1 ≠ pid →
        (Loader.freshSlot k pid filename segments pmm).pte o.1 o.2 = k.pte o.1 o.2 := by
      intro o hne
      rw [pte, Loader.freshSlot, modifyProcess_ne _ _ hne]
      rfl
    have hinactive := Loader.freeSlot_inactive hslot
    rcases hcase with ⟨-, rfl⟩ | ⟨-, rfl⟩
    · have hpte := modifyProcess_pte (Loader.freshSlot k pid filename segments pmm) pid
        (fun p => { p with active := false }) fun _ => rfl
      exact hk.recycled rfl hinactive (fun vpn => (hpte _ _).trans (hself vpn)) fun o hne =>
        (hpte _ _).trans (hother o hne)
    · have hpte : ∀ o : Page, ((Loader.freshSlot k pid filename segments pmm).withThread pid
          ((Loader.freshSlot k pid filename segments pmm).newThread pid (Loader.entry file) 0)).pte
          o.1 o.2 = (Loader.freshSlot k pid filename segments pmm).pte o.1 o.2 := by
        intro o
        exact modifyProcess_pte _ pid (fun p => { p with
          nextStackBase := Process.stackBelow p
          threads := p.threads ++ [(Loader.freshSlot k pid filename segments pmm).numThreads] })
          (fun _ => rfl) o.1 o.2
      exact hk.recycled rfl hinactive (fun vpn => (hpte (pid, vpn)).trans (hself vpn)) fun o hne =>
        (hpte o).trans (hother o hne)

/-! ### Every run -/

theorem FrameStep.slotsOk {e : Event} (hk : k.Tracked) (hslots : k.SlotsOk lost)
    (h : FrameStep k e k') : k'.SlotsOk (lost ∪ abandoned k k') := by
  cases h with
  | same hsame => exact (hsame.slotsOk hslots).keep fun _ _ _ => hsame.swapped _ _
  | serve _ hsame hserve =>
    have hok₁ := (hsame.tracked hk).owners
    refine (servePageFault_slotsOk (hsame.slotsOk hslots) hok₁ hserve).keep fun o s ho => ?_
    have hinvalid := (hsame.valid o.1 o.2).trans (PTE.slot_some.1 ho).1.2
    exact (servePageFault_swapped hok₁ hserve hinvalid).trans (hsame.swapped _ _)
  | kill _ hsame hkill hsame' =>
    refine (hsame'.slotsOk (terminate_slotsOk (hsame.slotsOk hslots) hkill)).keep fun o _ _ => ?_
    rw [hsame'.swapped, ← hsame.swapped]
    rcases terminate_cases hkill with ⟨-, -, rfl⟩ | ⟨-, -, pmm, -, rfl⟩
    · rfl
    · rw [terminated_pte]
  | @load t ctx r filename created k₁ k₂ _ hsame hload hsame' =>
    have habandoned : abandoned k k' = abandoned k₁ k₂ := by
      ext s
      unfold abandoned
      rw [Set.mem_ofPred_eq, Set.mem_ofPred_eq, hsame.slotOf]
      simp only [hsame.active, hsame'.swapped]
    rw [habandoned]
    exact hsame'.slotsOk (loadELF_slotsOk (hsame.slotsOk hslots) hload)

/-- While no slot is allocated, loading a process loses none. -/
theorem loadELF_unused {filename : Name} {created : Option Pid} (hk : k.SlotsOk ∅)
    (hnew : k.swap = .new) (h : Loader.loadELF k filename = .ok (created, k')) :
    k'.SlotsOk ∅ ∧ k'.swap = .new := by
  have hnone : abandoned k k' = ∅ := by
    refine Set.eq_empty_iff_forall_notMem.2 ?_
    rintro s ⟨o, ho, -, -⟩
    have hused := (hk.holdings.used_iff s).2 (.inl ⟨o, ho⟩)
    rw [hnew] at hused
    cases hused
  have hok := loadELF_slotsOk hk h
  rw [hnone, Set.union_empty] at hok
  refine ⟨hok, ?_⟩
  rcases Loader.loadELF_cases h with ⟨-, rfl⟩ | ⟨file, pid, pmm, segments, -, -, -, -, ⟨-, rfl⟩ | ⟨-, rfl⟩⟩
  all_goals exact hnew

theorem loadApplications_unused {filenames : List Name} (hk : k.SlotsOk ∅) (hnew : k.swap = .new)
    (h : k.loadApplications filenames = .ok k') : k'.SlotsOk ∅ := by
  induction filenames generalizing k with
  | nil =>
    cases h
    exact hk
  | cons filename rest ih =>
    obtain ⟨⟨pid, k₁⟩, hload, h⟩ := bind_eq_ok.1 h
    dsimp only at h
    split_ifs at h
    obtain ⟨hk₁, hnew₁⟩ := loadELF_unused hk hnew hload
    exact ih hk₁ hnew₁ h

theorem boot_slotsOk {host : Host} {filenames : List Name} (h : boot host filenames = .ok k) :
    k.SlotsOk ∅ := by
  obtain ⟨k₁, hload, h⟩ := bind_eq_ok.1 h
  split_ifs at h
  cases h
  have hinit : (init host).SlotsOk ∅ := ⟨.empty, nofun⟩
  have henabled : SameFrames k₁ { k₁ with cpu := { k₁.cpu with vmEnabled := true } } :=
    .of_eq rfl rfl rfl rfl
  exact (preempt_frames _).slotsOk (henabled.slotsOk (loadApplications_unused hinit rfl hload))

/-- The steps of a kernel, with the swap slots that have been lost so far. -/
def Losing (x : Kernel × Set Nat) (e : Event) (y : Kernel × Set Nat) : Prop :=
  Step x.1 e y.1 ∧ y.2 = x.2 ∪ abandoned x.1 y.1

/-- In every run each page in the swap area has a slot of its own, and the slots that are neither
free nor those of a page have been lost with the old page table of a reused process slot. -/
theorem swap_slots {host : Host} {filenames : List Name} {k₀ : Kernel} {es : List Event}
    (hboot : boot host filenames = .ok k₀) (hrun : Run Step k₀ es k) :
    ∃ lost, Run Losing (k₀, ∅) es (k, lost) ∧ k.SlotsOk lost ∧
      ((Finset.range SwapManager.swapSize).filter fun s => k.swap.allocationMap s = false).card +
        {o | (k.slotOf o).isSome}.ncard + lost.ncard = NUM_SWAP_BLOCKS := by
  have hboth : Reachable k ∧ ∃ lost, Run Losing (k₀, ∅) es (k, lost) ∧ k.SlotsOk lost := by
    refine hrun.induct (fun es k => Reachable k ∧ ∃ lost, Run Losing (k₀, ∅) es (k, lost) ∧
      k.SlotsOk lost) ⟨⟨host, filenames, k₀, [], hboot, .nil⟩, ∅, .nil, boot_slotsOk hboot⟩ ?_
    rintro es k e k' ⟨hreach, lost, hlosing, hslots⟩ hstep
    refine ⟨hreach.snoc hstep, lost ∪ abandoned k k', hlosing.snoc ⟨hstep, rfl⟩, ?_⟩
    exact (step_frames (reachable_sound hreach) hstep).slotsOk (reachable_tracked hreach) hslots
  obtain ⟨-, lost, hlosing, hslots⟩ := hboth
  refine ⟨lost, hlosing, hslots, ?_⟩
  rw [hslots.holdings.count fun s hs => Finset.mem_range.2 (hslots.lt s hs), Finset.card_range]

theorem swap_slots_first_fault :
    ∃ k₀ k, boot twoPrograms [[0x61], [0x62]] = .ok k₀ ∧ Run Step k₀ [.fault 0 84 true] k ∧
      ∃ lost, Run Losing (k₀, ∅) [.fault 0 84 true] (k, lost) ∧ k.SlotsOk lost ∧
        ((Finset.range SwapManager.swapSize).filter fun s => k.swap.allocationMap s = false).card +
          {o | (k.slotOf o).isSome}.ncard + lost.ncard = NUM_SWAP_BLOCKS := by
  obtain ⟨k₀, k, k', hboot, hstep, -⟩ := segfault_run
  have hrun : Run Step k₀ [.fault 0 84 true] k := .snoc .nil hstep
  exact ⟨k₀, k, hboot, hrun, swap_slots hboot hrun⟩

end Kernel

end Rv32umos
