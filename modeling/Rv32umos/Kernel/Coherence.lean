import Rv32umos.Kernel.Image
import Rv32umos.Kernel.UserAccess
import Rv32umos.Lib.FlatMemory

/-!
# Demand paging simulates a flat memory

`UserMemory` is what the processes expect: one flat memory each. `Coherent m k` ties it to the
kernel, page by page (`PageHolds`): a resident page is in its frame, a swapped-out page is in its
swap slot, and a page that will be filled from its image has never been stored to. Evictions and
served faults keep it for the same flat memory (`evictPage_coherent`, `served_coherent`), a store
changes both (`store_coherent`), and a load reads what the flat memory says (`load_coherent`).
-/

namespace Rv32umos

open Bytes SwapManager

abbrev UserMemory := FlatMemory Pid Byte

/-- The content of a page comes from its image when it is needed next: it is not in the swap area
and `evictPage` would drop it, or has dropped it. -/
def PTE.Reloads (e : PTE) : Prop :=
  (e.valid = true ∧ (e.canWrite = false ∨ (e.dirty = false ∧ e.swapped = false))) ∨
  (e.valid = false ∧ e.swapped = false)

/-- Where the bytes of a page are. -/
structure PageHolds (m : UserMemory) (o : Page) (e : PTE) (memory : Memory) (disk : InMemoryDisk)
    (swap : SwapManager) : Prop where
  resident : e.valid = true → m.covers o.1 (o.2.toNat * 4096) 4096 fun i =>
    memory.byte (e.ppn.toNat * 4096 + i)
  swapped : e.valid = false → e.swapped = true → e.canWrite = true ∧ e.ppn.toNat < swapSize ∧
    swap.allocationMap e.ppn.toNat = true ∧
    m.covers o.1 (o.2.toNat * 4096) 4096 fun i =>
      disk.data ((swapStartBlock + e.ppn.toNat) * 4096 + i)
  unstored : e.Reloads → ∀ i < 4096, m.stored o.1 (o.2.toNat * 4096 + i) = none

namespace PageHolds

variable {m : UserMemory} {o : Page} {e : PTE} {memory memory' : Memory} {disk disk' : InMemoryDisk}
  {swap swap' : SwapManager}

/-- The page is untouched where its bytes are. -/
theorem congr (h : PageHolds m o e memory disk swap)
    (hmemory : e.valid = true → ∀ i < 4096,
      memory'.byte (e.ppn.toNat * 4096 + i) = memory.byte (e.ppn.toNat * 4096 + i))
    (hswap : e.valid = false → e.swapped = true →
      swap'.allocationMap e.ppn.toNat = swap.allocationMap e.ppn.toNat ∧ ∀ i < 4096,
        disk'.data ((swapStartBlock + e.ppn.toNat) * 4096 + i) =
          disk.data ((swapStartBlock + e.ppn.toNat) * 4096 + i)) :
    PageHolds m o e memory' disk' swap' where
  resident hvalid := FlatMemory.covers_congr (h.resident hvalid) (hmemory hvalid)
  swapped hvalid hswapped := by
    obtain ⟨hwrite, hlt, halloc, hcovers⟩ := h.swapped hvalid hswapped
    obtain ⟨halloc', hdisk⟩ := hswap hvalid hswapped
    exact ⟨hwrite, hlt, halloc'.trans halloc, FlatMemory.covers_congr hcovers hdisk⟩
  unstored := h.unstored

/-- The referenced bit does not matter. -/
theorem referenced (h : PageHolds m o e memory disk swap) (r : Bool) :
    PageHolds m o { e with referenced := r } memory disk swap :=
  ⟨h.resident, h.swapped, h.unstored⟩

/-- A page that has not been stored to holds its image. -/
theorem read_of_reloads (h : PageHolds m o e memory disk swap) (hreloads : e.Reloads) {i : Nat}
    (hi : i < 4096) : m.read o.1 (o.2.toNat * 4096 + i) = m.image o.1 (o.2.toNat * 4096 + i) :=
  FlatMemory.read_of_unstored _ _ _ (h.unstored hreloads i hi)

theorem drop (h : PageHolds m o e memory disk swap) (hvalid : e.valid = true)
    (hclean : e.canWrite = false ∨ (e.dirty = false ∧ e.swapped = false)) :
    PageHolds m o (Kernel.droppedPTE e) memory disk swap where
  resident hresident := by cases hresident
  swapped _ hswapped := by cases hswapped
  unstored _ := h.unstored (.inl ⟨hvalid, hclean⟩)

theorem swapOut {ppn slot : Nat} (h : PageHolds m o e memory disk swap) (hvalid : e.valid = true)
    (hppn : e.ppn.toNat = ppn) (hwrite : e.canWrite = true) (hslot : slot < swapSize) :
    PageHolds m o (Kernel.swappedPTE e slot) memory
      (disk.writeBlock (swapStartBlock + slot) (memory.page ppn))
      ⟨Function.update swap.allocationMap slot true⟩ where
  resident hresident := by cases hresident
  swapped _ _ := by
    have hnat : (Kernel.swappedPTE e slot).ppn.toNat = slot := by
      simp only [Kernel.swappedPTE, swapSize, NUM_SWAP_BLOCKS, BitVec.toNat_ofNat] at hslot ⊢
      omega
    rw [hnat]
    refine ⟨hwrite, hslot, Function.update_self _ _ _, ?_⟩
    refine FlatMemory.covers_congr (h.resident hvalid) fun i hi => ?_
    have hblock : (swapStartBlock + slot) < disk.numBlocks := by
      simp only [swapSize, swapStartBlock, NUM_SWAP_BLOCKS, NUM_DISK_BLOCKS,
        InMemoryDisk.numBlocks] at hslot ⊢
      omega
    rw [InMemoryDisk.writeBlock_same disk hblock (memory.page_length ppn) hi, memory.page_getD ppn hi,
      hppn]
  unstored hreloads := by
    rcases hreloads with ⟨hvalid', -⟩ | ⟨-, hswapped'⟩
    · cases hvalid'
    · cases hswapped'

/-- A served fault fills the frame of the page with what the page must hold. -/
theorem fill {k : Kernel} {v : Addr} {ppn : Nat} {e' : PTE} (hlt : ppn < NUM_FRAMES)
    (h : PageHolds m o e k.memory k.disk k.swap) (hinvalid : e.valid = false)
    (hvpn : o.2 = v >>> 12) (hplaced : WellPlaced (k.processList o.1).segments)
    (himage : (k.processList o.1).image k.host.files = m.image o.1)
    (hfills : Kernel.Fills k o.1 v ppn e e' memory' swap') :
    PageHolds m o e' memory' k.disk swap' := by
  obtain ⟨hvalid', hppn'⟩ := hfills.valid
  have hppn : e'.ppn.toNat = ppn := by rw [hppn', frameAddr_shift hlt]
  -- a page that is not in the swap area has not been stored to
  have hread : e.swapped = false → ∀ i < 4096, m.stored o.1 (o.2.toNat * 4096 + i) = none ∧
      m.read o.1 (o.2.toNat * 4096 + i) =
        (k.processList o.1).image k.host.files ((v >>> 12).toNat * 4096 + i) := by
    intro hswapped i hi
    have hreloads : e.Reloads := .inr ⟨hinvalid, hswapped⟩
    rw [himage, ← hvpn]
    exact ⟨h.unstored hreloads i hi, h.read_of_reloads hreloads hi⟩
  have hnoswap : e'.valid = false → ¬ e'.valid = true := fun hfalse => by rw [hfalse]; decide
  cases hfills with
  | swapIn hswapped =>
    obtain ⟨hwrite, hslot, -, hcovers⟩ := h.swapped hinvalid hswapped
    have hint : e.ppn.toInt = (e.ppn.toNat : Int) := by
      rw [BitVec.toInt_eq_toNat_of_lt]
      simp only [swapSize, NUM_SWAP_BLOCKS] at hslot
      omega
    have hnot : ¬ ((e.ppn.toNat : Int) < 0 ∨ (e.ppn.toNat : Int).toNat ≥ swapSize) := by
      rw [Int.toNat_natCast]
      omega
    refine ⟨fun _ => ?_, fun hfalse => absurd hvalid' (hnoswap hfalse), fun hreloads => ?_⟩
    · refine FlatMemory.covers_congr hcovers fun i hi => ?_
      have hblock : swapStartBlock + e.ppn.toNat < k.disk.numBlocks := by
        simp only [swapSize, swapStartBlock, NUM_SWAP_BLOCKS, NUM_DISK_BLOCKS,
          InMemoryDisk.numBlocks] at hslot ⊢
        omega
      rw [hppn, Memory.withPage_in _ _ _ hi, hint, SwapManager.swapIn, if_neg hnot,
        Int.toNat_natCast]
      exact InMemoryDisk.readBlock_getD k.disk hblock (List.length_replicate ..) hi
    · rcases hreloads with ⟨-, hclean⟩ | ⟨hfalse, -⟩
      · rcases hclean with hread | ⟨-, hunswapped⟩
        · exact absurd (hwrite.symm.trans hread) (by decide)
        · exact absurd (hswapped.symm.trans hunswapped) (by decide)
      · cases hfalse
  | stack hswapped hstack =>
    refine ⟨fun _ => ?_, fun hfalse => absurd hvalid' (hnoswap hfalse), fun _ i hi =>
      (hread hswapped i hi).1⟩
    intro i hi b hb
    rw [(hread hswapped i hi).2, Process.image_stack hplaced hstack.1 hi] at hb
    cases hb
  | segment hswapped seg hseg =>
    refine ⟨fun _ => ?_, fun hfalse => absurd hvalid' (hnoswap hfalse), fun _ i hi =>
      (hread hswapped i hi).1⟩
    intro i hi b hb
    rw [(hread hswapped i hi).2, Kernel.imageByte_eq_image hplaced hseg hi] at hb
    have hcell := Memory.withPage_in k.memory ppn (k.imageByte o.1 seg (v >>> 12)) hi
    rw [hppn]
    exact hcell.trans (Option.some.inj hb)
  | heap hswapped hheap =>
    refine ⟨fun _ => ?_, fun hfalse => absurd hvalid' (hnoswap hfalse), fun _ i hi =>
      (hread hswapped i hi).1⟩
    intro i hi b hb
    rw [(hread hswapped i hi).2] at hb
    have hcell := Memory.withPage_in k.memory ppn (fun _ => 0) hi
    rw [hppn]
    exact hcell.trans (Process.image_heap hplaced hheap.1 hi hb).symm

end PageHolds

namespace Kernel

/-- The page is in the swap area. -/
def SwappedOut (k : Kernel) (o : Page) : Prop :=
  (k.processList o.1).active = true ∧ (k.pte o.1 o.2).valid = false ∧
    (k.pte o.1 o.2).swapped = true

/-- The kernel's memory holds the user memories `m`. -/
structure Coherent (m : UserMemory) (k : Kernel) : Prop where
  frames : k.FramesOk
  pages : ∀ o : Page, (k.processList o.1).active = true →
    PageHolds m o (k.pte o.1 o.2) k.memory k.disk k.swap
  slots : ∀ o o', k.SwappedOut o → k.SwappedOut o' →
    (k.pte o.1 o.2).ppn = (k.pte o'.1 o'.2).ppn → o = o'
  image : ∀ pid, (k.processList pid).active = true →
    (k.processList pid).image k.host.files = m.image pid
  placed : ∀ pid, (k.processList pid).active = true → WellPlaced (k.processList pid).segments

/-- What the image of a process depends on. -/
def SameImages (k k' : Kernel) : Prop :=
  k'.host.files = k.host.files ∧ ∀ pid,
    (k'.processList pid).active = (k.processList pid).active ∧
    (k'.processList pid).segments = (k.processList pid).segments ∧
    (k'.processList pid).name = (k.processList pid).name

theorem SameImages.of_unpaged {k k' : Kernel} (h : k'.unpaged = k.unpaged) : SameImages k k' := by
  have hhost : k'.host = k.host := by
    have hfield := congrArg Kernel.host h
    exact hfield
  refine ⟨congrArg Host.files hhost, fun pid => ⟨active_of_unpaged h pid, ?_, ?_⟩⟩
  · have hsegments := congrArg Process.segments (process_of_unpaged h pid)
    exact hsegments
  · have hname := congrArg Process.name (process_of_unpaged h pid)
    exact hname

namespace Coherent

variable {m : UserMemory} {k k' : Kernel} {o : Page}

theorem images (h : Coherent m k) (hsame : SameImages k k') (pid : Pid)
    (hactive : (k'.processList pid).active = true) :
    (k'.processList pid).image k'.host.files = m.image pid ∧
      WellPlaced (k'.processList pid).segments := by
  obtain ⟨hfiles, hprocess⟩ := hsame
  obtain ⟨hactive', hsegments, hname⟩ := hprocess pid
  have hwas : (k.processList pid).active = true := hactive' ▸ hactive
  have himage : (k'.processList pid).image k'.host.files = (k.processList pid).image k.host.files := by
    funext a
    unfold Process.image
    rw [hfiles, hsegments, hname]
  rw [himage, hsegments]
  exact ⟨h.image pid hwas, h.placed pid hwas⟩

/-- A change that the memories do not depend on. -/
theorem congr (h : Coherent m k) (hpmm : k'.pmm = k.pmm)
    (hpte : ∀ pid vpn, k'.pte pid vpn = k.pte pid vpn) (hmemory : k'.memory = k.memory)
    (hdisk : k'.disk = k.disk) (hswap : k'.swap = k.swap) (hsame : SameImages k k') :
    Coherent m k' := by
  have hactive : ∀ pid, (k'.processList pid).active = (k.processList pid).active :=
    fun pid => (hsame.2 pid).1
  have hout : ∀ o, k'.SwappedOut o → k.SwappedOut o := by
    intro o ho
    rw [SwappedOut, hactive, hpte] at ho
    exact ho
  have hframe : k'.pageFrame = k.pageFrame := by
    funext o
    rw [pageFrame, pageFrame, hactive, hpte]
  refine ⟨?_, fun o ho => ?_, fun o o' ho ho' heq => ?_, fun pid hpid => (h.images hsame pid hpid).1,
    fun pid hpid => (h.images hsame pid hpid).2⟩
  · rw [FramesOk, hpmm, hframe]
    exact h.frames
  · rw [hpte, hmemory, hdisk, hswap]
    exact h.pages o (hactive o.1 ▸ ho)
  · rw [hpte, hpte] at heq
    exact h.slots o o' (hout o ho) (hout o' ho') heq

/-- A change of the entry of one page, and of the user memories, RAM, disk and swap with it. -/
theorem setPage (h : Coherent m k) {m' : UserMemory} {e : PTE} {memory : Memory}
    {disk : InMemoryDisk} {pmm : PhysicalMemoryManager} {prp : FIFOPolicy} {swap : SwapManager}
    (hm : m'.image = m.image)
    (hk' : k' = ({ k with memory, disk, pmm, prp, swap } : Kernel).setPTE o.1 o.2 e)
    (hframes : k'.FramesOk) (hpage : PageHolds m' o e memory disk swap)
    (hothers : ∀ o', o' ≠ o → (k.processList o'.1).active = true →
      PageHolds m' o' (k.pte o'.1 o'.2) memory disk swap)
    (hslot : e.valid = false → e.swapped = true → ∀ o', o' ≠ o → k.SwappedOut o' →
      (k.pte o'.1 o'.2).ppn ≠ e.ppn) : Coherent m' k' := by
  subst hk'
  have hunpaged : (({ k with memory, disk, pmm, prp, swap } : Kernel).setPTE o.1 o.2 e).unpaged =
      k.unpaged := unpaged_setPTE _ _ _ _
  have hsame := SameImages.of_unpaged hunpaged
  have hself : (({ k with memory, disk, pmm, prp, swap } : Kernel).setPTE o.1 o.2 e).pte o.1 o.2 =
      e := pte_setPTE_self _ _ _ _
  have hother : ∀ o', o' ≠ o →
      (({ k with memory, disk, pmm, prp, swap } : Kernel).setPTE o.1 o.2 e).pte o'.1 o'.2 =
        k.pte o'.1 o'.2 := fun o' hne => pte_setPTE_ne _ _ hne
  have hwas : ∀ o', (({ k with memory, disk, pmm, prp, swap } : Kernel).setPTE o.1 o.2
      e).SwappedOut o' → o' ≠ o → k.SwappedOut o' := by
    rintro o' ⟨hactive, hinvalid, hswapped⟩ hne
    rw [hother o' hne] at hinvalid hswapped
    exact ⟨(hsame.2 o'.1).1 ▸ hactive, hinvalid, hswapped⟩
  refine ⟨hframes, fun o' hactive => ?_, fun o₁ o₂ h₁ h₂ heq => ?_,
    fun pid hactive => (h.images hsame pid hactive).1.trans (congrFun hm pid).symm,
    fun pid hactive => (h.images hsame pid hactive).2⟩
  · by_cases hne : o' = o
    · subst hne
      rw [hself]
      exact hpage
    · rw [hother o' hne]
      exact hothers o' hne ((hsame.2 o'.1).1 ▸ hactive)
  · by_cases hne₁ : o₁ = o
    · by_cases hne₂ : o₂ = o
      · rw [hne₁, hne₂]
      · subst hne₁
        obtain ⟨-, hinvalid, hswapped⟩ := h₁
        rw [hself] at hinvalid hswapped heq
        rw [hother o₂ hne₂] at heq
        exact absurd heq.symm (hslot hinvalid hswapped o₂ hne₂ (hwas o₂ h₂ hne₂))
    · by_cases hne₂ : o₂ = o
      · subst hne₂
        obtain ⟨-, hinvalid, hswapped⟩ := h₂
        rw [hself] at hinvalid hswapped heq
        rw [hother o₁ hne₁] at heq
        exact absurd heq (hslot hinvalid hswapped o₁ hne₁ (hwas o₁ h₁ hne₁))
      · rw [hother o₁ hne₁, hother o₂ hne₂] at heq
        exact h.slots o₁ o₂ (hwas o₁ h₁ hne₁) (hwas o₂ h₂ hne₂) heq

/-- The page that holds a frame. -/
theorem page_of_frame (h : Coherent m k) {ppn : Nat} (hheld : k.pageFrame o = some ppn) :
    (k.pte o.1 o.2).valid = true ∧ (k.pte o.1 o.2).ppn.toNat = ppn ∧
      PageHolds m o (k.pte o.1 o.2) k.memory k.disk k.swap := by
  obtain ⟨hactive, hvalid, hppn⟩ := pageFrame_some hheld
  exact ⟨hvalid, hppn, h.pages o hactive⟩

/-! ### Evictions and faults -/

theorem evictPage (h : Coherent m k) (hevict : k.evictPage = .ok k') : Coherent m k' := by
  have hframes := (evictPage_framesOk h.frames hevict).1
  obtain ⟨o, ppn, pmm, prp, hheld, -, -, hcase⟩ := evictPage_cases h.frames hevict
  obtain ⟨hvalid, hppn, hholds⟩ := h.page_of_frame hheld
  rcases hcase with ⟨hclean, rfl⟩ | ⟨slot, hwrite, hfree, rfl⟩
  · apply h.setPage (o := o) rfl rfl hframes (hholds.drop hvalid hclean)
    · intro o' _ hactive
      exact h.pages o' hactive
    · intro _ hswapped
      cases hswapped
  · obtain ⟨hslot, hunallocated⟩ := SwapManager.firstFree_some hfree
    -- the slots of the other pages in the swap area are allocated
    have hother : ∀ o', k.SwappedOut o' → (k.pte o'.1 o'.2).ppn.toNat ≠ slot := by
      rintro o' ⟨hactive, hinvalid, hswapped⟩ heq
      obtain ⟨-, -, hallocated, -⟩ := (h.pages o' hactive).swapped hinvalid hswapped
      rw [heq, hunallocated] at hallocated
      cases hallocated
    apply h.setPage (o := o) rfl rfl hframes (hholds.swapOut hvalid hppn hwrite hslot)
    · intro o' _ hactive
      apply (h.pages o' hactive).congr
      · intro _ i _
        rfl
      · intro hinvalid hswapped
        have hne := hother o' ⟨hactive, hinvalid, hswapped⟩
        refine ⟨Function.update_of_ne hne _ _, fun i hi => ?_⟩
        apply InMemoryDisk.writeBlock_other
        simp only [BLOCK_SIZE]
        omega
    · intro _ _ o' _ hout heq
      apply hother o' hout
      rw [heq]
      simp only [swappedPTE, BitVec.toNat_ofNat, swapSize, NUM_SWAP_BLOCKS] at hslot ⊢
      omega

theorem evicted (h : Coherent m k) {k₁ : Kernel} (hk₁ : k₁ = k ∨ k.evictPage = .ok k₁) :
    Coherent m k₁ := by
  rcases hk₁ with rfl | hevict
  · exact h
  · exact h.evictPage hevict

/-- `operator[]` on a page table inserts a default entry at most. -/
theorem ensure (h : Coherent m k) (o : Page) (hactive : (k.processList o.1).active = true) :
    Coherent m (k.setPTE o.1 o.2 (k.pte o.1 o.2)) := by
  have hframes : (k.setPTE o.1 o.2 (k.pte o.1 o.2)).FramesOk := by
    rw [FramesOk, pageFrame_ensure]
    exact h.frames
  apply h.setPage (o := o) rfl rfl hframes (h.pages o hactive)
  · intro o' _ hactive'
    exact h.pages o' hactive'
  · intro hinvalid hswapped o' hne hout heq
    exact hne (h.slots o' o hout ⟨hactive, hinvalid, hswapped⟩ heq)

theorem served (h : Coherent m k) {v : Addr} (hactive : (k.processList o.1).active = true)
    (hinvalid : (k.pte o.1 o.2).valid = false) (hvpn : o.2 = v >>> 12)
    (hserved : k.Served o v k') : Coherent m k' := by
  have hframes := (hserved.framesOk h.frames hactive).1
  obtain ⟨k₁, ppn, pmm, prp, e, memory, swap, hk₁, -, hlt, hunheld, -, hfills, rfl⟩ := hserved
  have hunpaged := unpaged_of_evicted h.frames hk₁
  have hpte : k₁.pte o.1 o.2 = k.pte o.1 o.2 :=
    pte_of_evicted h.frames (pageFrame_of_invalid hinvalid) hk₁
  have hactive₁ : (k₁.processList o.1).active = true :=
    (active_of_unpaged hunpaged o.1).trans hactive
  have h₁ : Coherent m k₁ := h.evicted hk₁
  have hholds : PageHolds m o (k.pte o.1 o.2) k₁.memory k₁.disk k₁.swap := by
    rw [← hpte]
    exact h₁.pages o hactive₁
  have hfilled := hholds.fill hlt hinvalid hvpn (h₁.placed o.1 hactive₁) (h₁.image o.1 hactive₁) hfills
  obtain ⟨hvalid', -⟩ := hfills.valid
  apply h₁.setPage (o := o) rfl rfl hframes hfilled
  · intro o' hne hactive'
    apply (h₁.pages o' hactive').congr
    · -- the new frame is nobody else's
      intro hvalid i hi
      have hframe := pageFrame_of_valid hactive' hvalid
      have hdiff : (k₁.pte o'.1 o'.2).ppn.toNat ≠ ppn := fun heq => hunheld o' (heq ▸ hframe)
      cases hfills with
      | stack _ _ => rfl
      | swapIn _ => exact Memory.withPage_out _ _ hdiff hi
      | segment _ _ _ => exact Memory.withPage_out _ _ hdiff hi
      | heap _ _ => exact Memory.withPage_out _ _ hdiff hi
    · -- the slot that is given back is not another page's
      intro hinvalid' hswapped'
      refine ⟨?_, fun i _ => rfl⟩
      cases hfills with
      | stack _ _ => rfl
      | segment _ _ _ => rfl
      | heap _ _ => rfl
      | swapIn hswapped =>
        unfold SwapManager.swapIn
        split
        · rfl
        · apply Function.update_of_ne
          intro heq
          apply hne
          have hslot := (h₁.pages o hactive₁).swapped (hpte ▸ hinvalid) (hpte ▸ hswapped)
          apply h₁.slots o' o ⟨hactive', hinvalid', hswapped'⟩ ⟨hactive₁, hpte ▸ hinvalid, hpte ▸ hswapped⟩
          apply BitVec.eq_of_toNat_eq
          rw [heq, hpte, BitVec.toInt_eq_toNat_of_lt, Int.toNat_natCast]
          rw [← hpte]
          have hlt' := hslot.2.1
          simp only [swapSize, NUM_SWAP_BLOCKS] at hlt'
          omega
  · intro hinvalid'
    rw [hvalid'] at hinvalid'
    cases hinvalid'

/-! ### Accesses -/

section
variable {pid : Pid} {a : Access} {v : Addr}

theorem valid_of_allowed (hallowed : k.allowed pid a v = true) :
    (k.pte pid (v >>> 12)).valid = true := by
  rw [allowed, Bool.and_eq_true] at hallowed
  exact hallowed.1

variable (hactive : (k.processList pid).active = true) (hallowed : k.allowed pid a v = true)
include hactive hallowed

/-- The frame of an accessible page, and where its bytes start. -/
theorem paddr_of_allowed (h : Coherent m k) :
    (k.pte pid (v >>> 12)).ppn.toNat < NUM_FRAMES ∧
      ((k.pte pid (v >>> 12)).paddr v).toNat =
        (k.pte pid (v >>> 12)).ppn.toNat * 4096 + v.toNat % 4096 := by
  have hvalid := valid_of_allowed hallowed
  have hframe := pageFrame_of_valid (o := (pid, v >>> 12)) hactive hvalid
  obtain ⟨hlt, -⟩ := h.frames.info_of_holds hframe
  exact ⟨hlt, PTE.paddr_toNat hlt rfl v⟩

omit hactive hallowed in
theorem touched_framesOk (h : Coherent m k) : (k.touched pid a v).FramesOk := by
  have hframe : (k.touched pid a v).pageFrame = k.pageFrame := by
    refine (pageFrame_setPTE k (pid, v >>> 12) _).trans ?_
    exact Function.update_eq_self (pid, v >>> 12) k.pageFrame
  rw [FramesOk, hframe]
  exact h.frames

/-- A load or a fetch leaves the memories alone. -/
theorem touched (h : Coherent m k) (hread : a.isWrite = false) : Coherent m (k.touched pid a v) := by
  have htouch : (k.pte pid (v >>> 12)).touch a = { k.pte pid (v >>> 12) with referenced := true } := by
    rw [PTE.touch, hread, Bool.or_false]
  apply h.setPage (o := (pid, v >>> 12)) rfl rfl (h.touched_framesOk)
  · rw [htouch]
    exact (h.pages (pid, v >>> 12) hactive).referenced true
  · intro o' _ hactive'
    exact h.pages o' hactive'
  · intro hinvalid
    have hvalid := valid_of_allowed hallowed
    rw [htouch] at hinvalid
    exact absurd (hvalid.symm.trans hinvalid) (by decide)

/-- A load or a fetch inside a page reads what the flat memory says. -/
theorem load_agrees (h : Coherent m k) {n : Nat} {val : Word} (hn : 0 < n) (hn' : n ≤ 4)
    (hpage : v.toNat % 4096 + n ≤ 4096)
    (hload : k.memory.load ((k.pte pid (v >>> 12)).paddr v) n = .ok val) {i : Nat} (hi : i < n)
    {b : Byte} (hb : m.read pid (v.toNat + i) = some b) : byteAt val i = b := by
  obtain ⟨-, hpaddr⟩ := h.paddr_of_allowed hactive hallowed
  obtain ⟨-, hval⟩ := Memory.load_ok hn hload
  have hvalid := valid_of_allowed hallowed
  have hcovers := (h.pages (pid, v >>> 12) hactive).resident hvalid
  have haddr : v.toNat + i = (v >>> 12).toNat * 4096 + (v.toNat % 4096 + i) := by
    rw [toNat_shiftRight12]
    omega
  have hbyte := hcovers (v.toNat % 4096 + i) (by omega) b (haddr ▸ hb)
  rw [hval, byteAt_assemble _ hi hn', hpaddr, Nat.add_assoc]
  exact hbyte

end

/-- A store inside a page changes the flat memory in the same way. -/
theorem stored (h : Coherent m k) {pid : Pid} {v : Addr} {n : Nat} {value : Word} {memory : Memory}
    (hactive : (k.processList pid).active = true) (hallowed : k.allowed pid .store v = true)
    (hn : 0 < n) (hpage : v.toNat % 4096 + n ≤ 4096)
    (hstore : k.memory.store ((k.pte pid (v >>> 12)).paddr v) n value = .ok memory) :
    Coherent (m.store pid v.toNat n (byteAt value)) { k.touched pid .store v with memory } := by
  obtain ⟨hlt, hpaddr⟩ := h.paddr_of_allowed hactive hallowed
  obtain ⟨-, rfl⟩ := Memory.store_ok hn hstore
  have hvalid := valid_of_allowed hallowed
  have hwrite : (k.pte pid (v >>> 12)).canWrite = true := by
    have hand := hallowed
    rw [Kernel.allowed, Bool.and_eq_true] at hand
    exact hand.2
  have hvpn : (v >>> 12).toNat = v.toNat / 4096 := toNat_shiftRight12 v
  have hframes : ({ k.touched pid .store v with
      memory := ⟨overlay k.memory.byte ((k.pte pid (v >>> 12)).paddr v).toNat n (byteAt value)⟩ } :
      Kernel).FramesOk := h.touched_framesOk
  apply h.setPage (o := (pid, v >>> 12)) (FlatMemory.store_image m pid v.toNat n (byteAt value)) rfl
    hframes
  · refine ⟨fun _ => ?_, fun hinvalid => ?_, fun hreloads => ?_⟩
    · have hcovers := (h.pages (pid, v >>> 12) hactive).resident hvalid
      have hstart : v.toNat = (v >>> 12).toNat * 4096 + v.toNat % 4096 := by omega
      rw [hstart]
      apply FlatMemory.covers_store hcovers
      · intro i hi
        have hcell : (k.pte pid (v >>> 12)).ppn.toNat * 4096 + (v.toNat % 4096 + i) =
            ((k.pte pid (v >>> 12)).paddr v).toNat + i := by omega
        show overlay _ _ _ _ ((k.pte pid (v >>> 12)).ppn.toNat * 4096 + (v.toNat % 4096 + i)) = _
        rw [hcell]
        exact overlay_in _ _ hi
      · intro i hi hout
        apply overlay_out
        rw [hpaddr]
        show (k.pte pid (v >>> 12)).ppn.toNat * 4096 + i < _ ∨
          _ ≤ (k.pte pid (v >>> 12)).ppn.toNat * 4096 + i
        omega
    · exact absurd (hvalid.symm.trans hinvalid) (by decide)
    · rcases hreloads with ⟨-, hread | ⟨hclean, -⟩⟩ | ⟨hinvalid, -⟩
      · exact absurd (hwrite.symm.trans hread) (by decide)
      · rw [PTE.touch] at hclean
        simp [Access.isWrite] at hclean
      · exact absurd (hvalid.symm.trans hinvalid) (by decide)
  · -- the other pages are in other frames and at other addresses
    intro o' hne hactive'
    have hholds := h.pages o' hactive'
    have hother : o'.1 = pid → o'.2.toNat * 4096 + 4096 ≤ v.toNat ∨
        v.toNat + n ≤ o'.2.toNat * 4096 := by
      intro hpid
      have hdiff : o'.2.toNat ≠ v.toNat / 4096 := by
        intro heq
        apply hne
        exact Prod.ext hpid (BitVec.eq_of_toNat_eq (heq.trans hvpn.symm))
      omega
    refine ⟨fun hvalid' => ?_, fun hinvalid hswapped => ?_, fun hreloads i hi => ?_⟩
    · apply FlatMemory.covers_store_other _ hother
      apply FlatMemory.covers_congr (hholds.resident hvalid')
      intro i hi
      apply overlay_out
      rw [hpaddr]
      have hframe := pageFrame_of_valid (o := (pid, v >>> 12)) hactive hvalid
      have hframe' := pageFrame_of_valid hactive' hvalid'
      have hdiff : (k.pte o'.1 o'.2).ppn.toNat ≠ (k.pte pid (v >>> 12)).ppn.toNat := by
        intro heq
        rw [heq] at hframe'
        exact hne (h.frames.matched.inj hframe' hframe)
      omega
    · obtain ⟨hwrite', hlt', halloc, hcovers⟩ := hholds.swapped hinvalid hswapped
      exact ⟨hwrite', hlt', halloc, FlatMemory.covers_store_other hcovers hother⟩
    · rw [FlatMemory.stored_store_out m pid o'.1 _ v.toNat n (byteAt value) fun hpid => ?_]
      · exact hholds.unstored hreloads i hi
      · have := hother hpid
        omega
  · intro hinvalid
    exact absurd (hvalid.symm.trans hinvalid) (by decide)

end Coherent

end Kernel

end Rv32umos
