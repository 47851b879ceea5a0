import Rv32umos.Kernel.Frames
import Rv32umos.Vm.MemoryFacts

/-!
# What paging does to the kernel

Spec lemmas for the functions of `Kernel.Paging`. The page loops are one overlay of RAM
(`Memory.storePage_eq`) and one reading (`Memory.loadPage_eq`). `evictPage_cases` and
`allocateFrame_cases` say everything an eviction and an allocation can do, under the invariant
`FramesOk`, which they keep; `unpaged` is what paging never touches.
-/

namespace Rv32umos

open Bytes

theorem setWidth_signExtend (b : Byte) : ((b.signExtend 32).setWidth 8 : Byte) = b := by
  apply BitVec.eq_of_getLsbD_eq
  intro i hi
  have h32 : i < 32 := by omega
  simp [hi, h32, BitVec.getElem_signExtend]

/-! ### Page loops -/

theorem mapM_eq_ok {α β : Type} {f : α → Except Halt β} {g : α → β} {l : List α}
    (h : ∀ x ∈ l, f x = .ok (g x)) : l.mapM f = .ok (l.map g) := by
  induction l with
  | nil => rfl
  | cons x l ih =>
    rw [List.mapM_cons, h x List.mem_cons_self, ih fun y hy => h y (List.mem_cons_of_mem _ hy)]
    rfl

theorem frameAddr_add {ppn i : Nat} (h : ppn < NUM_FRAMES) (hi : i < KERNEL_PAGE_SIZE) :
    (frameAddr ppn + BitVec.ofNat 32 i).toNat = ppn * 4096 + i := by
  rw [BitVec.toNat_add, BitVec.toNat_ofNat, frameAddr_toNat h]
  simp only [NUM_FRAMES, MEMORY_SIZE, PHYSICAL_RAM_KB, KERNEL_PAGE_SIZE] at h hi
  omega

theorem frameAddr_add_fits {ppn i : Nat} (h : ppn < NUM_FRAMES) (hi : i < KERNEL_PAGE_SIZE) :
    (frameAddr ppn + BitVec.ofNat 32 i).toNat + 1 ≤ MEMORY_SIZE := by
  rw [frameAddr_add h hi]
  simp only [NUM_FRAMES, MEMORY_SIZE, PHYSICAL_RAM_KB, KERNEL_PAGE_SIZE] at h hi ⊢
  omega

namespace Memory

/-- The bytes of a frame. -/
def page (m : Memory) (ppn : Nat) : List Byte :=
  (List.range KERNEL_PAGE_SIZE).map fun i => m.byte (ppn * 4096 + i)

theorem loadPage_eq (m : Memory) {ppn : Nat} (h : ppn < NUM_FRAMES) :
    m.loadPage (frameAddr ppn) = .ok (m.page ppn) := by
  refine mapM_eq_ok fun i hi => ?_
  rw [load_of_fits m Nat.one_pos (frameAddr_add_fits h (List.mem_range.1 hi)),
    frameAddr_add h (List.mem_range.1 hi)]
  show Except.ok _ = _
  rw [← byteAt_zero, byteAt_assemble _ Nat.one_pos (by decide), Nat.add_zero]

theorem page_getD (m : Memory) (ppn : Nat) {i : Nat} (hi : i < KERNEL_PAGE_SIZE) :
    (m.page ppn).getD i 0 = m.byte (ppn * 4096 + i) := by
  rw [page, List.getD_eq_getElem?_getD, List.getElem?_map, List.getElem?_range hi]
  rfl

theorem page_length (m : Memory) (ppn : Nat) : (m.page ppn).length = BLOCK_SIZE := by
  rw [page, List.length_map, List.length_range]

/-- RAM with one frame replaced. -/
def withPage (m : Memory) (ppn : Nat) (value : Nat → Byte) : Memory :=
  ⟨overlay m.byte (ppn * 4096) KERNEL_PAGE_SIZE value⟩

theorem storePage_eq (m : Memory) {ppn : Nat} (h : ppn < NUM_FRAMES) (value : Nat → Word) :
    m.storePage (frameAddr ppn) value = .ok (m.withPage ppn fun i => (value i).setWidth 8) := by
  have hloop : ∀ n ≤ KERNEL_PAGE_SIZE, (List.range n).foldlM
      (fun m i => m.store (frameAddr ppn + BitVec.ofNat 32 i) 1 (value i)) m =
      .ok (⟨overlay m.byte (ppn * 4096) n fun i => (value i).setWidth 8⟩ : Memory) := by
    intro n hn
    induction n with
    | zero => rw [overlay_zero]; rfl
    | succ n ih =>
      rw [List.range_succ, List.foldlM_append, ih (by omega)]
      show (Memory.store _ _ 1 _ >>= fun m => List.foldlM _ m []) = _
      rw [store_of_fits _ Nat.one_pos _ (frameAddr_add_fits h hn), frameAddr_add h hn, overlay_one,
        byteAt_zero]
      exact congrArg (fun b => Except.ok (⟨b⟩ : Memory))
        (update_overlay m.byte (ppn * 4096) n fun i => (value i).setWidth 8)
  exact hloop KERNEL_PAGE_SIZE le_rfl

theorem withPage_in (m : Memory) (ppn : Nat) (value : Nat → Byte) {i : Nat}
    (hi : i < KERNEL_PAGE_SIZE) : (m.withPage ppn value).byte (ppn * 4096 + i) = value i :=
  overlay_in _ _ hi

theorem withPage_out (m : Memory) {ppn ppn' : Nat} (value : Nat → Byte) (hne : ppn' ≠ ppn) {i : Nat}
    (hi : i < KERNEL_PAGE_SIZE) :
    (m.withPage ppn value).byte (ppn' * 4096 + i) = m.byte (ppn' * 4096 + i) := by
  refine overlay_out _ _ ?_
  simp only [KERNEL_PAGE_SIZE] at hi ⊢
  omega

end Memory

/-- A page that an eviction drops: it is read-only or clean. -/
def PTE.Drops (e : PTE) : Prop := e.canWrite = false ∨ (e.dirty = false ∧ e.swapped = false)

/-- A process without its page table. -/
def Process.unpaged (p : Process) : Process := { p with pageTable := .empty }

namespace Kernel

variable {k k' : Kernel} {pid : Pid} {vpn : Addr}

/-! ### Entries -/

theorem pte_setPTE (k : Kernel) (pid pid' : Pid) (vpn vpn' : Addr) (e : PTE) :
    (k.setPTE pid vpn e).pte pid' vpn' =
      if pid' = pid ∧ vpn' = vpn then e else k.pte pid' vpn' := by
  unfold pte setPTE
  by_cases hpid : pid' = pid
  · subst hpid
    rw [modifyProcess_self, PageTable.entry_set]
    by_cases hvpn : vpn' = vpn
    · rw [if_pos hvpn, if_pos ⟨rfl, hvpn⟩]
    · rw [if_neg hvpn, if_neg fun h => hvpn h.2]
  · rw [modifyProcess_ne k _ hpid, if_neg fun h => hpid h.1]

@[simp] theorem pte_setPTE_self (k : Kernel) (pid : Pid) (vpn : Addr) (e : PTE) :
    (k.setPTE pid vpn e).pte pid vpn = e := by
  rw [pte_setPTE, if_pos ⟨rfl, rfl⟩]

theorem pte_setPTE_ne (k : Kernel) {o o' : Page} (e : PTE) (h : o' ≠ o) :
    (k.setPTE o.1 o.2 e).pte o'.1 o'.2 = k.pte o'.1 o'.2 := by
  rw [pte_setPTE, if_neg fun hand => h (Prod.ext hand.1 hand.2)]

/-- The kernel with everything that paging works on blanked out. -/
def unpaged (k : Kernel) : Kernel :=
  { k with
    memory := .zero
    disk := .new
    pmm := .new
    prp := ⟨[]⟩
    swap := .new
    processList := fun pid => (k.processList pid).unpaged }

@[simp] theorem unpaged_setPTE (k : Kernel) (pid : Pid) (vpn : Addr) (e : PTE) :
    (k.setPTE pid vpn e).unpaged = k.unpaged := by
  have hprocess : ∀ pid', ((k.setPTE pid vpn e).processList pid').unpaged =
      (k.processList pid').unpaged := by
    intro pid'
    unfold setPTE
    by_cases hpid : pid' = pid
    · subst hpid
      rw [modifyProcess_self]
      rfl
    · rw [modifyProcess_ne k _ hpid]
  unfold unpaged
  rw [funext hprocess]
  rfl

theorem process_of_unpaged (h : k'.unpaged = k.unpaged) (pid : Pid) :
    (k'.processList pid).unpaged = (k.processList pid).unpaged :=
  congrFun (congrArg Kernel.processList h) pid

theorem active_of_unpaged (h : k'.unpaged = k.unpaged) (pid : Pid) :
    (k'.processList pid).active = (k.processList pid).active := by
  have hactive := congrArg Process.active (process_of_unpaged h pid)
  exact hactive

/-- The frame of a page: what the page tables of the active processes say. -/
def pageFrame (k : Kernel) (o : Page) : Option Nat :=
  if (k.processList o.1).active && (k.pte o.1 o.2).valid then some (k.pte o.1 o.2).ppn.toNat
  else none

theorem pageFrame_some {o : Page} {ppn : Nat} (h : k.pageFrame o = some ppn) :
    (k.processList o.1).active = true ∧ (k.pte o.1 o.2).valid = true ∧
      (k.pte o.1 o.2).ppn.toNat = ppn := by
  unfold pageFrame at h
  split_ifs at h with hand
  rw [Bool.and_eq_true] at hand
  exact ⟨hand.1, hand.2, Option.some.inj h⟩

theorem pageFrame_of_valid {o : Page} (hactive : (k.processList o.1).active = true)
    (hvalid : (k.pte o.1 o.2).valid = true) :
    k.pageFrame o = some (k.pte o.1 o.2).ppn.toNat := by
  rw [pageFrame, hactive, hvalid]
  rfl

theorem pageFrame_of_invalid {o : Page} (h : (k.pte o.1 o.2).valid = false) :
    k.pageFrame o = none := by
  rw [pageFrame, h, Bool.and_false]
  rfl

/-- A new entry changes the frame of its own page only. -/
theorem pageFrame_setPTE (k : Kernel) (o : Page) (e : PTE) :
    (k.setPTE o.1 o.2 e).pageFrame = Function.update k.pageFrame o
      (if (k.processList o.1).active && e.valid then some e.ppn.toNat else none) := by
  have hactive := active_of_unpaged (unpaged_setPTE k o.1 o.2 e)
  funext o'
  unfold pageFrame
  rw [hactive]
  by_cases heq : o' = o
  · subst heq
    rw [Function.update_self, pte_setPTE_self]
  · rw [Function.update_of_ne heq, pte_setPTE_ne k e heq]

/-- The frame invariant of the kernel. -/
def FramesOk (k : Kernel) : Prop := FrameTableOk k.pmm k.pageFrame

/-- Each frame that has an owner holds its page. -/
structure OwnersOk (k : Kernel) : Prop where
  inRam : k.pmm.InRam
  owner : ∀ ppn, (k.pmm.frameTable ppn).allocated = true → ∃ o : Page,
    k.pmm.frameTable ppn = { ownerPid := o.1.val, vpn := o.2, allocated := true } ∧
      (k.pte o.1 o.2).valid = true ∧ (k.pte o.1 o.2).ppn.toNat = ppn

theorem FramesOk.owners (hok : k.FramesOk) : k.OwnersOk where
  inRam :=
    { free := fun frame hmem => by
        obtain ⟨ppn, hlt, hframe, -⟩ := (hok.free frame).1 hmem
        exact ⟨ppn, hlt, hframe⟩
      table := fun ppn hall => (hok.owned ppn hall).1 }
  owner ppn hall := by
    obtain ⟨pid, -, hheld⟩ := hok.frameOwner_of_allocated hall
    obtain ⟨-, hvalid, hppn⟩ := pageFrame_some hheld
    exact ⟨_, (hok.info_of_holds hheld).2, hvalid, hppn⟩

/-! ### Eviction -/

theorem popVictim_allocated {frameTable : Nat → FrameInfo} {queue : List Nat} {victim : Nat}
    (h : (FIFOPolicy.popVictim frameTable queue).1 = some victim) :
    (frameTable victim).allocated = true := by
  induction queue with
  | nil => cases h
  | cons head rest ih =>
    unfold FIFOPolicy.popVictim at h
    split_ifs at h with hall
    · cases h
      exact hall
    · exact ih h

/-- The entry of a page that has been dropped. -/
def droppedPTE (e : PTE) : PTE := { e with valid := false, swapped := false, ppn := 0 }

/-- The entry of a page that has been written to a swap slot. -/
def swappedPTE (e : PTE) (slot : Nat) : PTE :=
  { e with valid := false, swapped := true, ppn := BitVec.ofNat 32 slot, dirty := false }

/-- The frame that an eviction takes. -/
def victim (k : Kernel) : Option Nat := (k.prp.findVictim k.pmm.frameTable).1

/-- Everything an eviction can do: the page of the victim is dropped when it is read-only or clean,
and otherwise written to the first free swap slot. -/
theorem evictPage_effect (hok : k.OwnersOk) (h : k.evictPage = .ok k') :
    ∃ (o : Page) (ppn : Nat) (prp : FIFOPolicy), k.victim = some ppn ∧
      ppn < NUM_FRAMES ∧ k.pmm.frameTable ppn = { ownerPid := o.1.val, vpn := o.2, allocated := true } ∧
      (k.pte o.1 o.2).valid = true ∧ (k.pte o.1 o.2).ppn.toNat = ppn ∧
      ((k.pte o.1 o.2).Drops ∧
        k' = { k.setPTE o.1 o.2 (droppedPTE (k.pte o.1 o.2)) with pmm := k.pmm.freed ppn, prp } ∨
      ∃ slot, ¬ (k.pte o.1 o.2).Drops ∧ k.swap.firstFree = some slot ∧
        k' = { k.setPTE o.1 o.2 (swappedPTE (k.pte o.1 o.2) slot) with
          pmm := k.pmm.freed ppn, prp
          swap := ⟨Function.update k.swap.allocationMap slot true⟩
          disk := k.disk.writeBlock (SwapManager.swapStartBlock + slot) (k.memory.page ppn) }) := by
  unfold evictPage FIFOPolicy.findVictim at h
  dsimp only at h
  cases hfound : (FIFOPolicy.popVictim k.pmm.frameTable k.prp.queue).1 with
  | none => rw [hfound] at h; cases h
  | some victim =>
    have hall := popVictim_allocated hfound
    have hlt := hok.inRam.table victim hall
    obtain ⟨o, hinfo, hvalid, hppn⟩ := hok.owner victim hall
    simp only [hfound, hinfo, Pid.ofInt?_val] at h
    refine ⟨o, victim, ⟨(FIFOPolicy.popVictim k.pmm.frameTable k.prp.queue).2⟩, hfound, hlt, hinfo,
      hvalid, hppn, ?_⟩
    have hfreeFrame : ∀ k₁ : Kernel, k₁.pmm = k.pmm →
        k₁.freeFrame (frameAddr victim) = .ok { k₁ with pmm := k.pmm.freed victim } := by
      intro k₁ hk₁
      exact bind_eq_ok.2 ⟨_, hk₁ ▸ k.pmm.freeFrame_eq hlt, rfl⟩
    have hdrops : (k.pte o.1 o.2).Drops ↔ (!(k.pte o.1 o.2).canWrite ||
        (!(k.pte o.1 o.2).dirty && !(k.pte o.1 o.2).swapped)) = true := by
      simp only [PTE.Drops, Bool.or_eq_true, Bool.and_eq_true, Bool.not_eq_true']
    split_ifs at h with hclean
    · exact .inl ⟨hdrops.2 hclean, Except.ok.inj (h.symm.trans (hfreeFrame _ rfl))⟩
    · refine .inr ?_
      obtain ⟨buffer, hload, h⟩ := bind_eq_ok.1 h
      obtain rfl : k.memory.page victim = buffer :=
        Except.ok.inj ((k.memory.loadPage_eq hlt).symm.trans hload)
      unfold SwapManager.swapOut at h
      cases hslot : k.swap.firstFree with
      | none => simp only [hslot] at h; cases h
      | some slot =>
        simp only [hslot] at h
        exact ⟨slot, mt hdrops.1 hclean, rfl, Except.ok.inj (h.symm.trans (hfreeFrame _ rfl))⟩

/-- The entries after an eviction: those of one resident page, which is resident no more, and the
others as they were. -/
theorem evictPage_owners (hok : k.OwnersOk) (h : k.evictPage = .ok k') :
    k'.OwnersOk ∧ k'.unpaged = k.unpaged ∧ k'.pmm.freeFrames ≠ [] ∧
      ∃ o : Page, (k.pte o.1 o.2).valid = true ∧ (k'.pte o.1 o.2).valid = false ∧
        ∀ o' : Page, o' ≠ o → k'.pte o'.1 o'.2 = k.pte o'.1 o'.2 := by
  obtain ⟨o, ppn, prp, -, hlt, hinfo, hvalid, hppn, hcase⟩ := evictPage_effect hok h
  have hentries : ∃ e : PTE, e.valid = false ∧ ∀ o' : Page, k'.pte o'.1 o'.2 =
      (k.setPTE o.1 o.2 e).pte o'.1 o'.2 := by
    rcases hcase with ⟨-, rfl⟩ | ⟨slot, -, -, rfl⟩
    · exact ⟨_, rfl, fun _ => rfl⟩
    · exact ⟨_, rfl, fun _ => rfl⟩
  have hrest : k'.pmm = k.pmm.freed ppn ∧ k'.unpaged = k.unpaged := by
    rcases hcase with ⟨-, rfl⟩ | ⟨slot, -, -, rfl⟩
    · exact ⟨rfl, unpaged_setPTE k o.1 o.2 _⟩
    · exact ⟨rfl, unpaged_setPTE k o.1 o.2 _⟩
  obtain ⟨e, he, hpte⟩ := hentries
  obtain ⟨hpmm, hunpaged⟩ := hrest
  have hother : ∀ o' : Page, o' ≠ o → k'.pte o'.1 o'.2 = k.pte o'.1 o'.2 :=
    fun o' hne => (hpte o').trans (pte_setPTE_ne k e hne)
  refine ⟨⟨?_, fun ppn' hall => ?_⟩, hunpaged, ?_, o, hvalid, ?_, hother⟩
  · rw [hpmm]
    have hfree := k.pmm.freeFrame_eq hlt
    refine (hok.inRam.freeFrame ?_ hfree).1
    rw [frameAddr_shift hlt]
  · rw [hpmm] at hall ⊢
    unfold PhysicalMemoryManager.freed at hall ⊢
    dsimp only at hall ⊢
    by_cases heq : ppn' = ppn
    · rw [heq, Function.update_self] at hall
      cases hall
    · rw [Function.update_of_ne heq] at hall ⊢
      obtain ⟨o', hinfo', hvalid', hppn'⟩ := hok.owner ppn' hall
      have hne : o' ≠ o := by
        rintro rfl
        exact heq (hppn'.symm.trans hppn)
      rw [← hother o' hne] at hvalid' hppn'
      exact ⟨o', hinfo', hvalid', hppn'⟩
  · rw [hpmm]
    exact List.cons_ne_nil _ _
  · rw [hpte, pte_setPTE_self]
    exact he

/-- The same for frames in order: the page is that of an active process. -/
theorem evictPage_cases (hok : k.FramesOk) (h : k.evictPage = .ok k') :
    ∃ (o : Page) (ppn : Nat) (pmm : PhysicalMemoryManager) (prp : FIFOPolicy),
      k.pageFrame o = some ppn ∧ pmm.freeFrames ≠ [] ∧
      FrameTableOk pmm (Function.update k.pageFrame o none) ∧
      ((k.pte o.1 o.2).Drops ∧
        k' = { k.setPTE o.1 o.2 (droppedPTE (k.pte o.1 o.2)) with pmm, prp } ∨
      ∃ slot, (k.pte o.1 o.2).canWrite = true ∧ k.swap.firstFree = some slot ∧
        k' = { k.setPTE o.1 o.2 (swappedPTE (k.pte o.1 o.2) slot) with
          pmm, prp
          swap := ⟨Function.update k.swap.allocationMap slot true⟩
          disk := k.disk.writeBlock (SwapManager.swapStartBlock + slot) (k.memory.page ppn) }) := by
  obtain ⟨o, ppn, prp, -, hlt, hinfo, -, -, hcase⟩ := evictPage_effect hok.owners h
  have hheld : k.pageFrame o = some ppn := by
    refine (hok.matched ppn o).1 ?_
    rw [PhysicalMemoryManager.frameOwner, hinfo]
    simp only [if_true, Pid.ofInt?_val, Option.map_some]
  obtain ⟨pmm, hfree, hne, hok'⟩ := hok.freeFrame hheld
  obtain rfl := Except.ok.inj ((k.pmm.freeFrame_eq hlt).symm.trans hfree)
  refine ⟨o, ppn, _, prp, hheld, hne, hok', ?_⟩
  rcases hcase with hdrop | ⟨slot, hkeeps, hslot, hk'⟩
  · exact .inl hdrop
  · have hwrite := Bool.eq_true_of_not_eq_false fun hro => hkeeps (.inl hro)
    exact .inr ⟨slot, hwrite, hslot, hk'⟩

/-- What every eviction leaves: the frames are in order, one page has lost its frame, and nothing
but paging has changed. -/
theorem evictPage_framesOk (hok : k.FramesOk) (h : k.evictPage = .ok k') :
    k'.FramesOk ∧ k'.unpaged = k.unpaged ∧ k'.pmm.freeFrames ≠ [] ∧
      ∃ o, k'.pageFrame = Function.update k.pageFrame o none := by
  obtain ⟨o, ppn, pmm, prp, -, hne, hok', hcase⟩ := evictPage_cases hok h
  have hframe : k'.pageFrame = Function.update k.pageFrame o none := by
    rcases hcase with ⟨-, rfl⟩ | ⟨slot, -, -, rfl⟩
    · refine (pageFrame_setPTE k o (droppedPTE (k.pte o.1 o.2))).trans ?_
      rw [droppedPTE, Bool.and_false]
      rfl
    · refine (pageFrame_setPTE k o (swappedPTE (k.pte o.1 o.2) slot)).trans ?_
      rw [swappedPTE, Bool.and_false]
      rfl
  have hpmm : k'.pmm = pmm := by
    rcases hcase with ⟨-, rfl⟩ | ⟨slot, -, -, rfl⟩ <;> rfl
  refine ⟨?_, ?_, hpmm ▸ hne, o, hframe⟩
  · rw [FramesOk, hframe, hpmm]
    exact hok'
  · rcases hcase with ⟨-, rfl⟩ | ⟨slot, -, -, rfl⟩
    · exact unpaged_setPTE k o.1 o.2 _
    · exact unpaged_setPTE k o.1 o.2 _

/-! ### Allocation -/

/-- Page `o` is given frame `ppn`, after an eviction if no frame is free: `k₁` is the kernel before
the frame is taken. -/
structure Allocates (k : Kernel) (o : Page) (k₁ : Kernel) (ppn : Nat) (rest : List Addr) : Prop where
  cause : k₁ = k ∨ (k.pmm.freeFrames = [] ∧ k.evictPage = .ok k₁)
  owners : k₁.OwnersOk
  lt : ppn < NUM_FRAMES
  free : k₁.pmm.freeFrames = frameAddr ppn :: rest
  pte : k₁.pte o.1 o.2 = k.pte o.1 o.2
  unpaged : k₁.unpaged = k.unpaged

theorem Allocates.evicted {o : Page} {k₁ : Kernel} {ppn : Nat} {rest : List Addr}
    (h : k.Allocates o k₁ ppn rest) : k₁ = k ∨ k.evictPage = .ok k₁ :=
  h.cause.imp_right And.right

theorem registerFrame_eq {o : Page} {ppn : Nat} (hlt : ppn < NUM_FRAMES) (rest : List Addr) :
    ({ k with pmm := { k.pmm with freeFrames := rest } } : Kernel).registerFrame o.1 o.2 (frameAddr ppn) =
      .ok { k with pmm := k.pmm.taken rest ppn o, prp := k.prp.onAllocate ppn } := by
  refine bind_eq_ok.2 ⟨_, k.pmm.registerFrameOwner_eq rest hlt o, ?_⟩
  rw [frameAddr_shift hlt]

/-- Everything an allocation can do: it takes a free frame, after an eviction if there is none, and
enters the page as its owner. -/
theorem allocateFrame_effect {o : Page} {paddr : Addr} (hok : k.OwnersOk)
    (hinvalid : (k.pte o.1 o.2).valid = false) (h : k.allocateFrame o.1 o.2 = .ok (paddr, k')) :
    ∃ (k₁ : Kernel) (ppn : Nat) (rest : List Addr) (prp : FIFOPolicy),
      Allocates k o k₁ ppn rest ∧ paddr = frameAddr ppn ∧
      k' = { k₁ with pmm := k₁.pmm.taken rest ppn o, prp } := by
  unfold allocateFrame at h
  rcases hfree : k.pmm.freeFrames with _ | ⟨frame, rest⟩
  · -- RAM is full: evict and try again
    have hnone : k.pmm.allocateFrame = (none, k.pmm) := by
      unfold PhysicalMemoryManager.allocateFrame
      rw [hfree]
    simp only [hnone] at h
    obtain ⟨k₁, hevict, h⟩ := bind_eq_ok.1 h
    obtain ⟨hok₁, hunpaged, hne, o', hvalid', -, hother⟩ := evictPage_owners hok hevict
    have hpte : k₁.pte o.1 o.2 = k.pte o.1 o.2 := by
      refine hother o fun heq => ?_
      rw [heq, hvalid'] at hinvalid
      cases hinvalid
    obtain ⟨frame, rest, hfree₁⟩ := List.exists_cons_of_ne_nil hne
    obtain ⟨ppn, hlt, rfl⟩ := hok₁.inRam.free frame (hfree₁ ▸ List.mem_cons_self)
    simp only [PhysicalMemoryManager.allocateFrame_eq hfree₁] at h
    obtain ⟨k₂, hk₂, h⟩ := bind_eq_ok.1 h
    cases (registerFrame_eq hlt rest).symm.trans hk₂
    cases h
    exact ⟨k₁, ppn, rest, _, ⟨.inr ⟨hfree, hevict⟩, hok₁, hlt, hfree₁, hpte, hunpaged⟩, rfl, rfl⟩
  · obtain ⟨ppn, hlt, rfl⟩ := hok.inRam.free frame (hfree ▸ List.mem_cons_self)
    simp only [PhysicalMemoryManager.allocateFrame_eq hfree] at h
    obtain ⟨k₂, hk₂, h⟩ := bind_eq_ok.1 h
    cases (registerFrame_eq hlt rest).symm.trans hk₂
    cases h
    exact ⟨k, ppn, rest, _, ⟨.inl rfl, hok, hlt, hfree, rfl, rfl⟩, rfl, rfl⟩

theorem unpaged_of_evicted {k₁ : Kernel} (hok : k.FramesOk)
    (h : k₁ = k ∨ k.evictPage = .ok k₁) : k₁.unpaged = k.unpaged := by
  rcases h with rfl | hevict
  · rfl
  · exact (evictPage_framesOk hok hevict).2.1

/-- Once the allocated frame is entered into the page table, the frames are in order again. -/
theorem framesOk_setPTE {o : Page} {ppn : Nat} (hactive : (k.processList o.1).active = true)
    (hlt : ppn < NUM_FRAMES)
    (hok : FrameTableOk k.pmm (Function.update k.pageFrame o (some ppn))) (e : PTE)
    (hvalid : e.valid = true) (hppn : e.ppn = frameAddr ppn >>> 12) :
    (k.setPTE o.1 o.2 e).FramesOk := by
  rw [FramesOk, pageFrame_setPTE, hactive, hvalid, hppn, frameAddr_shift hlt]
  exact hok

/-- An eviction leaves the entries of other pages alone. -/
theorem pte_of_evicted {k₁ : Kernel} {o : Page} (hok : k.FramesOk) (hnone : k.pageFrame o = none)
    (h : k₁ = k ∨ k.evictPage = .ok k₁) : k₁.pte o.1 o.2 = k.pte o.1 o.2 := by
  rcases h with rfl | hevict
  · rfl
  · obtain ⟨o', ppn, pmm, prp, hheld, -, -, hcase⟩ := evictPage_cases hok hevict
    have hne : o ≠ o' := fun heq => by
      rw [heq, hheld] at hnone
      cases hnone
    rcases hcase with ⟨-, rfl⟩ | ⟨slot, -, -, rfl⟩
    · exact pte_setPTE_ne k _ hne
    · exact pte_setPTE_ne k _ hne

/-! ### Serving a page fault -/

/-- How the four handlers fill the frame `ppn` for the page `vpn` of a process: the new entry, RAM
and the swap manager, from the entry `e` before and the kernel `k₁` after the allocation. -/
inductive Fills (k₁ : Kernel) (pid : Pid) (faultAddr : Addr) (ppn : Nat) (e : PTE) :
    PTE → Memory → SwapManager → Prop
  | swapIn (hswapped : e.swapped = true) :
    Fills k₁ pid faultAddr ppn e
      { e with ppn := frameAddr ppn >>> 12, valid := true, referenced := true, dirty := false }
      (k₁.memory.withPage ppn fun i =>
        (k₁.swap.swapIn k₁.disk (List.replicate KERNEL_PAGE_SIZE 0) e.ppn.toInt).1.getD i 0)
      (k₁.swap.swapIn k₁.disk (List.replicate KERNEL_PAGE_SIZE 0) e.ppn.toInt).2
  | stack (hswapped : e.swapped = false)
    (hstack : STACK_REGION_BOTTOM ≤ faultAddr.toNat ∧ faultAddr.toNat < STACK_TOP) :
    Fills k₁ pid faultAddr ppn e
      { e with
        ppn := frameAddr ppn >>> 12, valid := true, canRead := true, canWrite := true
        referenced := true }
      k₁.memory k₁.swap
  | segment (hswapped : e.swapped = false) (seg : Segment)
    (hseg : (k₁.processList pid).segments.find? (·.contains faultAddr) = some seg) :
    Fills k₁ pid faultAddr ppn e
      ({ e with ppn := frameAddr ppn >>> 12, valid := true, referenced := true }.setPTEFlagsFromElf
        seg.flags)
      (k₁.memory.withPage ppn (k₁.imageByte pid seg (faultAddr >>> 12))) k₁.swap
  | heap (hswapped : e.swapped = false)
    (hheap : HEAP_START ≤ faultAddr.toNat ∧ faultAddr < (k₁.processList pid).programBreak) :
    Fills k₁ pid faultAddr ppn e
      { e with
        ppn := frameAddr ppn >>> 12, valid := true, canRead := true, canWrite := true
        referenced := true }
      (k₁.memory.withPage ppn fun _ => 0) k₁.swap

theorem Fills.valid {k₁ : Kernel} {faultAddr : Addr} {ppn : Nat} {e e' : PTE} {memory : Memory}
    {swap : SwapManager} (h : Fills k₁ pid faultAddr ppn e e' memory swap) :
    e'.valid = true ∧ e'.ppn = frameAddr ppn >>> 12 := by
  cases h <;> exact ⟨rfl, rfl⟩

/-- A handled fault of page `o`: a frame is allocated, filled, and entered into the page table. -/
def Serves (k : Kernel) (o : Page) (faultAddr : Addr) (k' : Kernel) : Prop :=
  ∃ (k₁ : Kernel) (ppn : Nat) (rest : List Addr) (prp : FIFOPolicy) (e : PTE) (memory : Memory)
    (swap : SwapManager),
    Allocates k o k₁ ppn rest ∧ Fills k₁ o.1 faultAddr ppn (k.pte o.1 o.2) e memory swap ∧
    k' = ({ k₁ with pmm := k₁.pmm.taken rest ppn o, prp, memory, swap } : Kernel).setPTE o.1 o.2 e

section
variable {o : Page} {faultAddr : Addr} (hok : k.OwnersOk)
  (hinvalid : (k.pte o.1 o.2).valid = false)
include hok hinvalid

theorem swapInPage_serves (hswapped : (k.pte o.1 o.2).swapped = true)
    (h : k.swapInPage o.1 o.2 = .ok k') : k.Serves o faultAddr k' := by
  obtain ⟨⟨paddr, k₂⟩, halloc, h⟩ := bind_eq_ok.1 h
  obtain ⟨k₁, ppn, rest, prp, hgiven, rfl, rfl⟩ := allocateFrame_effect hok hinvalid halloc
  obtain ⟨memory, hstore, h⟩ := bind_eq_ok.1 h
  obtain rfl := Except.ok.inj ((Memory.storePage_eq _ hgiven.lt _).symm.trans hstore)
  obtain rfl := Except.ok.inj h
  refine ⟨k₁, ppn, rest, prp, _, _, _, hgiven, .swapIn hswapped, ?_⟩
  have hpte : ({ k₁ with pmm := k₁.pmm.taken rest ppn o, prp } : Kernel).pte o.1 o.2 =
      k.pte o.1 o.2 := hgiven.pte
  simp only [hpte, BitVec.setWidth_setWidth_of_le _ (show 8 ≤ 32 by decide), BitVec.setWidth_eq]

theorem handleStackGrowth_cases {handled : Bool} (hswapped : (k.pte o.1 o.2).swapped = false)
    (h : k.handleStackGrowth o.1 faultAddr o.2 = .ok (handled, k')) :
    (handled = false ∧ k' = k) ∨ (handled = true ∧ k.Serves o faultAddr k') := by
  unfold handleStackGrowth at h
  split_ifs at h with hregion hstack
  · cases h
    exact .inl ⟨rfl, rfl⟩
  · obtain ⟨⟨paddr, k₂⟩, halloc, h⟩ := bind_eq_ok.1 h
    obtain ⟨k₁, ppn, rest, prp, hgiven, rfl, rfl⟩ := allocateFrame_effect hok hinvalid halloc
    cases h
    refine .inr ⟨rfl, k₁, ppn, rest, prp, _, _, _, hgiven, .stack hswapped (by omega), ?_⟩
    rw [← hgiven.pte]
    rfl
  · cases h
    exact .inl ⟨rfl, rfl⟩

theorem handleLazyLoading_cases {handled : Bool} (hswapped : (k.pte o.1 o.2).swapped = false)
    (hvpn : o.2 = faultAddr >>> 12)
    (h : k.handleLazyLoading o.1 faultAddr o.2 = .ok (handled, k')) :
    (handled = false ∧ k' = k) ∨ (handled = true ∧ k.Serves o faultAddr k') := by
  unfold handleLazyLoading at h
  cases hseg : (k.processList o.1).segments.find? (·.contains faultAddr) with
  | none =>
    simp only [hseg] at h
    cases h
    exact .inl ⟨rfl, rfl⟩
  | some seg =>
    simp only [hseg] at h
    obtain ⟨⟨paddr, k₂⟩, halloc, h⟩ := bind_eq_ok.1 h
    obtain ⟨k₁, ppn, rest, prp, hgiven, rfl, rfl⟩ := allocateFrame_effect hok hinvalid halloc
    obtain ⟨memory, hstore, h⟩ := bind_eq_ok.1 h
    obtain rfl := Except.ok.inj ((Memory.storePage_eq _ hgiven.lt _).symm.trans hstore)
    cases h
    have hseg₁ : (k₁.processList o.1).segments.find? (·.contains faultAddr) = some seg := by
      have hsegs := congrArg Process.segments (process_of_unpaged hgiven.unpaged o.1)
      rw [← hseg]
      exact congrArg (List.find? _) hsegs
    refine .inr ⟨rfl, k₁, ppn, rest, prp, _, _, _, hgiven, .segment hswapped seg hseg₁, ?_⟩
    rw [← hgiven.pte, ← hvpn]
    have himage : (fun i => (((k₁.imageByte o.1 seg o.2 i).signExtend 32).setWidth 8 : Byte)) =
        k₁.imageByte o.1 seg o.2 := by
      funext i
      exact setWidth_signExtend _
    rw [← himage]
    rfl

theorem handleHeapGrowth_cases {handled : Bool} (hswapped : (k.pte o.1 o.2).swapped = false)
    (h : k.handleHeapGrowth o.1 faultAddr o.2 = .ok (handled, k')) :
    (handled = false ∧ k' = k) ∨ (handled = true ∧ k.Serves o faultAddr k') := by
  unfold handleHeapGrowth at h
  split_ifs at h with hheap
  · obtain ⟨⟨paddr, k₂⟩, halloc, h⟩ := bind_eq_ok.1 h
    obtain ⟨k₁, ppn, rest, prp, hgiven, rfl, rfl⟩ := allocateFrame_effect hok hinvalid halloc
    obtain ⟨memory, hstore, h⟩ := bind_eq_ok.1 h
    obtain rfl := Except.ok.inj ((Memory.storePage_eq _ hgiven.lt _).symm.trans hstore)
    cases h
    have hbreak : (k₁.processList o.1).programBreak = (k.processList o.1).programBreak := by
      have hbreak := congrArg Process.programBreak (process_of_unpaged hgiven.unpaged o.1)
      exact hbreak
    refine .inr ⟨rfl, k₁, ppn, rest, prp, _, _, _, hgiven, .heap hswapped (hbreak ▸ hheap), ?_⟩
    rw [← hgiven.pte]
    rfl
  · cases h
    exact .inl ⟨rfl, rfl⟩

end

/-- `operator[]` on the faulting page: it inserts a default entry or changes nothing. -/
theorem pte_ensure (k : Kernel) (o o' : Page) :
    (k.setPTE o.1 o.2 (k.pte o.1 o.2)).pte o'.1 o'.2 = k.pte o'.1 o'.2 := by
  by_cases heq : o' = o
  · rw [heq, pte_setPTE_self]
  · exact pte_setPTE_ne k _ heq

theorem pageFrame_ensure (k : Kernel) (o : Page) :
    (k.setPTE o.1 o.2 (k.pte o.1 o.2)).pageFrame = k.pageFrame := by
  rw [pageFrame_setPTE]
  exact Function.update_eq_self o k.pageFrame

theorem OwnersOk.ensure (hok : k.OwnersOk) (o : Page) :
    (k.setPTE o.1 o.2 (k.pte o.1 o.2)).OwnersOk where
  inRam := hok.inRam
  owner ppn hall := by
    obtain ⟨o', hinfo, hvalid, hppn⟩ := hok.owner ppn hall
    rw [← pte_ensure k o o'] at hvalid hppn
    exact ⟨o', hinfo, hvalid, hppn⟩

/-- Everything serving a page fault can do. -/
theorem servePageFault_effect {pid : Pid} {faultAddr : Addr} {handled : Bool} (hok : k.OwnersOk)
    (h : k.servePageFault pid faultAddr = .ok (handled, k')) :
    let o : Page := (pid, faultAddr >>> 12)
    let k₀ := k.setPTE o.1 o.2 (k.pte o.1 o.2)
    (handled = false ∧ k' = k₀) ∨
    (handled = true ∧ (k.pte o.1 o.2).valid = false ∧ k₀.Serves o faultAddr k') := by
  intro o k₀
  have hok₀ : k₀.OwnersOk := hok.ensure o
  have hpte₀ : k₀.pte o.1 o.2 = k.pte o.1 o.2 := pte_ensure k o o
  unfold servePageFault at h
  by_cases hvalid : (k₀.pte o.1 o.2).valid = true
  · rw [if_pos hvalid] at h
    cases h
    exact .inl ⟨rfl, rfl⟩
  · rw [if_neg hvalid] at h
    have hinvalid : (k₀.pte o.1 o.2).valid = false := Bool.eq_false_of_not_eq_true hvalid
    have hinvalid' : (k.pte o.1 o.2).valid = false := hpte₀ ▸ hinvalid
    obtain ⟨⟨handled₁, k₁⟩, hswap, h⟩ := bind_eq_ok.1 h
    unfold handleSwapIn at hswap
    cases hswapped : (k₀.pte o.1 o.2).swapped with
    | true =>
      rw [if_pos (by rw [hswapped, hinvalid]; rfl)] at hswap
      obtain ⟨k₂, hserve, hswap⟩ := bind_eq_ok.1 hswap
      cases hswap
      cases h
      exact .inr ⟨rfl, hinvalid', swapInPage_serves hok₀ hinvalid hswapped hserve⟩
    | false =>
      rw [if_neg (by rw [hswapped, Bool.false_and]; decide)] at hswap
      cases hswap
      obtain ⟨⟨handled₂, k₂⟩, hstack, h⟩ := bind_eq_ok.1 h
      rcases handleStackGrowth_cases hok₀ hinvalid hswapped hstack with ⟨rfl, rfl⟩ | ⟨rfl, hserved⟩
      · obtain ⟨⟨handled₃, k₃⟩, hlazy, h⟩ := bind_eq_ok.1 h
        rcases handleLazyLoading_cases hok₀ hinvalid hswapped rfl hlazy with
          ⟨rfl, rfl⟩ | ⟨rfl, hserved⟩
        · rcases handleHeapGrowth_cases hok₀ hinvalid hswapped h with ⟨rfl, rfl⟩ | ⟨rfl, hserved⟩
          · exact .inl ⟨rfl, rfl⟩
          · exact .inr ⟨rfl, hinvalid', hserved⟩
        · cases h
          exact .inr ⟨rfl, hinvalid', hserved⟩
      · cases h
        exact .inr ⟨rfl, hinvalid', hserved⟩

/-- The same for frames in order, which the allocation keeps. -/
def Served (k : Kernel) (o : Page) (faultAddr : Addr) (k' : Kernel) : Prop :=
  ∃ (k₁ : Kernel) (ppn : Nat) (pmm : PhysicalMemoryManager) (prp : FIFOPolicy) (e : PTE)
    (memory : Memory) (swap : SwapManager),
    (k₁ = k ∨ k.evictPage = .ok k₁) ∧ k₁.FramesOk ∧ ppn < NUM_FRAMES ∧
    (∀ o', k₁.pageFrame o' ≠ some ppn) ∧
    FrameTableOk pmm (Function.update k₁.pageFrame o (some ppn)) ∧
    Fills k₁ o.1 faultAddr ppn (k.pte o.1 o.2) e memory swap ∧
    k' = ({ k₁ with pmm, prp, memory, swap } : Kernel).setPTE o.1 o.2 e

theorem Serves.served {o : Page} {faultAddr : Addr} (h : k.Serves o faultAddr k') (hok : k.FramesOk)
    (hinvalid : (k.pte o.1 o.2).valid = false) : k.Served o faultAddr k' := by
  obtain ⟨k₁, ppn, rest, prp, e, memory, swap, halloc, hfills, rfl⟩ := h
  have hok₁ : k₁.FramesOk := by
    rcases halloc.evicted with rfl | hevict
    · exact hok
    · exact (evictPage_framesOk hok hevict).1
  have hnone₁ : k₁.pageFrame o = none := pageFrame_of_invalid (halloc.pte ▸ hinvalid)
  obtain ⟨ppn', hlt', heq, hunheld, pmm, hreg, hok'⟩ :=
    hok₁.take (PhysicalMemoryManager.allocateFrame_eq halloc.free) hnone₁
  obtain rfl := frameAddr_inj halloc.lt hlt' heq
  obtain rfl := Except.ok.inj ((k₁.pmm.registerFrameOwner_eq rest halloc.lt o).symm.trans hreg)
  exact ⟨k₁, ppn, _, prp, e, memory, swap, halloc.evicted, hok₁, halloc.lt, hunheld, hok', hfills, rfl⟩

theorem servePageFault_cases {pid : Pid} {faultAddr : Addr} {handled : Bool} (hok : k.FramesOk)
    (h : k.servePageFault pid faultAddr = .ok (handled, k')) :
    let o : Page := (pid, faultAddr >>> 12)
    let k₀ := k.setPTE o.1 o.2 (k.pte o.1 o.2)
    (handled = false ∧ k' = k₀) ∨
    (handled = true ∧ (k.pte o.1 o.2).valid = false ∧ k₀.Served o faultAddr k') := by
  intro o k₀
  have hok₀ : k₀.FramesOk := by
    rw [FramesOk, pageFrame_ensure]
    exact hok
  rcases servePageFault_effect hok.owners h with hrefused | ⟨hhandled, hinvalid, hserves⟩
  · exact .inl hrefused
  · have hinvalid₀ : (k₀.pte o.1 o.2).valid = false := (pte_ensure k o o).symm ▸ hinvalid
    exact .inr ⟨hhandled, hinvalid, hserves.served hok₀ hinvalid₀⟩

/-- A served fault of an active process keeps the frames in order and changes paging only. -/
theorem Served.framesOk {o : Page} {faultAddr : Addr} (h : k.Served o faultAddr k')
    (hok : k.FramesOk) (hactive : (k.processList o.1).active = true) :
    k'.FramesOk ∧ k'.unpaged = k.unpaged := by
  obtain ⟨k₁, ppn, pmm, prp, e, memory, swap, hk₁, hok₁, hlt, -, hok', hfills, rfl⟩ := h
  have hunpaged := unpaged_of_evicted hok hk₁
  refine ⟨framesOk_setPTE ?_ hlt hok' e hfills.valid.1 hfills.valid.2, ?_⟩
  · exact (active_of_unpaged hunpaged o.1).trans hactive
  · exact (unpaged_setPTE _ _ _ _).trans hunpaged

end Kernel

end Rv32umos
