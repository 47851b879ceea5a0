import Rv32umos.Kernel.Tracking

/-!
# What a new page contains

A page that is mapped for the first time gets a frame that may have held another page. Heap pages
are zeroed and segment pages are filled from the file, over the whole page; a stack page is left as
it is, and shows its process what the frame held before (`new_page_contents`). Paging looks at the
contents of RAM and of the disk nowhere else: two kernels that differ in nothing else do the same
(`servePageFault_contents`).
-/

namespace Rv32umos

open Kernel (Event)
open Transition

/-- RAM once frame `ppn` has been filled, or left as it is. -/
def Memory.filled (m : Memory) (ppn : Nat) : Option (Nat → Byte) → Memory
  | none => m
  | some value => m.withPage ppn value

namespace Kernel

variable {k k' k₁ k₂ : Kernel} {pid : Pid} {vpn faultAddr paddr : Addr}

/-! ### Other contents -/

/-- The kernel with other contents of RAM and of the disk. -/
def withContents (k : Kernel) (memory : Memory) (disk : InMemoryDisk) : Kernel :=
  { k with memory, disk }

/-- The frame that the next allocation takes: the first free one, or that of the next victim. -/
def nextFrame (k : Kernel) : Option Nat :=
  match k.pmm.freeFrames with
  | frame :: _ => some (frame >>> 12).toNat
  | [] => (k.prp.findVictim k.pmm.frameTable).1

theorem freeFrame_contents {frame : Addr} (h : k.freeFrame frame = .ok k') :
    k'.memory = k.memory ∧ k.pmm.freeFrame frame = .ok k'.pmm ∧
      ∀ memory disk, (k.withContents memory disk).freeFrame frame = .ok (k'.withContents memory disk) := by
  obtain ⟨pmm, hfree, h⟩ := bind_eq_ok.1 h
  cases h
  exact ⟨rfl, hfree, fun memory disk => bind_eq_ok.2 ⟨pmm, hfree, rfl⟩⟩

theorem dropPage_contents {owner : Pid} (h : k.dropPage owner vpn paddr = .ok k') :
    k'.memory = k.memory ∧ k.pmm.freeFrame paddr = .ok k'.pmm ∧
      ∀ memory disk, (k.withContents memory disk).dropPage owner vpn paddr =
        .ok (k'.withContents memory disk) :=
  freeFrame_contents h

theorem swapOutPage_contents {owner : Pid} {victim : Nat} (hlt : victim < NUM_FRAMES)
    (h : k.swapOutPage owner vpn (frameAddr victim) = .ok k') :
    k'.memory = k.memory ∧ k.pmm.freeFrame (frameAddr victim) = .ok k'.pmm ∧
      ∀ memory disk, ∃ disk', (k.withContents memory disk).swapOutPage owner vpn (frameAddr victim) =
        .ok (k'.withContents memory disk') := by
  obtain ⟨buffer, -, h⟩ := bind_eq_ok.1 h
  unfold SwapManager.swapOut at h
  cases hslot : k.swap.firstFree with
  | none =>
    simp only [hslot] at h
    cases h
  | some slot =>
    simp only [hslot] at h
    obtain ⟨hmemory, hfree, hcontents⟩ := freeFrame_contents h
    refine ⟨hmemory, hfree, fun memory disk =>
      ⟨disk.writeBlock (SwapManager.swapStartBlock + slot) (memory.page victim), ?_⟩⟩
    refine bind_eq_ok.2 ⟨memory.page victim, memory.loadPage_eq hlt, ?_⟩
    have hslot' : (k.withContents memory disk).swap.firstFree = some slot := hslot
    unfold SwapManager.swapOut
    simp only [hslot']
    exact hcontents memory (disk.writeBlock (SwapManager.swapStartBlock + slot) (memory.page victim))

/-- An eviction, once its victim is found. -/
theorem evictPage_eq {victim : Nat} {owner : Pid}
    (hfound : (k.prp.findVictim k.pmm.frameTable).1 = some victim)
    (hpid : Pid.ofInt? (k.pmm.frameTable victim).ownerPid = some owner) :
    k.evictPage =
      let pte := k.pte owner (k.pmm.frameTable victim).vpn
      let k := { k with prp := (k.prp.findVictim k.pmm.frameTable).2 }
      if !pte.canWrite || (!pte.dirty && !pte.swapped) then
        k.dropPage owner (k.pmm.frameTable victim).vpn (frameAddr victim)
      else k.swapOutPage owner (k.pmm.frameTable victim).vpn (frameAddr victim) := by
  unfold evictPage
  simp only [hfound, hpid]
  rfl

/-- An eviction frees the frame of its victim, moves nothing in RAM, and looks at no byte. -/
theorem evictPage_contents (hram : k.pmm.InRam) (h : k.evictPage = .ok k') :
    ∃ victim < NUM_FRAMES, (k.prp.findVictim k.pmm.frameTable).1 = some victim ∧ k'.pmm.InRam ∧
      k'.pmm.freeFrames = frameAddr victim :: k.pmm.freeFrames ∧ k'.memory = k.memory ∧
      ∀ memory disk, ∃ disk', (k.withContents memory disk).evictPage =
        .ok (k'.withContents memory disk') := by
  cases hfound : (k.prp.findVictim k.pmm.frameTable).1 with
  | none =>
    unfold evictPage at h
    simp only [hfound] at h
    cases h
  | some victim =>
    have hlt : victim < NUM_FRAMES := hram.table victim (popVictim_allocated hfound)
    have hframe : frameAddr victim = frameAddr (frameAddr victim >>> 12).toNat := by
      rw [frameAddr_shift hlt]
    cases hpid : Pid.ofInt? (k.pmm.frameTable victim).ownerPid with
    | none =>
      unfold evictPage at h
      simp only [hfound, hpid] at h
      cases h
    | some owner =>
      rw [evictPage_eq hfound hpid] at h
      have hother : ∀ memory disk, (k.withContents memory disk).evictPage = _ :=
        fun memory disk => evictPage_eq (k := k.withContents memory disk) hfound hpid
      dsimp only at h
      split_ifs at h with hclean
      · obtain ⟨hmemory, hfree, hcontents⟩ := dropPage_contents h
        obtain ⟨hram', hfrees⟩ := hram.freeFrame hframe hfree
        refine ⟨victim, hlt, rfl, hram', hfrees, hmemory, fun memory disk => ⟨disk, ?_⟩⟩
        exact (hother memory disk).trans ((if_pos hclean).trans (hcontents memory disk))
      · obtain ⟨hmemory, hfree, hcontents⟩ := swapOutPage_contents hlt h
        obtain ⟨hram', hfrees⟩ := hram.freeFrame hframe hfree
        refine ⟨victim, hlt, rfl, hram', hfrees, hmemory, fun memory disk => ?_⟩
        obtain ⟨disk', hcontents⟩ := hcontents memory disk
        exact ⟨disk', (hother memory disk).trans ((if_neg hclean).trans hcontents)⟩

theorem registerFrame_contents (h : k.registerFrame pid vpn paddr = .ok k') :
    k'.memory = k.memory ∧ (k.pmm.InRam → k'.pmm.InRam) ∧ ∀ memory disk,
      (k.withContents memory disk).registerFrame pid vpn paddr = .ok (k'.withContents memory disk) := by
  obtain ⟨pmm, hreg, h⟩ := bind_eq_ok.1 h
  cases h
  exact ⟨rfl, fun hram => hram.registerFrameOwner hreg,
    fun memory disk => bind_eq_ok.2 ⟨pmm, hreg, rfl⟩⟩

/-- An allocation takes the next frame, moves nothing in RAM, and looks at no byte. -/
theorem allocateFrame_contents (hram : k.pmm.InRam) (h : k.allocateFrame pid vpn = .ok (paddr, k')) :
    ∃ ppn < NUM_FRAMES, k.nextFrame = some ppn ∧ paddr = frameAddr ppn ∧ k'.pmm.InRam ∧
      k'.memory = k.memory ∧ ∀ memory disk, ∃ disk',
        (k.withContents memory disk).allocateFrame pid vpn = .ok (paddr, k'.withContents memory disk') := by
  have htake : ∀ (k₁ : Kernel) (frame : Addr) (rest : List Addr), k₁.pmm.freeFrames = frame :: rest →
      k₁.pmm.allocateFrame = (some frame, { k₁.pmm with freeFrames := rest }) := by
    intro k₁ frame rest hfree
    unfold PhysicalMemoryManager.allocateFrame
    rw [hfree]
  have hrest : ∀ {pmm : PhysicalMemoryManager} {frame : Addr} {rest : List Addr}, pmm.InRam →
      pmm.freeFrames = frame :: rest →
      (∃ ppn < NUM_FRAMES, frame = frameAddr ppn) ∧ { pmm with freeFrames := rest }.InRam := by
    intro pmm frame rest hram hfree
    exact ⟨hram.free frame (hfree ▸ List.mem_cons_self),
      fun f hf => hram.free f (hfree ▸ List.mem_cons_of_mem _ hf), hram.table⟩
  unfold nextFrame
  cases hfree : k.pmm.freeFrames with
  | cons frame rest =>
    obtain ⟨⟨ppn, hlt, rfl⟩, hram'⟩ := hrest hram hfree
    unfold allocateFrame at h
    simp only [htake k _ _ hfree] at h
    obtain ⟨k₂, hreg, h⟩ := bind_eq_ok.1 h
    cases h
    obtain ⟨hmemory, hkeep, hcontents⟩ := registerFrame_contents hreg
    refine ⟨ppn, hlt, ?_, rfl, hkeep hram', hmemory, fun memory disk => ⟨disk, ?_⟩⟩
    · exact congrArg some (frameAddr_shift hlt)
    · unfold allocateFrame
      simp only [htake (k.withContents memory disk) _ _ hfree]
      exact bind_eq_ok.2 ⟨_, hcontents memory disk, rfl⟩
  | nil =>
    have hnone : k.pmm.allocateFrame = (none, k.pmm) := by
      unfold PhysicalMemoryManager.allocateFrame
      rw [hfree]
    unfold allocateFrame at h
    simp only [hnone] at h
    obtain ⟨k₁, hevict, h⟩ := bind_eq_ok.1 h
    obtain ⟨victim, hlt, hfound, hram₁, hfree₁, hmemory₁, hcontents₁⟩ := evictPage_contents hram hevict
    rw [hfree] at hfree₁
    obtain ⟨-, hram'⟩ := hrest hram₁ hfree₁
    simp only [htake k₁ _ _ hfree₁] at h
    obtain ⟨k₂, hreg, h⟩ := bind_eq_ok.1 h
    cases h
    obtain ⟨hmemory, hkeep, hcontents⟩ := registerFrame_contents hreg
    refine ⟨victim, hlt, hfound, rfl, hkeep hram', hmemory.trans hmemory₁, fun memory disk => ?_⟩
    obtain ⟨disk', hevict'⟩ := hcontents₁ memory disk
    refine ⟨disk', ?_⟩
    have hnone' : (k.withContents memory disk).pmm.allocateFrame = (none, k.pmm) := hnone
    unfold allocateFrame
    simp only [hnone']
    refine bind_eq_ok.2 ⟨_, hevict', ?_⟩
    simp only [htake (k₁.withContents memory disk') _ _ hfree₁]
    exact bind_eq_ok.2 ⟨_, hcontents memory disk', rfl⟩

/-! ### Mapping a page for the first time -/

/-- The handler maps the page to the next frame, filled with `fill`, whatever RAM and the disk hold. -/
structure MapsFresh (handler : Kernel → Except Halt (Bool × Kernel)) (k k' : Kernel) (pid : Pid)
    (vpn : Addr) (ppn : Nat) (fill : Option (Nat → Byte)) : Prop where
  lt : ppn < NUM_FRAMES
  next : k.nextFrame = some ppn
  valid : (k'.pte pid vpn).valid = true
  frame : (k'.pte pid vpn).ppn.toNat = ppn
  inRam : k'.pmm.InRam
  memory : k'.memory = k.memory.filled ppn fill
  contents : ∀ memory disk, ∃ disk', handler (k.withContents memory disk) =
    .ok (true, k'.withContents (memory.filled ppn fill) disk')

/-- The fault is served by `handleStackGrowth`. -/
def growsStack (k : Kernel) (pid : Pid) (faultAddr : Addr) : Bool :=
  decide (STACK_REGION_BOTTOM ≤ faultAddr.toNat ∧ faultAddr.toNat < STACK_TOP) &&
    (k.processList pid).threads.any (k.inStack faultAddr)

theorem handleStackGrowth_eq : k.handleStackGrowth pid faultAddr vpn =
    if k.growsStack pid faultAddr then do
      let (paddr, k) ← k.allocateFrame pid vpn
      .ok (true, k.mapReadWrite pid vpn paddr)
    else .ok (false, k) := by
  unfold handleStackGrowth growsStack
  by_cases hregion : faultAddr.toNat < STACK_REGION_BOTTOM ∨ faultAddr.toNat ≥ STACK_TOP
  · rw [if_pos hregion, decide_eq_false (by omega), Bool.false_and, if_neg Bool.false_ne_true]
  · rw [if_neg hregion, decide_eq_true (by omega), Bool.true_and]

theorem handleStackGrowth_fresh (hram : k.pmm.InRam) (hgrows : k.growsStack pid faultAddr = true)
    (h : k.handleStackGrowth pid faultAddr vpn = .ok (true, k')) :
    ∃ ppn, MapsFresh (fun k => k.handleStackGrowth pid faultAddr vpn) k k' pid vpn ppn none := by
  rw [handleStackGrowth_eq, if_pos hgrows] at h
  obtain ⟨⟨paddr, k₁⟩, halloc, h⟩ := bind_eq_ok.1 h
  cases h
  obtain ⟨ppn, hlt, hnext, rfl, hram', hmemory, hcontents⟩ := allocateFrame_contents hram halloc
  refine ⟨ppn, hlt, hnext, ?_, ?_, hram', hmemory, fun memory disk => ?_⟩
  · rw [mapReadWrite, pte_setPTE_self]
  · rw [mapReadWrite, pte_setPTE_self]
    exact frameAddr_shift hlt
  · obtain ⟨disk', halloc'⟩ := hcontents memory disk
    refine ⟨disk', ?_⟩
    rw [handleStackGrowth_eq]
    exact (if_pos hgrows).trans (bind_eq_ok.2 ⟨_, halloc', rfl⟩)

theorem handleLazyLoading_fresh (hram : k.pmm.InRam)
    (h : k.handleLazyLoading pid faultAddr vpn = .ok (true, k')) :
    ∃ ppn value, MapsFresh (fun k => k.handleLazyLoading pid faultAddr vpn) k k' pid vpn ppn
      (some value) := by
  cases hseg : (k.processList pid).segments.find? (·.contains faultAddr) with
  | none =>
    unfold handleLazyLoading at h
    simp only [hseg] at h
    cases h
  | some seg =>
    unfold handleLazyLoading at h
    simp only [hseg] at h
    obtain ⟨⟨paddr, k₁⟩, halloc, h⟩ := bind_eq_ok.1 h
    obtain ⟨memory₁, hstore, h⟩ := bind_eq_ok.1 h
    obtain ⟨ppn, hlt, hnext, rfl, hram', hmemory, hcontents⟩ := allocateFrame_contents hram halloc
    obtain rfl := Except.ok.inj ((Memory.storePage_eq _ hlt _).symm.trans hstore)
    cases h
    let value : Nat → Byte := fun i => ((k₁.imageByte pid seg vpn i).signExtend 32).setWidth 8
    have hfilled : k₁.memory.withPage ppn value = k.memory.withPage ppn value := by rw [hmemory]
    refine ⟨ppn, value, hlt, hnext, ?_, ?_, hram', hfilled, fun memory disk => ?_⟩
    · rw [pte_setPTE_self]
      rfl
    · rw [pte_setPTE_self]
      exact frameAddr_shift hlt
    · obtain ⟨disk', halloc'⟩ := hcontents memory disk
      refine ⟨disk', ?_⟩
      have hseg' : ((k.withContents memory disk).processList pid).segments.find?
          (·.contains faultAddr) = some seg := hseg
      unfold handleLazyLoading
      simp only [hseg']
      refine bind_eq_ok.2 ⟨_, halloc', ?_⟩
      exact bind_eq_ok.2 ⟨_, Memory.storePage_eq _ hlt _, rfl⟩

theorem handleHeapGrowth_fresh (hram : k.pmm.InRam)
    (h : k.handleHeapGrowth pid faultAddr vpn = .ok (true, k')) :
    ∃ ppn, MapsFresh (fun k => k.handleHeapGrowth pid faultAddr vpn) k k' pid vpn ppn
      (some fun _ => 0) := by
  by_cases hheap : faultAddr.toNat ≥ HEAP_START ∧ faultAddr < (k.processList pid).programBreak
  · unfold handleHeapGrowth at h
    rw [if_pos hheap] at h
    obtain ⟨⟨paddr, k₁⟩, halloc, h⟩ := bind_eq_ok.1 h
    obtain ⟨memory₁, hstore, h⟩ := bind_eq_ok.1 h
    obtain ⟨ppn, hlt, hnext, rfl, hram', hmemory, hcontents⟩ := allocateFrame_contents hram halloc
    obtain rfl := Except.ok.inj ((Memory.storePage_eq _ hlt _).symm.trans hstore)
    cases h
    have hfilled : k₁.memory.withPage ppn (fun _ => 0) = k.memory.withPage ppn fun _ => 0 := by
      rw [hmemory]
    refine ⟨ppn, hlt, hnext, ?_, ?_, hram', hfilled, fun memory disk => ?_⟩
    · rw [mapReadWrite, pte_setPTE_self]
    · rw [mapReadWrite, pte_setPTE_self]
      exact frameAddr_shift hlt
    · obtain ⟨disk', halloc'⟩ := hcontents memory disk
      refine ⟨disk', ?_⟩
      unfold handleHeapGrowth
      refine (if_pos hheap).trans (bind_eq_ok.2 ⟨_, halloc', ?_⟩)
      exact bind_eq_ok.2 ⟨_, Memory.storePage_eq _ hlt _, rfl⟩
  · unfold handleHeapGrowth at h
    rw [if_neg hheap] at h
    cases h

/-- A segment holds the address. -/
def inSegment (k : Kernel) (pid : Pid) (faultAddr : Addr) : Bool :=
  ((k.processList pid).segments.find? (·.contains faultAddr)).isSome

/-- The handlers of a page that is neither resident nor swapped out, told apart by what they test. -/
def firstFault (k : Kernel) (pid : Pid) (faultAddr vpn : Addr) : Except Halt (Bool × Kernel) :=
  if k.growsStack pid faultAddr then k.handleStackGrowth pid faultAddr vpn
  else if k.inSegment pid faultAddr then k.handleLazyLoading pid faultAddr vpn
  else k.handleHeapGrowth pid faultAddr vpn

theorem servePageFault_eq (hvalid : (k.pte pid (faultAddr >>> 12)).valid = false)
    (hswapped : (k.pte pid (faultAddr >>> 12)).swapped = false) :
    k.servePageFault pid faultAddr =
      (k.setPTE pid (faultAddr >>> 12) (k.pte pid (faultAddr >>> 12))).firstFault pid faultAddr
        (faultAddr >>> 12) := by
  unfold servePageFault handleSwapIn
  dsimp only
  rw [pte_setPTE_self, hvalid, hswapped, if_neg Bool.false_ne_true, Bool.false_and,
    if_neg Bool.false_ne_true]
  generalize k.setPTE pid (faultAddr >>> 12) (k.pte pid (faultAddr >>> 12)) = k
  generalize faultAddr >>> 12 = vpn
  simp only [bind, Except.bind, Bool.false_eq_true, if_false]
  unfold firstFault
  cases hgrows : k.growsStack pid faultAddr with
  | true =>
    rw [handleStackGrowth_eq, if_pos hgrows, if_pos rfl]
    cases k.allocateFrame pid vpn <;> rfl
  | false =>
    rw [handleStackGrowth_eq, if_neg (by rw [hgrows]; nofun), if_neg Bool.false_ne_true]
    dsimp only
    rw [if_neg Bool.false_ne_true]
    unfold inSegment handleLazyLoading
    cases hseg : (k.processList pid).segments.find? (·.contains faultAddr) with
    | none => rfl
    | some seg =>
      dsimp only
      rw [Option.isSome_some, if_pos rfl]
      cases k.allocateFrame pid vpn with
      | error e => rfl
      | ok allocated =>
        obtain ⟨paddr, k₁⟩ := allocated
        simp only [bind, Except.bind]
        cases k₁.memory.storePage paddr fun i => (k₁.imageByte pid seg vpn i).signExtend 32 <;> rfl

theorem firstFault_fresh (hram : k.pmm.InRam)
    (h : k.firstFault pid faultAddr vpn = .ok (true, k')) :
    ∃ ppn fill, MapsFresh (fun k => k.firstFault pid faultAddr vpn) k k' pid vpn ppn fill ∧
      (fill = none ↔ k.growsStack pid faultAddr = true) := by
  have hlift : ∀ {handler : Kernel → Except Halt (Bool × Kernel)} {ppn : Nat} {fill : Option (Nat → Byte)},
      MapsFresh handler k k' pid vpn ppn fill →
      (∀ memory disk, (k.withContents memory disk).firstFault pid faultAddr vpn =
        handler (k.withContents memory disk)) →
      MapsFresh (fun k => k.firstFault pid faultAddr vpn) k k' pid vpn ppn fill := by
    intro handler ppn fill hmaps heq
    refine ⟨hmaps.lt, hmaps.next, hmaps.valid, hmaps.frame, hmaps.inRam, hmaps.memory,
      fun memory disk => ?_⟩
    obtain ⟨disk', hhandler⟩ := hmaps.contents memory disk
    exact ⟨disk', (heq memory disk).trans hhandler⟩
  unfold firstFault at h
  cases hgrows : k.growsStack pid faultAddr with
  | true =>
    rw [if_pos hgrows] at h
    obtain ⟨ppn, hmaps⟩ := handleStackGrowth_fresh hram hgrows h
    refine ⟨ppn, none, hlift hmaps fun memory disk => if_pos hgrows, ?_⟩
    exact ⟨fun _ => rfl, fun _ => rfl⟩
  | false =>
    have hnot : ¬ k.growsStack pid faultAddr = true := by
      rw [hgrows]
      nofun
    rw [if_neg hnot] at h
    by_cases hseg : k.inSegment pid faultAddr = true
    · rw [if_pos hseg] at h
      obtain ⟨ppn, value, hmaps⟩ := handleLazyLoading_fresh hram h
      refine ⟨ppn, some value, hlift hmaps fun memory disk => ?_, nofun, nofun⟩
      exact (if_neg hnot).trans (if_pos hseg)
    · rw [if_neg hseg] at h
      obtain ⟨ppn, hmaps⟩ := handleHeapGrowth_fresh hram h
      refine ⟨ppn, _, hlift hmaps fun memory disk => ?_, nofun, nofun⟩
      exact (if_neg hnot).trans (if_neg hseg)

/-- A first fault is served by the stack, which leaves the frame as it is, or by a segment or the
heap, which fill it; and so it is whatever RAM and the disk hold. -/
theorem servePageFault_contents (hram : k.pmm.InRam)
    (hvalid : (k.pte pid (faultAddr >>> 12)).valid = false)
    (hswapped : (k.pte pid (faultAddr >>> 12)).swapped = false)
    (h : k.servePageFault pid faultAddr = .ok (true, k')) :
    ∃ ppn fill, MapsFresh (fun k => k.servePageFault pid faultAddr) k k' pid (faultAddr >>> 12) ppn fill ∧
      (fill = none ↔ k.growsStack pid faultAddr = true) := by
  rw [servePageFault_eq hvalid hswapped] at h
  obtain ⟨ppn, fill, hmaps, hfill⟩ := firstFault_fresh (k := k.setPTE _ _ _) hram h
  have hprocess := process_of_unpaged (unpaged_setPTE k pid (faultAddr >>> 12)
    (k.pte pid (faultAddr >>> 12))) pid
  have hthreads := congrArg Process.threads hprocess
  have hgrows : (k.setPTE pid (faultAddr >>> 12) (k.pte pid (faultAddr >>> 12))).growsStack pid faultAddr =
      k.growsStack pid faultAddr := by
    unfold growsStack
    rw [show ((k.setPTE pid (faultAddr >>> 12) (k.pte pid (faultAddr >>> 12))).processList pid).threads =
      (k.processList pid).threads from hthreads]
    rfl
  rw [hgrows] at hfill
  refine ⟨ppn, fill, ⟨hmaps.lt, hmaps.next, hmaps.valid, hmaps.frame, hmaps.inRam, hmaps.memory,
    fun memory disk => ?_⟩, hfill⟩
  obtain ⟨disk', hfirst⟩ := hmaps.contents memory disk
  exact ⟨disk', (servePageFault_eq (k := k.withContents memory disk) hvalid hswapped).trans hfirst⟩

/-! ### Two states -/

/-- The kernels differ in nothing but the frames and the blocks of the swap area that `pid` does not
own. -/
structure SameButForeign (pid : Pid) (k₁ k₂ : Kernel) : Prop where
  rest : k₂ = k₁.withContents k₂.memory k₂.disk
  frames : ∀ vpn ppn, k₁.Maps (pid, vpn) ppn → ∀ i < KERNEL_PAGE_SIZE,
    k₂.memory.byte (ppn * KERNEL_PAGE_SIZE + i) = k₁.memory.byte (ppn * KERNEL_PAGE_SIZE + i)
  files : ∀ a < SwapManager.swapStartBlock * BLOCK_SIZE, k₂.disk.data a = k₁.disk.data a
  slots : ∀ vpn, (k₁.pte pid vpn).swapped = true → (k₁.pte pid vpn).valid = false →
    ∀ i < BLOCK_SIZE, k₂.disk.data ((SwapManager.swapStartBlock + (k₁.pte pid vpn).ppn.toNat) * BLOCK_SIZE + i) =
      k₁.disk.data ((SwapManager.swapStartBlock + (k₁.pte pid vpn).ppn.toNat) * BLOCK_SIZE + i)

/-- Byte `i` of a page, as its process sees it. -/
def seen (k : Kernel) (pid : Pid) (vpn : Addr) (i : Nat) : Byte :=
  k.memory.byte ((k.pte pid vpn).ppn.toNat * KERNEL_PAGE_SIZE + i)

/-- The next frame holds the same in both kernels. -/
def NextFrameSame (k₁ k₂ : Kernel) : Prop :=
  ∀ ppn, k₁.nextFrame = some ppn → ∀ i < KERNEL_PAGE_SIZE,
    k₁.memory.byte (ppn * KERNEL_PAGE_SIZE + i) = k₂.memory.byte (ppn * KERNEL_PAGE_SIZE + i)

/-- **What a new page shows.** A first fault of `pid` that one kernel serves, the other serves too,
and the new page is the same in both if and only if it is no stack page, or the frame that it gets
held the same before. -/
theorem new_page_contents {k₁' : Kernel} (hram : k₁.pmm.InRam) (hsame : SameButForeign pid k₁ k₂)
    (hswapped : (k₁.pte pid (faultAddr >>> 12)).swapped = false)
    (h : k₁.servePageFault pid faultAddr = .ok (true, k₁')) :
    ∃ k₂', k₂.servePageFault pid faultAddr = .ok (true, k₂') ∧
      ((∀ i < KERNEL_PAGE_SIZE, k₁'.seen pid (faultAddr >>> 12) i = k₂'.seen pid (faultAddr >>> 12) i) ↔
        (k₁.growsStack pid faultAddr = true → NextFrameSame k₁ k₂)) := by
  have hvalid : (k₁.pte pid (faultAddr >>> 12)).valid = false := by
    cases hvalid : (k₁.pte pid (faultAddr >>> 12)).valid with
    | false => rfl
    | true =>
      unfold servePageFault at h
      dsimp only at h
      rw [pte_setPTE_self, hvalid, if_pos rfl] at h
      cases h
  obtain ⟨ppn, fill, hmaps, hfill⟩ := servePageFault_contents hram hvalid hswapped h
  obtain ⟨disk', hserve⟩ := hmaps.contents k₂.memory k₂.disk
  rw [← hsame.rest] at hserve
  refine ⟨_, hserve, ?_⟩
  unfold seen NextFrameSame
  rw [show ((k₁'.withContents (k₂.memory.filled ppn fill) disk').pte pid (faultAddr >>> 12)) =
    k₁'.pte pid (faultAddr >>> 12) from rfl, hmaps.frame, hmaps.next, hmaps.memory]
  show (∀ i < KERNEL_PAGE_SIZE, (k₁.memory.filled ppn fill).byte _ = (k₂.memory.filled ppn fill).byte _) ↔ _
  cases fill with
  | none =>
    have hgrows := hfill.1 rfl
    constructor
    · intro heq _ p hp
      cases hp
      exact heq
    · exact fun heq => heq hgrows ppn rfl
  | some value =>
    constructor
    · intro _ hgrows
      cases hfill.2 hgrows
    · intro _ i hi
      exact (Memory.withPage_in k₁.memory ppn value hi).trans
        (Memory.withPage_in k₂.memory ppn value hi).symm

/-- The state after the boot, in which no page is mapped, and the same state with another byte in the
first free frame: the first word of the stack is accessed. -/
theorem stack_fault : ∃ k₁ k₂ k₁' : Kernel, boot twoPrograms [[0x61]] = .ok k₁ ∧
    SameButForeign 0 k₁ k₂ ∧ (k₁.pte 0 (0x3FFFFFC#32 >>> 12)).valid = false ∧
    (k₁.pte 0 (0x3FFFFFC#32 >>> 12)).swapped = false ∧
    k₁.servePageFault 0 0x3FFFFFC = .ok (true, k₁') ∧
    k₁.growsStack 0 0x3FFFFFC = true ∧ ¬ NextFrameSame k₁ k₂ := by
  have hdec : returns (boot twoPrograms [[0x61]]) (fun k =>
      decide ((k.processList 0).pageTable.toList = []) &&
      decide (k.nextFrame = some 15 ∧ k.memory.byte 61440 = 0) && k.growsStack 0 0x3FFFFFC &&
      returns (k.servePageFault 0 0x3FFFFFC) fun r => r.1) = true := by decide +kernel
  obtain ⟨k, hboot, hdec⟩ := returns_iff.1 hdec
  rw [Bool.and_eq_true, Bool.and_eq_true, Bool.and_eq_true] at hdec
  obtain ⟨⟨⟨hempty, hnext⟩, hgrows⟩, hdec⟩ := hdec
  obtain ⟨hnext, hzero⟩ := of_decide_eq_true hnext
  obtain ⟨⟨handled, k'⟩, hserve, hhandled⟩ := returns_iff.1 hdec
  obtain rfl : handled = true := hhandled
  have hpte : ∀ vpn, k.pte 0 vpn = {} := by
    intro vpn
    unfold pte PageTable.entry
    cases hfind : (k.processList 0).pageTable.find? vpn with
    | none => rfl
    | some e =>
      have hmem := PageTable.mem_toList.2 hfind
      rw [of_decide_eq_true hempty] at hmem
      cases hmem
  refine ⟨k, k.withContents ⟨Function.update k.memory.byte 61440 1⟩ k.disk, k', hboot, ?_,
    by rw [hpte], by rw [hpte], hserve, hgrows, fun hsame => ?_⟩
  · refine ⟨rfl, fun vpn ppn hmaps => ?_, fun _ _ => rfl, fun vpn hswapped => ?_⟩
    · have hvalid : (k.pte 0 vpn).valid = true := hmaps.2.1
      rw [hpte] at hvalid
      cases hvalid
    · rw [hpte] at hswapped
      cases hswapped
  · have hbyte := hsame 15 hnext 0 (by decide)
    have hone : k.memory.byte 61440 = Function.update k.memory.byte 61440 1 61440 := hbyte
    rw [hzero, Function.update_self] at hone
    exact absurd hone (by decide)

/-- The two states serve the fault, and show the process different pages. -/
theorem new_page_contents_stack : ∃ k₁ k₂ k₁' k₂' : Kernel, SameButForeign 0 k₁ k₂ ∧
    k₁.servePageFault 0 0x3FFFFFC = .ok (true, k₁') ∧
    k₂.servePageFault 0 0x3FFFFFC = .ok (true, k₂') ∧
    ¬ ∀ i < KERNEL_PAGE_SIZE, k₁'.seen 0 (0x3FFFFFC#32 >>> 12) i = k₂'.seen 0 (0x3FFFFFC#32 >>> 12) i := by
  obtain ⟨k₁, k₂, k₁', hboot, hsame, hvalid, hswapped, hserve, hgrows, hnot⟩ := stack_fault
  have hreach : k₁.Reachable := ⟨_, _, k₁, [], hboot, .nil⟩
  obtain ⟨k₂', hserve₂, hiff⟩ := new_page_contents (reachable_tracked hreach).owners.inRam hsame hswapped hserve
  exact ⟨k₁, k₂, k₁', k₂', hsame, hserve, hserve₂, fun heq => hnot (hiff.1 heq hgrows)⟩

/-- A process sees what a frame held before it became a page of its stack. -/
theorem stale_stack_page : ¬ ∀ (k₁ k₂ k₁' k₂' : Kernel) (pid : Pid) (faultAddr : Addr),
    k₁.Reachable → SameButForeign pid k₁ k₂ → (k₁.pte pid (faultAddr >>> 12)).swapped = false →
    k₁.servePageFault pid faultAddr = .ok (true, k₁') →
    k₂.servePageFault pid faultAddr = .ok (true, k₂') →
    ∀ i < KERNEL_PAGE_SIZE, k₁'.seen pid (faultAddr >>> 12) i = k₂'.seen pid (faultAddr >>> 12) i := by
  intro hclaim
  obtain ⟨k₁, k₂, k₁', hboot, hsame, hvalid, hswapped, hserve, hgrows, hnot⟩ := stack_fault
  have hreach : k₁.Reachable := ⟨_, _, k₁, [], hboot, .nil⟩
  obtain ⟨ppn, fill, hmaps, hfill⟩ :=
    servePageFault_contents (reachable_tracked hreach).owners.inRam hvalid hswapped hserve
  obtain rfl := hfill.2 hgrows
  obtain ⟨disk', hserve₂⟩ := hmaps.contents k₂.memory k₂.disk
  rw [← hsame.rest] at hserve₂
  have heq := hclaim k₁ k₂ k₁' _ 0 _ hreach hsame hswapped hserve hserve₂
  refine hnot fun p hp i hi => ?_
  cases hmaps.next.symm.trans hp
  have hbyte := heq i hi
  unfold seen at hbyte
  rw [show ((k₁'.withContents (k₂.memory.filled ppn none) disk').pte 0 (0x3FFFFFC#32 >>> 12)) =
    k₁'.pte 0 (0x3FFFFFC#32 >>> 12) from rfl, hmaps.frame, hmaps.memory] at hbyte
  exact hbyte

end Kernel

end Rv32umos
