import Rv32umos.Kernel.Paging
import Rv32umos.Lib.Matching

/-!
# The frame table against the pages

`FrameTableOk pmm holds`: the free list has no duplicates and is the list of the frames that the
frame table does not mark allocated, and the owners in the frame table are matched with `holds`,
which says what frame each page is in. The operations of the physical memory manager change `holds`
at one page (`FrameTableOk.take`, `FrameTableOk.freeFrame`). What `holds` is for a kernel,
`pageFrame`, is read off the page tables of the active processes.
-/

namespace Rv32umos

/-- A virtual page of a process. -/
abbrev Page := Pid × Addr

/-- The physical address of a frame, as `freeFrames` holds it. -/
def frameAddr (ppn : Nat) : Addr := BitVec.ofNat 32 (ppn * KERNEL_PAGE_SIZE)

theorem frameAddr_toNat {ppn : Nat} (h : ppn < NUM_FRAMES) :
    (frameAddr ppn).toNat = ppn * 4096 := by
  simp only [NUM_FRAMES, MEMORY_SIZE, PHYSICAL_RAM_KB, KERNEL_PAGE_SIZE] at h
  rw [frameAddr, BitVec.toNat_ofNat, KERNEL_PAGE_SIZE]
  omega

theorem frameAddr_shift {ppn : Nat} (h : ppn < NUM_FRAMES) :
    (frameAddr ppn >>> 12).toNat = ppn := by
  rw [BitVec.toNat_ushiftRight, frameAddr_toNat h, Nat.shiftRight_eq_div_pow]
  omega

theorem frameAddr_inj {ppn ppn' : Nat} (h : ppn < NUM_FRAMES) (h' : ppn' < NUM_FRAMES)
    (heq : frameAddr ppn = frameAddr ppn') : ppn = ppn' := by
  rw [← frameAddr_shift h, heq, frameAddr_shift h']

theorem Pid.ofInt?_val (p : Pid) : Pid.ofInt? p.val = some p := by
  have hlt := p.isLt
  unfold Pid.ofInt?
  rw [dif_pos ⟨Int.natCast_nonneg _, hlt⟩]
  rfl

/-- Freeing the frame `ppn`. -/
def PhysicalMemoryManager.freed (pmm : PhysicalMemoryManager) (ppn : Nat) : PhysicalMemoryManager where
  freeFrames := frameAddr ppn :: pmm.freeFrames
  frameTable := Function.update pmm.frameTable ppn FrameInfo.clear

theorem PhysicalMemoryManager.freeFrame_eq (pmm : PhysicalMemoryManager) {ppn : Nat}
    (h : ppn < NUM_FRAMES) : pmm.freeFrame (frameAddr ppn) = .ok (pmm.freed ppn) := by
  unfold PhysicalMemoryManager.freeFrame freed
  rw [frameAddr_shift h, if_neg (Nat.not_le.2 h)]

/-- Giving the frame `ppn` to page `o`, when `rest` is free afterwards. -/
def PhysicalMemoryManager.taken (pmm : PhysicalMemoryManager) (rest : List Addr) (ppn : Nat) (o : Page) :
    PhysicalMemoryManager where
  freeFrames := rest
  frameTable := Function.update pmm.frameTable ppn { ownerPid := o.1.val, vpn := o.2, allocated := true }

theorem PhysicalMemoryManager.freed_self (pmm : PhysicalMemoryManager) (ppn : Nat) :
    (pmm.freed ppn).frameTable ppn = FrameInfo.clear := Function.update_self _ _ _

theorem PhysicalMemoryManager.freed_ne (pmm : PhysicalMemoryManager) {ppn ppn' : Nat} (h : ppn' ≠ ppn) :
    (pmm.freed ppn).frameTable ppn' = pmm.frameTable ppn' := Function.update_of_ne h _ _

theorem PhysicalMemoryManager.taken_self (pmm : PhysicalMemoryManager) (rest : List Addr) (ppn : Nat)
    (o : Page) : (pmm.taken rest ppn o).frameTable ppn =
      { ownerPid := o.1.val, vpn := o.2, allocated := true } := Function.update_self _ _ _

theorem PhysicalMemoryManager.taken_ne (pmm : PhysicalMemoryManager) (rest : List Addr) {ppn ppn' : Nat}
    (o : Page) (h : ppn' ≠ ppn) : (pmm.taken rest ppn o).frameTable ppn' = pmm.frameTable ppn' :=
  Function.update_of_ne h _ _

theorem PhysicalMemoryManager.allocateFrame_eq {pmm : PhysicalMemoryManager} {frame : Addr}
    {rest : List Addr} (h : pmm.freeFrames = frame :: rest) :
    pmm.allocateFrame = (some frame, { pmm with freeFrames := rest }) := by
  unfold PhysicalMemoryManager.allocateFrame
  rw [h]

theorem PhysicalMemoryManager.registerFrameOwner_eq (pmm : PhysicalMemoryManager) (rest : List Addr)
    {ppn : Nat} (h : ppn < NUM_FRAMES) (o : Page) :
    { pmm with freeFrames := rest }.registerFrameOwner (frameAddr ppn >>> 12) o.2 o.1.val =
      .ok (pmm.taken rest ppn o) := by
  unfold PhysicalMemoryManager.registerFrameOwner taken
  rw [frameAddr_shift h, if_neg (Nat.not_le.2 h)]

/-- The manager hands out and gives away frames of RAM only. -/
structure PhysicalMemoryManager.InRam (pmm : PhysicalMemoryManager) : Prop where
  free : ∀ frame ∈ pmm.freeFrames, ∃ ppn < NUM_FRAMES, frame = frameAddr ppn
  table : ∀ ppn, (pmm.frameTable ppn).allocated = true → ppn < NUM_FRAMES

namespace PhysicalMemoryManager.InRam

variable {pmm pmm' : PhysicalMemoryManager} {frame ppn vpn : Addr} {ownerPid : Int}

theorem freeFrame (h : pmm.InRam) (hframe : frame = frameAddr (frame >>> 12).toNat)
    (hfree : pmm.freeFrame frame = .ok pmm') :
    pmm'.InRam ∧ pmm'.freeFrames = frame :: pmm.freeFrames := by
  unfold PhysicalMemoryManager.freeFrame at hfree
  dsimp only at hfree
  split_ifs at hfree with hlt
  cases hfree
  refine ⟨⟨fun f hf => ?_, fun p hp => ?_⟩, rfl⟩
  · rcases List.mem_cons.1 hf with rfl | hf
    · exact ⟨_, by omega, hframe⟩
    · exact h.free f hf
  · dsimp only at hp
    by_cases heq : p = (frame >>> 12).toNat
    · rw [heq, Function.update_self] at hp
      cases hp
    · rw [Function.update_of_ne heq] at hp
      exact h.table p hp

theorem registerFrameOwner (h : pmm.InRam)
    (hreg : pmm.registerFrameOwner ppn vpn ownerPid = .ok pmm') : pmm'.InRam := by
  unfold PhysicalMemoryManager.registerFrameOwner at hreg
  split_ifs at hreg with hlt
  cases hreg
  refine ⟨h.free, fun p hp => ?_⟩
  dsimp only at hp
  by_cases heq : p = ppn.toNat
  · omega
  · rw [Function.update_of_ne heq] at hp
    exact h.table p hp

end PhysicalMemoryManager.InRam

/-- The page that the frame table enters as the owner of a frame. -/
def PhysicalMemoryManager.frameOwner (pmm : PhysicalMemoryManager) (ppn : Nat) : Option Page :=
  if (pmm.frameTable ppn).allocated then
    (Pid.ofInt? (pmm.frameTable ppn).ownerPid).map fun pid => (pid, (pmm.frameTable ppn).vpn)
  else none

structure FrameTableOk (pmm : PhysicalMemoryManager) (holds : Page → Option Nat) : Prop where
  nodup : pmm.freeFrames.Nodup
  free : ∀ frame, frame ∈ pmm.freeFrames ↔
    ∃ ppn < NUM_FRAMES, frame = frameAddr ppn ∧ (pmm.frameTable ppn).allocated = false
  owned : ∀ ppn, (pmm.frameTable ppn).allocated = true →
    ppn < NUM_FRAMES ∧ ∃ pid : Pid, (pmm.frameTable ppn).ownerPid = pid.val
  matched : Matched pmm.frameOwner holds

namespace FrameTableOk

variable {pmm pmm' : PhysicalMemoryManager} {holds : Page → Option Nat} {ppn : Nat}

theorem frameOwner_of_allocated (h : FrameTableOk pmm holds)
    (hall : (pmm.frameTable ppn).allocated = true) :
    ∃ pid : Pid, (pmm.frameTable ppn).ownerPid = pid.val ∧
      holds (pid, (pmm.frameTable ppn).vpn) = some ppn := by
  obtain ⟨-, pid, hpid⟩ := h.owned ppn hall
  refine ⟨pid, hpid, (h.matched _ _).1 ?_⟩
  rw [PhysicalMemoryManager.frameOwner, if_pos hall, hpid, Pid.ofInt?_val]
  rfl

/-- The frame table's entry for a frame that a page holds. -/
theorem info_of_holds (h : FrameTableOk pmm holds) {o : Page} (ho : holds o = some ppn) :
    ppn < NUM_FRAMES ∧ pmm.frameTable ppn = { ownerPid := o.1.val, vpn := o.2, allocated := true } := by
  have hown := (h.matched ppn o).2 ho
  unfold PhysicalMemoryManager.frameOwner at hown
  split_ifs at hown with hall
  obtain ⟨hlt, pid, hpid⟩ := h.owned ppn hall
  rw [hpid, Pid.ofInt?_val] at hown
  cases hown
  refine ⟨hlt, ?_⟩
  rw [← hpid, ← hall]

/-- A frame is free, or some page holds it, and not both. -/
theorem free_iff_not_held (h : FrameTableOk pmm holds) (hlt : ppn < NUM_FRAMES) :
    frameAddr ppn ∈ pmm.freeFrames ↔ ∀ o, holds o ≠ some ppn := by
  rw [h.free]
  constructor
  · rintro ⟨ppn', hlt', heq, hfree⟩ o ho
    rw [frameAddr_inj hlt hlt' heq] at ho
    rw [(h.info_of_holds ho).2] at hfree
    cases hfree
  · intro hno
    refine ⟨ppn, hlt, rfl, ?_⟩
    by_contra hall
    obtain ⟨pid, -, hheld⟩ := h.frameOwner_of_allocated (Bool.eq_true_of_not_eq_false hall)
    exact hno _ hheld

theorem frameOwner_update (pmm : PhysicalMemoryManager) (free : List Addr) (ppn : Nat)
    (info : FrameInfo) :
    PhysicalMemoryManager.frameOwner ⟨free, Function.update pmm.frameTable ppn info⟩ =
      Function.update pmm.frameOwner ppn
        (if info.allocated then (Pid.ofInt? info.ownerPid).map fun pid => (pid, info.vpn)
        else none) := by
  funext ppn'
  by_cases heq : ppn' = ppn
  · subst heq
    simp only [PhysicalMemoryManager.frameOwner, Function.update_self]
  · simp only [PhysicalMemoryManager.frameOwner, Function.update_of_ne heq]

/-- Taking a frame off the free list and registering it for a page that holds none. -/
theorem take (h : FrameTableOk pmm holds) {paddr : Addr}
    (htake : pmm.allocateFrame = (some paddr, pmm')) {o : Page} (ho : holds o = none) :
    ∃ ppn < NUM_FRAMES, paddr = frameAddr ppn ∧ (∀ o', holds o' ≠ some ppn) ∧
      ∃ pmm'', pmm'.registerFrameOwner (paddr >>> 12) o.2 o.1.val = .ok pmm'' ∧
        FrameTableOk pmm'' (Function.update holds o (some ppn)) := by
  cases hfree : pmm.freeFrames with
  | nil => simp [PhysicalMemoryManager.allocateFrame, hfree] at htake
  | cons frame rest =>
    simp only [PhysicalMemoryManager.allocateFrame, hfree, Prod.mk.injEq,
      Option.some.injEq] at htake
    obtain ⟨rfl, rfl⟩ := htake
    obtain ⟨ppn, hlt, rfl, hunalloc⟩ := (h.free frame).1 (hfree ▸ List.mem_cons_self)
    have hnodup := h.nodup
    rw [hfree, List.nodup_cons] at hnodup
    have hunheld : ∀ o', holds o' ≠ some ppn :=
      (h.free_iff_not_held hlt).1 (hfree ▸ List.mem_cons_self)
    refine ⟨ppn, hlt, rfl, hunheld, _, if_neg (by rw [frameAddr_shift hlt]; omega), ?_⟩
    rw [frameAddr_shift hlt]
    refine ⟨hnodup.2, fun frame => ?_, fun ppn' hall => ?_, ?_⟩
    · constructor
      · intro hmem
        obtain ⟨ppn', hlt', rfl, hun'⟩ := (h.free frame).1 (hfree ▸ List.mem_cons_of_mem _ hmem)
        refine ⟨ppn', hlt', rfl, ?_⟩
        have hne : ppn' ≠ ppn := fun heq => hnodup.1 (heq ▸ hmem)
        dsimp only
        rw [Function.update_of_ne hne]
        exact hun'
      · rintro ⟨ppn', hlt', rfl, hun'⟩
        by_cases hne : ppn' = ppn
        · subst hne
          dsimp only at hun'
          rw [Function.update_self] at hun'
          cases hun'
        · dsimp only at hun'
          rw [Function.update_of_ne hne] at hun'
          have hmem := (h.free (frameAddr ppn')).2 ⟨ppn', hlt', rfl, hun'⟩
          rw [hfree, List.mem_cons] at hmem
          exact hmem.resolve_left fun heq => hne (frameAddr_inj hlt' hlt heq)
    · by_cases hne : ppn' = ppn
      · subst hne
        exact ⟨hlt, o.1, by dsimp only; rw [Function.update_self]⟩
      · dsimp only at hall ⊢
        rw [Function.update_of_ne hne] at hall ⊢
        exact h.owned ppn' hall
    · rw [frameOwner_update]
      simp only [if_true, Pid.ofInt?_val, Option.map_some]
      refine h.matched.assign ?_ ho
      exact if_neg (by rw [hunalloc]; decide)

/-- Giving back the frame that a page holds. -/
theorem freeFrame (h : FrameTableOk pmm holds) {o : Page} (ho : holds o = some ppn) :
    ∃ pmm', pmm.freeFrame (frameAddr ppn) = .ok pmm' ∧ pmm'.freeFrames ≠ [] ∧
      FrameTableOk pmm' (Function.update holds o none) := by
  obtain ⟨hlt, hinfo⟩ := h.info_of_holds ho
  have hnotfree : frameAddr ppn ∉ pmm.freeFrames := fun hmem =>
    (h.free_iff_not_held hlt).1 hmem o ho
  refine ⟨_, if_neg (by rw [frameAddr_shift hlt]; omega), List.cons_ne_nil _ _, ?_⟩
  rw [frameAddr_shift hlt]
  refine ⟨List.nodup_cons.2 ⟨hnotfree, h.nodup⟩, fun frame => ?_, fun ppn' hall => ?_, ?_⟩
  · rw [List.mem_cons]
    constructor
    · rintro (rfl | hmem)
      · exact ⟨ppn, hlt, rfl, by dsimp only; rw [Function.update_self]; rfl⟩
      · obtain ⟨ppn', hlt', rfl, hun'⟩ := (h.free frame).1 hmem
        have hne : ppn' ≠ ppn := fun heq => hnotfree (heq ▸ hmem)
        refine ⟨ppn', hlt', rfl, ?_⟩
        dsimp only
        rw [Function.update_of_ne hne]
        exact hun'
    · rintro ⟨ppn', hlt', rfl, hun'⟩
      by_cases hne : ppn' = ppn
      · exact .inl (hne ▸ rfl)
      · dsimp only at hun'
        rw [Function.update_of_ne hne] at hun'
        exact .inr ((h.free _).2 ⟨ppn', hlt', rfl, hun'⟩)
  · by_cases hne : ppn' = ppn
    · subst hne
      dsimp only at hall
      rw [Function.update_self] at hall
      cases hall
    · dsimp only at hall ⊢
      rw [Function.update_of_ne hne] at hall ⊢
      exact h.owned ppn' hall
  · rw [frameOwner_update]
    exact h.matched.release ho

end FrameTableOk

end Rv32umos
