import Rv32umos.Kernel.PagingFacts

/-!
# The initial image of a process

`Process.image` says what a byte of a segment page or of a heap page holds before any store: the byte
of the file, or zero. Handlers decide by the faulting address alone; for `WellPlaced` segments (page
aligned, below the heap, no page shared) the page that they fill gets its image
(`imageByte_eq_image`, `image_heap`, `image_stack`).
-/

namespace Rv32umos

/-- The segment has a byte in page `vpn`. -/
def Segment.ownsPage (seg : Segment) (vpn : Nat) : Bool :=
  seg.vaddr.toNat / 4096 ≤ vpn && vpn * 4096 < seg.vaddr.toNat + seg.memSize

structure WellPlaced (segments : List Segment) : Prop where
  aligned : ∀ seg ∈ segments, seg.vaddr.toNat % 4096 = 0
  below : ∀ seg ∈ segments, seg.vaddr.toNat + seg.memSize ≤ HEAP_START
  disjoint : segments.Pairwise fun seg seg' => ∀ vpn, ¬ (seg.ownsPage vpn ∧ seg'.ownsPage vpn)

/-- What byte `a` of a segment page or heap page holds initially. -/
def Process.image (p : Process) (files : Name → Option (List Byte)) (a : Nat) : Option Byte :=
  match p.segments.find? fun seg => seg.ownsPage (a / 4096) with
  | some seg =>
    if a < seg.vaddr.toNat + seg.fileSize then
      some (((files p.name).getD []).getD (seg.fileOffset + (a - seg.vaddr.toNat)) 0)
    else some 0
  | none => if HEAP_START ≤ a ∧ a < HEAP_MAX_LIMIT then some 0 else none

/-- The segment that a faulting address lies in owns its page. -/
theorem Segment.ownsPage_of_contains {seg : Segment} {v : Addr}
    (h : seg.contains v = true) : seg.ownsPage (v >>> 12).toNat = true := by
  simp only [Segment.contains, Bool.and_eq_true, decide_eq_true_eq] at h
  have hpage : (v >>> 12).toNat = v.toNat / 4096 := toNat_shiftRight12 v
  simp only [Segment.ownsPage, hpage, Bool.and_eq_true, decide_eq_true_eq]
  omega

namespace WellPlaced

variable {segments : List Segment} {seg : Segment} {vpn : Nat}

/-- At most one segment owns a page. -/
theorem find_owner (h : WellPlaced segments) (hmem : seg ∈ segments)
    (howns : seg.ownsPage vpn = true) : segments.find? (·.ownsPage vpn) = some seg := by
  cases hfind : segments.find? (·.ownsPage vpn) with
  | none => exact absurd howns (List.find?_eq_none.1 hfind seg hmem)
  | some seg' =>
    have hmem' : seg' ∈ segments := List.mem_of_find?_eq_some hfind
    have howns' : seg'.ownsPage vpn = true := by simpa using List.find?_some hfind
    by_contra hne
    have hsymm : Std.Symm fun seg seg' : Segment => ∀ vpn, ¬ (seg.ownsPage vpn ∧ seg'.ownsPage vpn) :=
      ⟨fun _ _ hdisjoint vpn hand => hdisjoint vpn hand.symm⟩
    have hdistinct : seg ≠ seg' := fun heq => hne (heq ▸ rfl)
    exact h.disjoint.forall hmem hmem' hdistinct vpn ⟨howns, howns'⟩

/-- No segment has a byte above the start of the heap. -/
theorem find_none (h : WellPlaced segments) (hvpn : HEAP_START ≤ vpn * 4096) :
    segments.find? (·.ownsPage vpn) = none := by
  rw [List.find?_eq_none]
  intro seg hmem howns
  have hbelow := h.below seg hmem
  simp only [Segment.ownsPage, Bool.and_eq_true, decide_eq_true_eq] at howns
  omega

end WellPlaced

variable {k : Kernel} {pid : Pid} {v : Addr}

/-- What `handleLazyLoading` fills a page with is its image. -/
theorem Kernel.imageByte_eq_image {seg : Segment}
    (hplaced : WellPlaced (k.processList pid).segments)
    (hseg : (k.processList pid).segments.find? (·.contains v) = some seg) {i : Nat}
    (hi : i < KERNEL_PAGE_SIZE) :
    (k.processList pid).image k.host.files ((v >>> 12).toNat * 4096 + i) =
      some (k.imageByte pid seg (v >>> 12) i) := by
  have hmem : seg ∈ (k.processList pid).segments := List.mem_of_find?_eq_some hseg
  have hcontains : seg.contains v = true := by simpa using List.find?_some hseg
  have howns := Segment.ownsPage_of_contains hcontains
  have hpage : ((v >>> 12).toNat * 4096 + i) / 4096 = (v >>> 12).toNat := by
    simp only [KERNEL_PAGE_SIZE] at hi
    omega
  have haligned := hplaced.aligned seg hmem
  have hvpn : (v >>> 12).toNat = v.toNat / 4096 := toNat_shiftRight12 v
  have hv := v.isLt
  have hstart : seg.vaddr.toNat ≤ (v >>> 12).toNat * 4096 := by
    simp only [Segment.ownsPage, Bool.and_eq_true, decide_eq_true_eq] at howns
    omega
  -- the address arithmetic of `handleLazyLoading` does not wrap
  have hoffset : ((v >>> 12) * BitVec.ofNat 32 KERNEL_PAGE_SIZE - seg.vaddr).toNat =
      (v >>> 12).toNat * 4096 - seg.vaddr.toNat := by
    have hmul : ((v >>> 12) * BitVec.ofNat 32 KERNEL_PAGE_SIZE).toNat = (v >>> 12).toNat * 4096 := by
      rw [BitVec.toNat_mul, BitVec.toNat_ofNat]
      simp only [KERNEL_PAGE_SIZE]
      omega
    rw [BitVec.toNat_sub_of_le (by rw [BitVec.le_def, hmul]; exact hstart), hmul]
  have hfind : (k.processList pid).segments.find? (fun seg =>
      seg.ownsPage (((v >>> 12).toNat * 4096 + i) / 4096)) = some seg := by
    rw [hpage]
    exact hplaced.find_owner hmem howns
  unfold Process.image Kernel.imageByte
  rw [hfind]
  dsimp only
  rw [hoffset]
  simp only [KERNEL_PAGE_SIZE] at hi ⊢
  by_cases hin : (v >>> 12).toNat * 4096 + i < seg.vaddr.toNat + seg.fileSize
  · have hcond : (v >>> 12).toNat * 4096 - seg.vaddr.toNat < seg.fileSize ∧
        i < min 4096 (seg.fileSize - ((v >>> 12).toNat * 4096 - seg.vaddr.toNat)) := by omega
    have hpos : seg.fileOffset + ((v >>> 12).toNat * 4096 + i - seg.vaddr.toNat) =
        seg.fileOffset + ((v >>> 12).toNat * 4096 - seg.vaddr.toNat) + i := by omega
    rw [if_pos hin, if_pos hcond, hpos]
    cases k.host.files (k.processList pid).name <;> rfl
  · have hcond : ¬ ((v >>> 12).toNat * 4096 - seg.vaddr.toNat < seg.fileSize ∧
        i < min 4096 (seg.fileSize - ((v >>> 12).toNat * 4096 - seg.vaddr.toNat))) := by omega
    rw [if_neg hin, if_neg hcond]

variable {p : Process} {files : Name → Option (List Byte)}

/-- The image of a page above the start of the heap is zero, where it is specified. -/
theorem Process.image_heap (hplaced : WellPlaced p.segments) (hv : HEAP_START ≤ v.toNat) {i : Nat}
    (hi : i < KERNEL_PAGE_SIZE) {b : Byte}
    (h : p.image files ((v >>> 12).toNat * 4096 + i) = some b) : b = 0 := by
  have hvpn : (v >>> 12).toNat = v.toNat / 4096 := toNat_shiftRight12 v
  simp only [HEAP_START, VIRTUAL_MEMORY_SIZE, VIRTUAL_RAM_MB, KERNEL_PAGE_SIZE] at hv hi
  have hpage : ((v >>> 12).toNat * 4096 + i) / 4096 = (v >>> 12).toNat := by omega
  unfold Process.image at h
  rw [hpage, hplaced.find_none (by simp only [HEAP_START, VIRTUAL_MEMORY_SIZE, VIRTUAL_RAM_MB]; omega)]
    at h
  dsimp only at h
  split_ifs at h
  exact (Option.some.inj h).symm

/-- The image of a stack page is not specified. -/
theorem Process.image_stack (hplaced : WellPlaced p.segments) (hv : STACK_REGION_BOTTOM ≤ v.toNat)
    {i : Nat} (hi : i < KERNEL_PAGE_SIZE) :
    p.image files ((v >>> 12).toNat * 4096 + i) = none := by
  have hvpn : (v >>> 12).toNat = v.toNat / 4096 := toNat_shiftRight12 v
  simp only [STACK_REGION_BOTTOM, VIRTUAL_MEMORY_SIZE, VIRTUAL_RAM_MB, KERNEL_PAGE_SIZE] at hv hi
  have hpage : ((v >>> 12).toNat * 4096 + i) / 4096 = (v >>> 12).toNat := by omega
  unfold Process.image
  rw [hpage, hplaced.find_none (by simp only [HEAP_START, VIRTUAL_MEMORY_SIZE, VIRTUAL_RAM_MB]; omega)]
  simp only [HEAP_START, HEAP_MAX_LIMIT, STACK_REGION_BOTTOM, VIRTUAL_MEMORY_SIZE, VIRTUAL_RAM_MB]
  exact if_neg (by omega)

end Rv32umos
