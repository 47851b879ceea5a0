import Rv32umos.Storage.Files
import Rv32umos.Lib.Transition

/-!
# Files and swap on one disk

The file system hands out blocks from 0 on with a bump pointer; the swap manager hands out the last
`NUM_SWAP_BLOCKS` blocks with a bitmap. A run of `createFile`, `removeFile`, `swapOut` and `swapIn`
is a `Transition.Run` of `Storage.step`, and `created` reads off its labels the files ever created.

`createFile` bounds the pointer by the size of the whole disk and computes the number of blocks in
64 bits, so a file can reach into the swap area (`createFile_reaches_swap`). `layout_safe`: as long
as every `createFile` that is let through ends below the swap area, the files are disjoint, lie
below the swap area, and neither side writes the other's blocks.
-/

namespace Rv32umos

open Transition

structure Storage where
  disk : InMemoryDisk
  vfs : StubFileSystem
  swap : SwapManager

namespace Storage

/-- `Kernel::initKernelSubsystem`. -/
def init : Storage := ⟨.new, .new, .new⟩

/-- An operation; `create` carries the metadata of the new file if there is one. -/
inductive Event where
  | create (filename : Name) (sizeBytes : Nat) (created : Option FileMetadata)
  | remove (filename : Name)
  | swapOut (buffer : List Byte)
  | swapIn (buffer : List Byte) (slot : Int)

inductive step (s : Storage) : Event → Storage → Prop
  | create (filename : Name) (sizeBytes : Nat) (hsize : sizeBytes < 2 ^ 64) :
    step s
      (.create filename sizeBytes
        (if (s.vfs.createFile s.disk filename sizeBytes).1 then
          (s.vfs.createFile s.disk filename sizeBytes).2.fileTable filename else none))
      { s with vfs := (s.vfs.createFile s.disk filename sizeBytes).2 }
  | remove (filename : Name) :
    step s (.remove filename) { s with vfs := (s.vfs.removeFile filename).2 }
  | swapOut (buffer : List Byte) :
    step s (.swapOut buffer)
      { s with
        swap := (s.swap.swapOut s.disk buffer).2.1
        disk := (s.swap.swapOut s.disk buffer).2.2 }
  | swapIn (buffer : List Byte) (slot : Int) :
    step s (.swapIn buffer slot) { s with swap := (s.swap.swapIn s.disk buffer slot).2 }

/-- The files ever created, in order. -/
def created (es : List Event) : List FileMetadata :=
  es.filterMap fun
    | .create _ _ info => info
    | _ => none

end Storage

namespace FileMetadata

/-- The number of blocks that hold `sizeBytes` bytes. -/
def blockCount (info : FileMetadata) : Nat := (info.sizeBytes + (BLOCK_SIZE - 1)) / BLOCK_SIZE

/-- The first block after the file. -/
def endBlock (info : FileMetadata) : Nat := info.startBlock.toNat + info.blockCount

/-- Block `b` belongs to the file. -/
def HasBlock (info : FileMetadata) (b : Nat) : Prop := info.startBlock.toNat ≤ b ∧ b < info.endBlock

end FileMetadata

/-- `h` is a handle to the file, wherever its cursor stands. -/
def DiskFileHandle.On (h : DiskFileHandle) (info : FileMetadata) : Prop :=
  h.startBlockIndex = info.startBlock.toNat ∧ h.fileSize = info.sizeBytes

open FileMetadata SwapManager

/-- What files and swap owe each other, for the files ever created. -/
structure LayoutSafe (files : List FileMetadata) (s : Storage) : Prop where
  disjoint : files.Pairwise fun f g => ∀ b, ¬ (f.HasBlock b ∧ g.HasBlock b)
  onDisk : ∀ f ∈ files, ∀ b, f.HasBlock b → b < NUM_DISK_BLOCKS
  noSwap : ∀ f ∈ files, ∀ b, f.HasBlock b → ¬ (swapStartBlock ≤ b ∧ b < NUM_DISK_BLOCKS)
  opened : ∀ filename h, s.vfs.openFile filename = some h → ∃ f ∈ files, h.On f
  write : ∀ f ∈ files, ∀ h : DiskFileHandle, h.On f → ∀ buffer size slot,
    s.swap.allocationMap slot = true → slot < swapSize → ∀ i < BLOCK_SIZE,
      (h.write s.disk buffer size).2.1.data ((swapStartBlock + slot) * BLOCK_SIZE + i) =
        s.disk.data ((swapStartBlock + slot) * BLOCK_SIZE + i)
  swapOut : ∀ f ∈ files, ∀ buffer b, f.HasBlock b → ∀ i < BLOCK_SIZE,
    (s.swap.swapOut s.disk buffer).2.2.data (b * BLOCK_SIZE + i) =
      s.disk.data (b * BLOCK_SIZE + i)

/-! ### What one write touches -/

namespace DiskFileHandle

theorem chunk_le (h : DiskFileHandle) (left : Nat) : h.chunk left ≤ left := Nat.min_le_right _ _

/-- A write loop inside the file changes no byte outside the blocks of the file. -/
theorem writeLoop_outside {first last a : Nat} (hout : a / BLOCK_SIZE < first ∨ last ≤ a / BLOCK_SIZE)
    (hlast : last < 2 ^ 20) (fuel : Nat) (h : DiskFileHandle) (disk : InMemoryDisk)
    (temp buffer : List Byte) (left : Nat) (hstart : h.startBlockIndex = first)
    (hend : first + (h.cursor.toNat + left + (BLOCK_SIZE - 1)) / BLOCK_SIZE ≤ last) :
    (writeLoop fuel h disk temp buffer left).1.data a = disk.data a := by
  induction fuel generalizing h disk temp buffer left with
  | zero => rfl
  | succ fuel ih =>
    rw [writeLoop]
    split_ifs with hleft
    · rfl
    · have hchunk := h.chunk_le left
      have hcursor : (h.cursor + BitVec.ofNat 32 (h.chunk left)).toNat =
          h.cursor.toNat + h.chunk left := by
        simp only [BLOCK_SIZE] at hend
        rw [BitVec.toNat_add, BitVec.toNat_ofNat]
        omega
      have hblock : h.absoluteBlock.toNat = first + h.cursor.toNat / BLOCK_SIZE := by
        simp only [BLOCK_SIZE] at hend ⊢
        rw [absoluteBlock, BitVec.toNat_ofNat, hstart, BLOCK_SIZE, Nat.mod_eq_of_lt (by omega)]
      refine (ih (h.advance (h.chunk left)) _ _ _ _ hstart ?_).trans
        (InMemoryDisk.writeBlock_other _ _ ?_)
      · simp only [advance, hcursor]
        simp only [BLOCK_SIZE] at hend ⊢
        omega
      · rw [hblock]
        simp only [BLOCK_SIZE] at hend hout ⊢
        omega

theorem write_outside {h : DiskFileHandle} {info : FileMetadata} (hon : h.On info)
    (hend : info.endBlock < 2 ^ 20) (disk : InMemoryDisk) (buffer : List Byte) (size : Nat) {a : Nat}
    (hout : ¬ info.HasBlock (a / BLOCK_SIZE)) :
    (h.write disk buffer size).2.1.data a = disk.data a := by
  unfold write
  split_ifs with heof
  · rfl
  · simp only [eof, ge_iff_le, decide_eq_true_eq, not_le] at heof
    have htrunc : h.cursor.toNat + h.truncate size ≤ info.sizeBytes := by
      rw [← hon.2, truncate]
      split_ifs <;> omega
    have hout' : a / BLOCK_SIZE < info.startBlock.toNat ∨ info.endBlock ≤ a / BLOCK_SIZE := by
      simp only [HasBlock] at hout
      omega
    refine writeLoop_outside hout' hend _ h disk _ _ _ hon.1 ?_
    simp only [endBlock, blockCount, BLOCK_SIZE]
    omega

end DiskFileHandle

theorem swapOut_below (swap : SwapManager) (disk : InMemoryDisk) (buffer : List Byte) {a : Nat}
    (h : a / BLOCK_SIZE < swapStartBlock) : (swap.swapOut disk buffer).2.2.data a = disk.data a := by
  unfold SwapManager.swapOut
  cases swap.firstFree with
  | none => rfl
  | some i => exact InMemoryDisk.writeBlock_other _ _ (by omega)

/-! ### Runs -/

namespace Storage

/-- A `createFile` that ends below the swap area, or that the code refuses. -/
def Fits (s : Storage) : Event → Prop
  | .create filename sizeBytes _ =>
    (s.vfs.fileTable filename).isSome = true ∨
    s.vfs.freeBlockPointer.toNat + (sizeBytes + (BLOCK_SIZE - 1)) / BLOCK_SIZE ≤ swapStartBlock ∨
    NUM_DISK_BLOCKS < s.vfs.freeBlockPointer.toNat + StubFileSystem.blocksNeeded sizeBytes
  | _ => True

/-- The bump pointer is past every file ever created and not past the swap area. -/
structure Packed (files : List FileMetadata) (s : Storage) : Prop where
  pointer : s.vfs.freeBlockPointer.toNat ≤ swapStartBlock
  below : ∀ f ∈ files, f.endBlock ≤ s.vfs.freeBlockPointer.toNat
  ordered : files.Pairwise fun f g => f.endBlock ≤ g.startBlock.toNat
  table : ∀ filename info, s.vfs.fileTable filename = some info → info ∈ files

theorem created_snoc (es : List Event) (e : Event) :
    created (es ++ [e]) = created es ++ created [e] := List.filterMap_append

/-- What `createFile` does when it is not refused. -/
theorem createFile_cases (fs : StubFileSystem) (disk : InMemoryDisk) (filename : Name)
    (sizeBytes : Nat) :
    (fs.createFile disk filename sizeBytes = (false, fs)) ∨
    ((fs.fileTable filename).isSome = false ∧
      fs.freeBlockPointer.toNat + StubFileSystem.blocksNeeded sizeBytes ≤ NUM_DISK_BLOCKS ∧
      fs.createFile disk filename sizeBytes =
        (true, ⟨Function.update fs.fileTable filename (some ⟨filename, fs.freeBlockPointer, sizeBytes⟩),
          fs.freeBlockPointer + BitVec.ofNat 32 (StubFileSystem.blocksNeeded sizeBytes)⟩)) := by
  unfold StubFileSystem.createFile
  by_cases hname : (fs.fileTable filename).isSome = true
  · exact .inl (if_pos hname)
  · by_cases hfull : fs.freeBlockPointer.toNat + StubFileSystem.blocksNeeded sizeBytes >
        disk.numBlocks
    · exact .inl (by rw [if_neg hname, if_pos hfull])
    · refine .inr ⟨Bool.eq_false_of_not_eq_true hname, Nat.le_of_not_gt hfull, ?_⟩
      rw [if_neg hname, if_neg hfull]

theorem removeFile_table {fs : StubFileSystem} {filename filename' : Name} {info : FileMetadata}
    (h : (fs.removeFile filename).2.fileTable filename' = some info) :
    fs.fileTable filename' = some info := by
  unfold StubFileSystem.removeFile at h
  split_ifs at h with hnone
  · exact h
  · dsimp only at h
    by_cases heq : filename' = filename
    · subst heq
      rw [Function.update_self] at h
      cases h
    · rwa [Function.update_of_ne heq] at h

theorem removeFile_pointer (fs : StubFileSystem) (filename : Name) :
    (fs.removeFile filename).2.freeBlockPointer = fs.freeBlockPointer := by
  unfold StubFileSystem.removeFile
  split_ifs <;> rfl

theorem packed_create {es : List Event} {s : Storage} {filename : Name} {sizeBytes : Nat}
    (h : Packed (created es) s)
    (hfits : s.Fits (.create filename sizeBytes none)) :
    Packed (created es ++ created [.create filename sizeBytes
        (if (s.vfs.createFile s.disk filename sizeBytes).1 then
          (s.vfs.createFile s.disk filename sizeBytes).2.fileTable filename else none)])
      { s with vfs := (s.vfs.createFile s.disk filename sizeBytes).2 } := by
  rcases createFile_cases s.vfs s.disk filename sizeBytes with hno | ⟨hname, hbound, hyes⟩
  · rw [hno]
    simp only [Bool.false_eq_true, if_false]
    rw [show created [Event.create filename sizeBytes none] = [] from rfl, List.append_nil]
    exact h
  · have hblocks : s.vfs.freeBlockPointer.toNat +
        (sizeBytes + (BLOCK_SIZE - 1)) / BLOCK_SIZE ≤ swapStartBlock := by
      rcases hfits with hsome | hfit | hrefused
      · rw [hname] at hsome; cases hsome
      · exact hfit
      · omega
    have hneeded : StubFileSystem.blocksNeeded sizeBytes =
        (sizeBytes + (BLOCK_SIZE - 1)) / BLOCK_SIZE := by
      simp only [StubFileSystem.blocksNeeded, BLOCK_SIZE, swapStartBlock, NUM_DISK_BLOCKS,
        NUM_SWAP_BLOCKS] at hblocks ⊢
      omega
    let info : FileMetadata := ⟨filename, s.vfs.freeBlockPointer, sizeBytes⟩
    have hpointer : (s.vfs.freeBlockPointer +
        BitVec.ofNat 32 (StubFileSystem.blocksNeeded sizeBytes)).toNat = info.endBlock := by
      rw [BitVec.toNat_add, BitVec.toNat_ofNat, hneeded]
      simp only [endBlock, blockCount, info, BLOCK_SIZE, swapStartBlock, NUM_DISK_BLOCKS,
        NUM_SWAP_BLOCKS] at hblocks ⊢
      omega
    rw [hyes]
    simp only [if_true, Function.update_self]
    rw [show created [Event.create filename sizeBytes (some info)] = [info] from rfl]
    refine ⟨?_, ?_, ?_, ?_⟩
    · exact hpointer.trans_le hblocks
    · intro f hf
      refine le_of_le_of_eq ?_ hpointer.symm
      rcases List.mem_append.1 hf with hold | hnew
      · exact (h.below f hold).trans (Nat.le_add_right _ _)
      · rw [List.mem_singleton.1 hnew]
    · rw [List.pairwise_append]
      refine ⟨h.ordered, List.pairwise_singleton _ _, fun f hf g hg => ?_⟩
      rw [List.mem_singleton.1 hg]
      exact h.below f hf
    · intro filename' info' htable
      by_cases heq : filename' = filename
      · subst heq
        dsimp only at htable
        rw [Function.update_self] at htable
        cases htable
        exact List.mem_append_right _ (List.mem_singleton_self _)
      · dsimp only at htable
        rw [Function.update_of_ne heq] at htable
        exact List.mem_append_left _ (h.table filename' info' htable)

/-- The step lemma: the files stay packed below the swap area. -/
theorem packed_step {es : List Event} {s s' : Storage} {e : Event} (h : Packed (created es) s)
    (hstep : Guarded step Fits s e s') : Packed (created (es ++ [e])) s' := by
  obtain ⟨hstep, hfits⟩ := hstep
  rw [created_snoc]
  cases hstep with
  | create filename sizeBytes hsize => exact packed_create h hfits
  | remove filename =>
    rw [show created [Event.remove filename] = [] from rfl, List.append_nil]
    refine ⟨?_, ?_, h.ordered, fun filename' info hinfo => h.table _ _ (removeFile_table hinfo)⟩
    · exact (congrArg BitVec.toNat (removeFile_pointer _ _)).trans_le h.pointer
    · intro f hf
      exact (h.below f hf).trans_eq (congrArg BitVec.toNat (removeFile_pointer _ _)).symm
  | swapOut buffer =>
    rw [show created [Event.swapOut buffer] = [] from rfl, List.append_nil]
    exact ⟨h.pointer, h.below, h.ordered, h.table⟩
  | swapIn buffer slot =>
    rw [show created [Event.swapIn buffer slot] = [] from rfl, List.append_nil]
    exact ⟨h.pointer, h.below, h.ordered, h.table⟩

theorem packed_init : Packed (created []) init :=
  ⟨Nat.zero_le _, (fun _ hf => nomatch hf), .nil, (fun _ _ h => nomatch h)⟩

theorem Packed.layoutSafe {files : List FileMetadata} {s : Storage} (h : Packed files s) :
    LayoutSafe files s := by
  have hend : ∀ f ∈ files, ∀ b, f.HasBlock b → b < swapStartBlock := fun f hf b hb =>
    hb.2.trans_le ((h.below f hf).trans h.pointer)
  refine ⟨?_, ?_, ?_, ?_, ?_, ?_⟩
  · refine h.ordered.imp fun hle b hb => ?_
    exact absurd (hb.1.2.trans_le (hle.trans hb.2.1)) (lt_irrefl b)
  · intro f hf b hb
    exact (hend f hf b hb).trans_le (Nat.sub_le _ _)
  · intro f hf b hb hswap
    exact absurd (hend f hf b hb) (Nat.not_lt.2 hswap.1)
  · intro filename handle hopen
    cases htable : s.vfs.fileTable filename with
    | none => rw [StubFileSystem.openFile, htable] at hopen; cases hopen
    | some info =>
      rw [StubFileSystem.openFile, htable] at hopen
      cases hopen
      exact ⟨info, h.table filename info htable, rfl, rfl⟩
  · intro f hf handle hon buffer size slot _ hslot i hi
    refine DiskFileHandle.write_outside hon ?_ s.disk buffer size fun hblock => ?_
    · have hle := (h.below f hf).trans h.pointer
      simp only [swapStartBlock, NUM_DISK_BLOCKS, NUM_SWAP_BLOCKS] at hle
      omega
    · have hlt := hend f hf _ hblock
      simp only [swapStartBlock, BLOCK_SIZE, NUM_DISK_BLOCKS, NUM_SWAP_BLOCKS] at hlt hi
      omega
  · intro f hf buffer b hb i hi
    refine swapOut_below s.swap s.disk buffer ?_
    have hlt := hend f hf b hb
    simp only [BLOCK_SIZE] at hi ⊢
    omega

/-- In every run whose accepted `createFile` calls end below the swap area, files and swap never
overlap. -/
theorem layout_safe (es : List Event) (s : Storage) (h : Run (Guarded step Fits) init es s) :
    LayoutSafe (created es) s :=
  have hpacked := h.induct (fun es s => Packed (created es) s) packed_init
    fun _ _ _ _ hinv hstep => packed_step hinv hstep
  hpacked.layoutSafe

/-- A file of one block more than the disk has below the swap area. -/
def bigFile : Event := .create [1] (2049 * BLOCK_SIZE) (some ⟨[1], 0, 2049 * BLOCK_SIZE⟩)

theorem layout_safe_smallFile :
    LayoutSafe (created [.create [1] 5000 (some ⟨[1], 0, 5000⟩)])
      { init with vfs := (init.vfs.createFile init.disk [1] 5000).2 } :=
  layout_safe _ _ (.snoc .nil ⟨.create [1] 5000 (by decide), .inr (.inl (by decide))⟩)

/-- `createFile` lets a file into the swap area. -/
theorem createFile_reaches_swap :
    ¬ ∀ (es : List Event) (s : Storage), Run step init es s → LayoutSafe (created es) s := by
  intro h
  have hrun : Run step init [bigFile] _ :=
    .snoc .nil (step.create [1] (2049 * BLOCK_SIZE) (by decide))
  exact (h _ _ hrun).noSwap ⟨[1], 0, 2049 * BLOCK_SIZE⟩ (List.mem_singleton_self _) 2048
    ⟨by decide, by decide⟩ (by decide)

end Storage

end Rv32umos
