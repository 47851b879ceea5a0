import Rv32umos.Storage.Files

/-!
# What a transfer moves

The loops of `DiskFileHandle` go block by block, the write loop with a read of each block that it
changes in part. Over a file that lies on the disk they are one slice of the disk (`readLoop_eq`)
and one overlay (`writeLoop_eq`), from the cursor on.
-/

namespace Rv32umos

open Bytes

theorem InMemoryDisk.readBlock_eq (disk : InMemoryDisk) {blockIndex : Nat} {buffer : List Byte}
    (hblock : blockIndex < disk.numBlocks) (hlength : buffer.length = BLOCK_SIZE) :
    disk.readBlock blockIndex buffer = slice disk.data (blockIndex * BLOCK_SIZE) BLOCK_SIZE := by
  unfold readBlock
  rw [if_neg (Nat.not_le.2 hblock), if_neg (not_not.2 hlength)]
  rfl

theorem InMemoryDisk.writeBlock_eq (disk : InMemoryDisk) {blockIndex : Nat} {buffer : List Byte}
    (hblock : blockIndex < disk.numBlocks) (hlength : buffer.length = BLOCK_SIZE) :
    (disk.writeBlock blockIndex buffer).data =
      overlay disk.data (blockIndex * BLOCK_SIZE) BLOCK_SIZE fun i => buffer.getD i 0 := by
  unfold writeBlock
  rw [if_neg (Nat.not_le.2 hblock), if_neg (not_not.2 hlength)]

theorem copyInto_length {dst src : List Byte} {pos : Nat} (h : pos + src.length ≤ dst.length) :
    (copyInto dst pos src).length = dst.length := by
  rw [copyInto, List.length_append, List.length_append, List.length_take, List.length_drop]
  omega

theorem copyInto_getD {dst src : List Byte} {pos : Nat} (h : pos + src.length ≤ dst.length) (i : Nat) :
    (copyInto dst pos src).getD i 0 =
      if pos ≤ i ∧ i < pos + src.length then src.getD (i - pos) 0 else dst.getD i 0 := by
  have htake : (dst.take pos).length = pos := by
    rw [List.length_take]
    omega
  unfold copyInto
  rw [List.append_assoc]
  simp only [List.getD_eq_getElem?_getD]
  by_cases hlo : i < pos
  · rw [List.getElem?_append_left (by omega), List.getElem?_take_of_lt hlo, if_neg (by omega)]
  · rw [List.getElem?_append_right (by omega), htake]
    by_cases hhi : i < pos + src.length
    · rw [List.getElem?_append_left (by omega), if_pos ⟨by omega, hhi⟩]
    · rw [List.getElem?_append_right (by omega), List.getElem?_drop, if_neg (by omega)]
      congr 2
      omega

namespace DiskFileHandle

variable {h : DiskFileHandle} {left : Nat}

/-- The byte of the disk that the cursor stands on. -/
def position (h : DiskFileHandle) : Nat := h.startBlockIndex * BLOCK_SIZE + h.cursor.toNat

/-- `left` bytes from the cursor on lie on the disk. -/
def Reaches (h : DiskFileHandle) (left : Nat) : Prop :=
  h.position + left ≤ NUM_DISK_BLOCKS * BLOCK_SIZE

theorem Reaches.block (hreach : h.Reaches left) (hleft : 0 < left) :
    h.absoluteBlock.toNat < NUM_DISK_BLOCKS ∧
      h.absoluteBlock.toNat * BLOCK_SIZE + h.offsetInBlock = h.position := by
  unfold Reaches position at hreach
  unfold position absoluteBlock offsetInBlock
  rw [BitVec.toNat_ofNat]
  simp only [NUM_DISK_BLOCKS, BLOCK_SIZE] at hreach ⊢
  omega

theorem Reaches.advance (hreach : h.Reaches left) :
    (h.advance (h.chunk left)).position = h.position + h.chunk left ∧
      (h.advance (h.chunk left)).Reaches (left - h.chunk left) := by
  have hle : h.chunk left ≤ left := Nat.min_le_right _ _
  have hposition : (h.advance (h.chunk left)).position = h.position + h.chunk left := by
    unfold Reaches position at hreach
    unfold position DiskFileHandle.advance
    dsimp only
    rw [BitVec.toNat_add, BitVec.toNat_ofNat]
    simp only [NUM_DISK_BLOCKS, BLOCK_SIZE] at hreach ⊢
    omega
  refine ⟨hposition, ?_⟩
  unfold Reaches at hreach ⊢
  omega

theorem chunk_pos (hleft : 0 < left) : 0 < h.chunk left ∧ h.offsetInBlock + h.chunk left ≤ BLOCK_SIZE ∧
    h.chunk left ≤ left := by
  have hoffset : h.offsetInBlock < BLOCK_SIZE := Nat.mod_lt _ (by decide)
  unfold chunk
  omega

theorem advance_advance (h : DiskFileHandle) (a b : Nat) : (h.advance a).advance b = h.advance (a + b) := by
  unfold advance
  dsimp only
  rw [BitVec.add_assoc, BitVec.ofNat_add]

theorem readLoop_eq (disk : InMemoryDisk) {fuel : Nat} {temp : List Byte} (hreach : h.Reaches left)
    (hfuel : left ≤ fuel) (htemp : temp.length = BLOCK_SIZE) :
    readLoop disk fuel h temp left = (slice disk.data h.position left, h.advance left) := by
  induction fuel generalizing h temp left with
  | zero =>
    obtain rfl : left = 0 := by omega
    unfold advance
    rw [BitVec.add_zero]
    rfl
  | succ fuel ih =>
    unfold readLoop
    split_ifs with hzero
    · subst hzero
      unfold advance
      rw [BitVec.add_zero]
      rfl
    · obtain ⟨hblock, hposition⟩ := hreach.block (Nat.pos_of_ne_zero hzero)
      obtain ⟨hpos, hfits, hle⟩ := chunk_pos (h := h) (Nat.pos_of_ne_zero hzero)
      obtain ⟨hnext, hreach'⟩ := hreach.advance
      rw [disk.readBlock_eq hblock htemp]
      have hpart : ((slice disk.data (h.absoluteBlock.toNat * BLOCK_SIZE) BLOCK_SIZE).drop
          h.offsetInBlock).take (h.chunk left) = slice disk.data h.position (h.chunk left) := by
        rw [slice_drop _ _ (by omega), slice_take _ _ (by omega), hposition]
      dsimp only
      rw [ih hreach' (by omega) (length_slice _ _ _), hpart, hnext, advance_advance,
        ← slice_append, Nat.add_sub_cancel' hle]

/-- A block read, overwritten in part and written back is one overlay of the part. -/
theorem modifyBlock_eq (disk : InMemoryDisk) {temp part : List Byte} {blockIndex offset : Nat}
    (hblock : blockIndex < NUM_DISK_BLOCKS) (htemp : temp.length = BLOCK_SIZE)
    (hpart : offset + part.length ≤ BLOCK_SIZE) :
    (disk.writeBlock blockIndex (copyInto (disk.readBlock blockIndex temp) offset part)).data =
      overlay disk.data (blockIndex * BLOCK_SIZE + offset) part.length fun i => part.getD i 0 := by
  rw [disk.readBlock_eq hblock htemp]
  have hlength : offset + part.length ≤
      (slice disk.data (blockIndex * BLOCK_SIZE) BLOCK_SIZE).length := by
    rw [length_slice]
    exact hpart
  rw [disk.writeBlock_eq hblock ((copyInto_length hlength).trans (length_slice _ _ _))]
  funext a
  unfold overlay
  dsimp only
  by_cases ha : blockIndex * BLOCK_SIZE ≤ a ∧ a < blockIndex * BLOCK_SIZE + BLOCK_SIZE
  · rw [if_pos ha, copyInto_getD hlength]
    by_cases hin : blockIndex * BLOCK_SIZE + offset ≤ a ∧ a < blockIndex * BLOCK_SIZE + offset + part.length
    · rw [if_pos hin, if_pos (by omega)]
      congr 1
      omega
    · rw [if_neg hin, if_neg (by omega), slice_getD _ _ (by omega)]
      congr 1
      omega
  · have hout : ¬ (blockIndex * BLOCK_SIZE + offset ≤ a ∧
        a < blockIndex * BLOCK_SIZE + offset + part.length) := by
      rintro ⟨hlo, hhi⟩
      refine ha ⟨(Nat.le_add_right _ _).trans hlo, hhi.trans_le ?_⟩
      rw [Nat.add_assoc]
      exact Nat.add_le_add_left hpart _
    rw [if_neg ha, if_neg hout]

theorem writeLoop_eq (disk : InMemoryDisk) {fuel : Nat} {temp : List Byte} (buffer : List Byte)
    (hreach : h.Reaches left) (hfuel : left ≤ fuel) (htemp : temp.length = BLOCK_SIZE)
    (hbuffer : left ≤ buffer.length) :
    (writeLoop fuel h disk temp buffer left).1.data =
        overlay disk.data h.position left (fun i => buffer.getD i 0) ∧
      (writeLoop fuel h disk temp buffer left).2 = h.advance left := by
  induction fuel generalizing h disk temp buffer left with
  | zero =>
    obtain rfl : left = 0 := by omega
    unfold advance
    rw [overlay_zero, BitVec.add_zero]
    exact ⟨rfl, rfl⟩
  | succ fuel ih =>
    unfold writeLoop
    split_ifs with hzero
    · subst hzero
      unfold advance
      rw [overlay_zero, BitVec.add_zero]
      exact ⟨rfl, rfl⟩
    · obtain ⟨hblock, hposition⟩ := hreach.block (Nat.pos_of_ne_zero hzero)
      obtain ⟨hpos, hfits, hle⟩ := chunk_pos (h := h) (Nat.pos_of_ne_zero hzero)
      obtain ⟨hnext, hreach'⟩ := hreach.advance
      have hpart : (buffer.take (h.chunk left)).length = h.chunk left := by
        rw [List.length_take]
        omega
      have hdata := modifyBlock_eq disk hblock htemp (hpart.symm ▸ hfits)
      rw [hpart, hposition] at hdata
      have htemp' : (copyInto (disk.readBlock h.absoluteBlock.toNat temp) h.offsetInBlock
          (buffer.take (h.chunk left))).length = BLOCK_SIZE := by
        rw [copyInto_length, disk.readBlock_eq hblock htemp, length_slice]
        rw [disk.readBlock_eq hblock htemp, length_slice, hpart]
        exact hfits
      dsimp only
      have hbuffer' : left - h.chunk left ≤ (buffer.drop (h.chunk left)).length := by
        rw [List.length_drop]
        omega
      obtain ⟨hrest, hhandle⟩ := ih (disk.writeBlock h.absoluteBlock.toNat _)
        (buffer.drop (h.chunk left)) hreach' (by omega) htemp' hbuffer'
      refine ⟨?_, hhandle.trans ?_⟩
      · rw [hrest, hdata, hnext]
        have hfirst : overlay disk.data h.position (h.chunk left)
            (fun i => (buffer.take (h.chunk left)).getD i 0) =
            overlay disk.data h.position (h.chunk left) fun i => buffer.getD i 0 := by
          refine overlay_congr _ fun i hi => ?_
          simp only [List.getD_eq_getElem?_getD]
          rw [List.getElem?_take_of_lt hi]
        have hsecond : (fun i => (buffer.drop (h.chunk left)).getD i 0) =
            fun i => buffer.getD (h.chunk left + i) 0 := by
          funext i
          simp only [List.getD_eq_getElem?_getD]
          rw [List.getElem?_drop]
        rw [hfirst, hsecond, overlay_append _ _ _ _ fun i => buffer.getD i 0, Nat.add_sub_cancel' hle]
      · rw [advance_advance, Nat.add_sub_cancel' hle]

/-- The number of bytes that a transfer of `size` bytes moves. -/
def transferred (h : DiskFileHandle) (size : Nat) : Nat := min size (h.fileSize - h.cursor.toNat)

theorem truncate_eq (heof : h.eof = false) (size : Nat) : h.truncate size = h.transferred size := by
  have hlt : h.cursor.toNat < h.fileSize := by simpa [eof] using heof
  unfold truncate transferred
  split_ifs <;> omega

theorem transferred_of_eof (heof : h.eof = true) (size : Nat) : h.transferred size = 0 := by
  have hle : h.fileSize ≤ h.cursor.toNat := by simpa [eof] using heof
  unfold transferred
  omega

theorem advance_zero (h : DiskFileHandle) : h.advance 0 = h := by
  unfold advance
  rw [BitVec.add_zero]

/-- A transfer stays within the file. -/
theorem Reaches.transferred (hreach : h.Reaches (h.fileSize - h.cursor.toNat)) (size : Nat) :
    h.Reaches (h.transferred size) :=
  (Nat.add_le_add_left (Nat.min_le_right _ _) _).trans hreach

theorem read_eq (hreach : h.Reaches (h.fileSize - h.cursor.toNat)) (disk : InMemoryDisk)
    (buffer : List Byte) (size : Nat) :
    (h.read disk buffer size).1 = h.transferred size ∧
      (h.read disk buffer size).2.1.take (h.transferred size) =
        slice disk.data h.position (h.transferred size) ∧
      (h.read disk buffer size).2.2 = h.advance (h.transferred size) := by
  unfold read
  cases heof : h.eof with
  | true =>
    rw [if_pos rfl, transferred_of_eof heof, advance_zero]
    exact ⟨rfl, rfl, rfl⟩
  | false =>
    rw [if_neg Bool.false_ne_true, truncate_eq heof]
    dsimp only
    rw [readLoop_eq disk (hreach.transferred size) le_rfl List.length_replicate]
    exact ⟨rfl, List.take_of_length_le (length_slice _ _ _).le, rfl⟩

theorem write_eq (hreach : h.Reaches (h.fileSize - h.cursor.toNat)) (disk : InMemoryDisk)
    {buffer : List Byte} {size : Nat} (hbuffer : size ≤ buffer.length) :
    (h.write disk buffer size).1 = h.transferred size ∧
      (h.write disk buffer size).2.1.data =
        overlay disk.data h.position (h.transferred size) (fun i => buffer.getD i 0) ∧
      (h.write disk buffer size).2.2 = h.advance (h.transferred size) := by
  unfold write
  cases heof : h.eof with
  | true =>
    rw [if_pos rfl, transferred_of_eof heof, advance_zero, overlay_zero]
    exact ⟨rfl, rfl, rfl⟩
  | false =>
    rw [if_neg Bool.false_ne_true, truncate_eq heof]
    have hle : h.transferred size ≤ buffer.length := (Nat.min_le_left _ _).trans hbuffer
    obtain ⟨hdata, hhandle⟩ := writeLoop_eq disk buffer (hreach.transferred size) le_rfl
      List.length_replicate hle
    exact ⟨rfl, hdata, hhandle⟩

end DiskFileHandle

end Rv32umos
