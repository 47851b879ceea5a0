import Rv32umos.Common
import Rv32umos.Lib.Bytes

/-!
# The disk and its swap area

`disk/InMemoryDisk.cpp` and `memory/SwapManager.cpp`. The disk has `NUM_DISK_BLOCKS` blocks; its
last `NUM_SWAP_BLOCKS` are the swap area, handed out by a first-fit bitmap. A buffer
(`std::vector<Byte>`) is a list of bytes.
-/

namespace Rv32umos

/-- `std::copy` of all of `src` into `dst` from position `pos` on. -/
def copyInto (dst : List Byte) (pos : Nat) (src : List Byte) : List Byte :=
  dst.take pos ++ src ++ dst.drop (pos + src.length)

structure InMemoryDisk where
  data : Nat → Byte

namespace InMemoryDisk

def new : InMemoryDisk := ⟨fun _ => 0⟩

def numBlocks (_ : InMemoryDisk) : Nat := NUM_DISK_BLOCKS

/-- `readBlock`: the buffer after the call. -/
def readBlock (disk : InMemoryDisk) (blockIndex : Nat) (buffer : List Byte) : List Byte :=
  if blockIndex ≥ disk.numBlocks then buffer
  else if buffer.length ≠ BLOCK_SIZE then buffer
  else (List.range BLOCK_SIZE).map fun i => disk.data (blockIndex * BLOCK_SIZE + i)

/-- `writeBlock`: the disk after the call. -/
def writeBlock (disk : InMemoryDisk) (blockIndex : Nat) (buffer : List Byte) : InMemoryDisk :=
  if blockIndex ≥ disk.numBlocks then disk
  else if buffer.length ≠ BLOCK_SIZE then disk
  else ⟨Bytes.overlay disk.data (blockIndex * BLOCK_SIZE) BLOCK_SIZE fun i => buffer.getD i 0⟩

/-- A write to one block leaves every other block alone. -/
theorem writeBlock_other (disk : InMemoryDisk) {blockIndex : Nat} (buffer : List Byte) {a : Nat}
    (h : a / BLOCK_SIZE ≠ blockIndex) : (disk.writeBlock blockIndex buffer).data a = disk.data a := by
  unfold writeBlock
  split_ifs
  · rfl
  · rfl
  · dsimp only
    rw [Bytes.overlay_out]
    simp only [BLOCK_SIZE] at h ⊢
    omega

/-- A write to a block is what its bytes are afterwards. -/
theorem writeBlock_same (disk : InMemoryDisk) {blockIndex : Nat} {buffer : List Byte}
    (hblock : blockIndex < disk.numBlocks) (hlength : buffer.length = BLOCK_SIZE) {i : Nat}
    (hi : i < BLOCK_SIZE) :
    (disk.writeBlock blockIndex buffer).data (blockIndex * BLOCK_SIZE + i) = buffer.getD i 0 := by
  unfold writeBlock
  rw [if_neg (Nat.not_le.2 hblock), if_neg (not_not.2 hlength)]
  exact Bytes.overlay_in disk.data (fun i => buffer.getD i 0) hi

theorem readBlock_getD (disk : InMemoryDisk) {blockIndex : Nat} {buffer : List Byte}
    (hblock : blockIndex < disk.numBlocks) (hlength : buffer.length = BLOCK_SIZE) {i : Nat}
    (hi : i < BLOCK_SIZE) :
    (disk.readBlock blockIndex buffer).getD i 0 = disk.data (blockIndex * BLOCK_SIZE + i) := by
  unfold readBlock
  rw [if_neg (Nat.not_le.2 hblock), if_neg (not_not.2 hlength), List.getD_eq_getElem?_getD,
    List.getElem?_map, List.getElem?_range hi]
  rfl

theorem readBlock_length (disk : InMemoryDisk) (blockIndex : Nat) (buffer : List Byte) :
    (disk.readBlock blockIndex buffer).length = buffer.length := by
  unfold readBlock
  split_ifs with h1 h2
  · rfl
  · rfl
  · rw [List.length_map, List.length_range]
    exact (not_not.1 h2).symm

end InMemoryDisk

structure SwapManager where
  allocationMap : Nat → Bool

namespace SwapManager

/-- `swapStartBlock`. -/
abbrev swapStartBlock : Nat := NUM_DISK_BLOCKS - NUM_SWAP_BLOCKS

/-- `swapSize`. -/
abbrev swapSize : Nat := NUM_SWAP_BLOCKS

def new : SwapManager := ⟨fun _ => false⟩

/-- The first slot that is not allocated. -/
def firstFree (swap : SwapManager) : Option Nat :=
  (List.range swapSize).find? fun i => !swap.allocationMap i

/-- `swapOut`: the slot (`none` for -1), the swap manager and the disk after the call. -/
def swapOut (swap : SwapManager) (disk : InMemoryDisk) (buffer : List Byte) :
    Option Nat × SwapManager × InMemoryDisk :=
  match swap.firstFree with
  | none => (none, swap, disk)
  | some i =>
    (some i, ⟨Function.update swap.allocationMap i true⟩, disk.writeBlock (swapStartBlock + i) buffer)

/-- `swapIn`: the buffer and the swap manager after the call. -/
def swapIn (swap : SwapManager) (disk : InMemoryDisk) (buffer : List Byte) (slot : Int) :
    List Byte × SwapManager :=
  if slot < 0 ∨ slot.toNat ≥ swapSize then (buffer, swap)
  else (disk.readBlock (swapStartBlock + slot.toNat) buffer,
    ⟨Function.update swap.allocationMap slot.toNat false⟩)

theorem firstFree_some {swap : SwapManager} {i : Nat} (h : swap.firstFree = some i) :
    i < swapSize ∧ swap.allocationMap i = false := by
  have hmem := List.mem_of_find?_eq_some h
  have hfree := List.find?_some h
  simp only [Bool.not_eq_true'] at hfree
  exact ⟨List.mem_range.1 hmem, hfree⟩

end SwapManager

end Rv32umos
