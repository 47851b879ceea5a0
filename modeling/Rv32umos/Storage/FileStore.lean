import Rv32umos.Storage.Layout
import Rv32umos.Storage.Transfer
import Rv32umos.Lib.NamedArrays

/-!
# The file store is a store of named byte arrays

`FileStore` is the file system with the handles it has given out, without swap. `Refines` relates it
to a store of named arrays in which a file of `n` bytes takes `blocks n` of the blocks of the disk:
each file is the slice of the disk from its first block on, no two files share a block, and the disk
is blank from the bump pointer on. Every operation keeps the relation, and returns what the store of
arrays returns (`refines_step`), except a `createFile` whose size is so close to 2^64 that rounding
up to blocks wraps: it succeeds, and reserves nothing.
-/

namespace Rv32umos

open Bytes FileMetadata
open Transition
open NamedArrays (Store Op Result)

/-- The file system, and the handles that are open. -/
structure FileStore where
  disk : InMemoryDisk
  vfs : StubFileSystem
  handles : Nat → Option DiskFileHandle
  next : Nat

namespace FileStore

abbrev FileOp := Op Name Byte

def init : FileStore := ⟨.new, .new, fun _ => none, 0⟩

def setHandle (s : FileStore) (i : Nat) (h : Option DiskFileHandle) : FileStore :=
  { s with handles := Function.update s.handles i h }

def exec (s : FileStore) : FileOp → Result Byte × FileStore
  | .create filename sizeBytes =>
    let (success, vfs) := s.vfs.createFile s.disk filename sizeBytes
    (.created success, { s with vfs })
  | .open filename =>
    match s.vfs.openFile filename with
    | none => (.opened none, s)
    | some h => (.opened s.next, { s.setHandle s.next h with next := s.next + 1 })
  | .read i size =>
    match s.handles i with
    | none => (.invalid, s)
    | some h =>
      let (count, buffer, h) := h.read s.disk (List.replicate size 0) size
      (.got count (buffer.take count.toNat), s.setHandle i h)
  | .write i buffer size =>
    match s.handles i with
    | none => (.invalid, s)
    | some h =>
      let (count, disk, h) := h.write s.disk buffer size
      (.put count, { s.setHandle i h with disk })
  | .close i =>
    match s.handles i with
    | none => (.invalid, s)
    | some _ => (.closed, s.setHandle i none)

/-- What the types of the arguments promise: a `size_t` is below 2^64, and a vector is shorter than
2^63 and holds the bytes to write. -/
def Typed : FileOp → Prop
  | .create _ sizeBytes => sizeBytes < 2 ^ 64
  | .read _ size => size < 2 ^ 63
  | .write _ buffer size => size ≤ buffer.length ∧ buffer.length < 2 ^ 63
  | _ => True

instance : DecidablePred Typed
  | .create _ sizeBytes => inferInstanceAs (Decidable (sizeBytes < 2 ^ 64))
  | .read _ size => inferInstanceAs (Decidable (size < 2 ^ 63))
  | .write _ buffer size => inferInstanceAs (Decidable (size ≤ buffer.length ∧ buffer.length < 2 ^ 63))
  | .open _ | .close _ => inferInstanceAs (Decidable True)

/-- An operation with its result. -/
def step (s : FileStore) (e : FileOp × Result Byte) (s' : FileStore) : Prop :=
  Typed e.1 ∧ s.exec e.1 = (e.2, s')

/-- The blocks that a file takes. -/
def blocks (sizeBytes : Nat) : Nat := (sizeBytes + (BLOCK_SIZE - 1)) / BLOCK_SIZE

/-- The store of arrays that the file store is to be. -/
abbrev arrays (a : Store Name Byte) (e : FileOp × Result Byte) (a' : Store Name Byte) : Prop :=
  a.step 0 blocks NUM_DISK_BLOCKS e a'

/-- A `createFile` whose size can be rounded up to blocks, or whose name is taken. -/
def RoundsUp (s : FileStore) (e : FileOp × Result Byte) : Prop :=
  match e.1 with
  | .create filename sizeBytes =>
    sizeBytes + (BLOCK_SIZE - 1) < 2 ^ 64 ∨ (s.vfs.fileTable filename).isSome = true
  | _ => True

instance (s : FileStore) : DecidablePred s.RoundsUp
  | (.create filename sizeBytes, _) =>
    inferInstanceAs (Decidable (sizeBytes + (BLOCK_SIZE - 1) < 2 ^ 64 ∨
      (s.vfs.fileTable filename).isSome = true))
  | (.open _, _) | (.read _ _, _) | (.write _ _ _, _) | (.close _, _) =>
    inferInstanceAs (Decidable True)

/-! ### The relation -/

/-- The bytes of a file. -/
def content (disk : InMemoryDisk) (info : FileMetadata) : List Byte :=
  slice disk.data (info.startBlock.toNat * BLOCK_SIZE) info.sizeBytes

/-- Handle `h` stands for cursor `cursor` in file `name`. -/
structure Opens (table : Name → Option FileMetadata) (h : DiskFileHandle) (name : Name) (cursor : Nat) :
    Prop where
  file : ∃ info, table name = some info ∧ h.On info ∧ cursor ≤ info.sizeBytes
  cursor : h.cursor.toNat = cursor

structure Refines (s : FileStore) (a : Store Name Byte) : Prop where
  pointer : s.vfs.freeBlockPointer.toNat = a.used
  room : a.used ≤ NUM_DISK_BLOCKS
  next : s.next = a.next
  array : ∀ name, a.array name = (s.vfs.fileTable name).map (content s.disk)
  below : ∀ name info, s.vfs.fileTable name = some info → info.endBlock ≤ a.used
  disjoint : ∀ name name' info info', s.vfs.fileTable name = some info →
    s.vfs.fileTable name' = some info' → name ≠ name' →
    info.endBlock ≤ info'.startBlock.toNat ∨ info'.endBlock ≤ info.startBlock.toNat
  blank : ∀ i, a.used * BLOCK_SIZE ≤ i → s.disk.data i = 0
  handle : ∀ i, (s.handles i = none ∧ a.handle i = none) ∨
    ∃ h name cursor, s.handles i = some h ∧ a.handle i = some (name, cursor) ∧
      Opens s.vfs.fileTable h name cursor

theorem refines_init : Refines init .empty where
  pointer := rfl
  room := Nat.zero_le _
  next := rfl
  array _ := rfl
  below _ _ h := by cases h
  disjoint _ _ _ _ h := by cases h
  blank _ _ := rfl
  handle _ := .inl ⟨rfl, rfl⟩

variable {s s' : FileStore} {a a' : Store Name Byte} {name : Name} {info : FileMetadata}

/-- The bytes of a file lie in its blocks. -/
theorem size_le_blocks (info : FileMetadata) :
    info.startBlock.toNat * BLOCK_SIZE + info.sizeBytes ≤ info.endBlock * BLOCK_SIZE := by
  unfold endBlock blockCount
  simp only [BLOCK_SIZE]
  omega

theorem Refines.file (h : Refines s a) (hinfo : s.vfs.fileTable name = some info) :
    a.array name = some (content s.disk info) := by
  rw [h.array, hinfo]
  rfl

/-- An open handle, on both sides. -/
theorem Refines.at (h : Refines s a) {i : Nat} {handle : DiskFileHandle} (hopen : s.handles i = some handle) :
    ∃ name cursor info, a.handle i = some (name, cursor) ∧ s.vfs.fileTable name = some info ∧
      handle.On info ∧ handle.cursor.toNat = cursor ∧ cursor ≤ info.sizeBytes ∧
      a.at? i = some (name, content s.disk info, cursor) := by
  rcases h.handle i with ⟨hnone, -⟩ | ⟨handle', name, cursor, hopen', hcursor, hopens⟩
  · rw [hopen] at hnone
    cases hnone
  · cases hopen.symm.trans hopen'
    obtain ⟨info, hinfo, hon, hle⟩ := hopens.file
    refine ⟨name, cursor, info, hcursor, hinfo, hon, hopens.cursor, hle, ?_⟩
    unfold Store.at?
    rw [hcursor]
    simp only [Option.bind_eq_bind, Option.bind_some]
    rw [h.file hinfo]
    rfl

theorem Refines.closed (h : Refines s a) {i : Nat} (hclosed : s.handles i = none) :
    a.handle i = none ∧ a.at? i = none := by
  rcases h.handle i with ⟨-, hnone⟩ | ⟨handle, name, cursor, hopen, -⟩
  · unfold Store.at?
    rw [hnone]
    exact ⟨rfl, rfl⟩
  · rw [hclosed] at hopen
    cases hopen

/-! ### Operations -/

theorem Refines.setHandle (h : Refines s a) (i : Nat) {handle : Option DiskFileHandle}
    {cursor : Option (Name × Nat)} (hboth : (handle = none ∧ cursor = none) ∨
      ∃ h name c, handle = some h ∧ cursor = some (name, c) ∧ Opens s.vfs.fileTable h name c) :
    Refines (s.setHandle i handle) { a with handle := Function.update a.handle i cursor } where
  pointer := h.pointer
  room := h.room
  next := h.next
  array := h.array
  below := h.below
  disjoint := h.disjoint
  blank := h.blank
  handle j := by
    unfold FileStore.setHandle
    dsimp only
    by_cases hj : j = i
    · subst hj
      rw [Function.update_self, Function.update_self]
      exact hboth
    · rw [Function.update_of_ne hj, Function.update_of_ne hj]
      exact h.handle j

/-- A new file, behind all others. -/
theorem Refines.create (h : Refines s a) {sizeBytes : Nat}
    (hnew : s.vfs.fileTable name = none) (hroom : a.used + blocks sizeBytes ≤ NUM_DISK_BLOCKS) :
    Refines
      { s with vfs :=
        { fileTable := Function.update s.vfs.fileTable name (some ⟨name, s.vfs.freeBlockPointer, sizeBytes⟩)
          freeBlockPointer := s.vfs.freeBlockPointer + BitVec.ofNat 32 (blocks sizeBytes) } }
      { a with
        array := Function.update a.array name (some (List.replicate sizeBytes 0))
        used := a.used + blocks sizeBytes } := by
  let info : FileMetadata := ⟨name, s.vfs.freeBlockPointer, sizeBytes⟩
  have hend : info.endBlock = a.used + blocks sizeBytes := by
    show s.vfs.freeBlockPointer.toNat + blocks sizeBytes = _
    rw [h.pointer]
  have hpointer : (s.vfs.freeBlockPointer + BitVec.ofNat 32 (blocks sizeBytes)).toNat =
      a.used + blocks sizeBytes := by
    rw [BitVec.toNat_add, BitVec.toNat_ofNat, h.pointer]
    simp only [NUM_DISK_BLOCKS] at hroom
    omega
  have htable : ∀ {name' : Name} {info' : FileMetadata},
      Function.update s.vfs.fileTable name (some info) name' = some info' →
      (name' = name ∧ info' = info) ∨ (name' ≠ name ∧ s.vfs.fileTable name' = some info') := by
    intro name' info' hinfo
    by_cases hname : name' = name
    · rw [hname, Function.update_self] at hinfo
      exact .inl ⟨hname, (Option.some.inj hinfo).symm⟩
    · rw [Function.update_of_ne hname] at hinfo
      exact .inr ⟨hname, hinfo⟩
  refine ⟨hpointer, hroom, h.next, fun name' => ?_, fun name' info' hinfo => ?_,
    fun name₁ name₂ info₁ info₂ hinfo₁ hinfo₂ hne => ?_, fun i hi => ?_, fun i => ?_⟩
  · dsimp only
    by_cases hname : name' = name
    · rw [hname, Function.update_self, Function.update_self, Option.map_some]
      -- the disk is blank behind the pointer
      refine congrArg some ?_
      have hzero : ∀ i < sizeBytes, s.disk.data (info.startBlock.toNat * BLOCK_SIZE + i) = 0 := by
        intro i _
        apply h.blank
        rw [show info.startBlock.toNat = a.used from h.pointer]
        exact Nat.le_add_right _ _
      rw [content, slice_eq_replicate hzero]
    · rw [Function.update_of_ne hname, Function.update_of_ne hname]
      exact h.array name'
  · rcases htable hinfo with ⟨-, rfl⟩ | ⟨-, hold⟩
    · exact hend.le
    · exact (h.below name' info' hold).trans (Nat.le_add_right _ _)
  · rcases htable hinfo₁ with ⟨rfl, rfl⟩ | ⟨-, hold₁⟩
    · rcases htable hinfo₂ with ⟨heq, -⟩ | ⟨-, hold₂⟩
      · exact absurd heq.symm hne
      · exact .inr ((h.below name₂ info₂ hold₂).trans_eq h.pointer.symm)
    · rcases htable hinfo₂ with ⟨rfl, rfl⟩ | ⟨-, hold₂⟩
      · exact .inl ((h.below name₁ info₁ hold₁).trans_eq h.pointer.symm)
      · exact h.disjoint name₁ name₂ info₁ info₂ hold₁ hold₂ hne
  · refine h.blank i (le_trans ?_ hi)
    exact Nat.mul_le_mul_right _ (Nat.le_add_right _ _)
  · rcases h.handle i with hnone | ⟨handle, name', cursor, hopen, hcursor, ⟨info', hinfo, hon⟩, hat⟩
    · exact .inl hnone
    · refine .inr ⟨handle, name', cursor, hopen, hcursor, ⟨info', ?_, hon⟩, hat⟩
      have hne : name' ≠ name := by
        rintro rfl
        rw [hnew] at hinfo
        cases hinfo
      exact (Function.update_of_ne hne _ _).trans hinfo

theorem createFile_step (h : Refines s a) {filename : Name} {sizeBytes : Nat}
    (hsize : sizeBytes < 2 ^ 64)
    (hround : sizeBytes + (BLOCK_SIZE - 1) < 2 ^ 64 ∨ (s.vfs.fileTable filename).isSome = true) :
    (s.exec (.create filename sizeBytes)).1 =
        (a.exec 0 blocks NUM_DISK_BLOCKS (.create filename sizeBytes)).1 ∧
      Refines (s.exec (.create filename sizeBytes)).2
        (a.exec 0 blocks NUM_DISK_BLOCKS (.create filename sizeBytes)).2 := by
  have harray : (a.array filename).isSome = (s.vfs.fileTable filename).isSome := by
    rw [h.array, Option.isSome_map]
  unfold FileStore.exec Store.exec StubFileSystem.createFile
  dsimp only
  rw [harray]
  by_cases hname : (s.vfs.fileTable filename).isSome = true
  · rw [if_pos hname, if_pos (.inl hname)]
    exact ⟨rfl, h⟩
  · have hneeded : StubFileSystem.blocksNeeded sizeBytes = blocks sizeBytes := by
      have hfits := hround.resolve_right hname
      unfold StubFileSystem.blocksNeeded blocks
      simp only [BLOCK_SIZE] at hfits ⊢
      omega
    rw [if_neg hname, hneeded, h.pointer]
    by_cases hfull : a.used + blocks sizeBytes > NUM_DISK_BLOCKS
    · rw [if_pos (show a.used + blocks sizeBytes > s.disk.numBlocks from hfull), if_pos (.inr hfull)]
      exact ⟨rfl, h⟩
    · rw [if_neg (show ¬ a.used + blocks sizeBytes > s.disk.numBlocks from hfull), if_neg]
      · refine ⟨rfl, h.create ?_ (Nat.le_of_not_gt hfull)⟩
        simpa using hname
      · rintro (hsome | hgt)
        · exact hname hsome
        · exact hfull hgt

theorem open_step (h : Refines s a) (filename : Name) :
    (s.exec (.open filename)).1 = (a.exec 0 blocks NUM_DISK_BLOCKS (.open filename)).1 ∧
      Refines (s.exec (.open filename)).2 (a.exec 0 blocks NUM_DISK_BLOCKS (.open filename)).2 := by
  have harray : (a.array filename).isSome = (s.vfs.fileTable filename).isSome := by
    rw [h.array, Option.isSome_map]
  unfold FileStore.exec Store.exec StubFileSystem.openFile
  dsimp only
  rw [harray]
  cases hinfo : s.vfs.fileTable filename with
  | none => exact ⟨rfl, h⟩
  | some info =>
    rw [Option.map_some, Option.isSome_some, if_pos rfl]
    have hopens : Opens s.vfs.fileTable (.new info.startBlock.toNat info.sizeBytes) filename 0 :=
      ⟨⟨info, hinfo, ⟨rfl, rfl⟩, Nat.zero_le _⟩, rfl⟩
    have hset := h.setHandle s.next (.inr ⟨_, _, _, rfl, rfl, hopens⟩)
    rw [← h.next]
    exact ⟨rfl, hset.pointer, hset.room, rfl, hset.array, hset.below, hset.disjoint, hset.blank,
      hset.handle⟩

theorem close_step (h : Refines s a) (i : Nat) :
    (s.exec (.close i)).1 = (a.exec 0 blocks NUM_DISK_BLOCKS (.close i)).1 ∧
      Refines (s.exec (.close i)).2 (a.exec 0 blocks NUM_DISK_BLOCKS (.close i)).2 := by
  unfold FileStore.exec Store.exec
  dsimp only
  cases hopen : s.handles i with
  | none =>
    rw [(h.closed hopen).1]
    exact ⟨rfl, h⟩
  | some handle =>
    obtain ⟨name, cursor, info, hcursor, -⟩ := h.at hopen
    rw [hcursor]
    exact ⟨rfl, h.setHandle i (.inl ⟨rfl, rfl⟩)⟩

section Transfers

variable {i : Nat} {handle : DiskFileHandle} {cursor : Nat}

/-- A transfer through an open handle stays on the disk, and moves the cursor on within the file. -/
theorem Refines.transfer (h : Refines s a) (hinfo : s.vfs.fileTable name = some info)
    (hon : handle.On info) (hcursor : handle.cursor.toNat = cursor) (hle : cursor ≤ info.sizeBytes)
    (size : Nat) :
    handle.Reaches (handle.fileSize - handle.cursor.toNat) ∧
      handle.position = info.startBlock.toNat * BLOCK_SIZE + cursor ∧
      handle.transferred size = min size (info.sizeBytes - cursor) ∧
      Opens s.vfs.fileTable (handle.advance (handle.transferred size)) name
        (cursor + min size (info.sizeBytes - cursor)) := by
  have hbytes := size_le_blocks info
  have hblocks : info.endBlock * BLOCK_SIZE ≤ NUM_DISK_BLOCKS * BLOCK_SIZE :=
    Nat.mul_le_mul_right _ ((h.below name info hinfo).trans h.room)
  have hposition : handle.position = info.startBlock.toNat * BLOCK_SIZE + cursor := by
    unfold DiskFileHandle.position
    rw [hon.1, hcursor]
  have hcount : handle.transferred size = min size (info.sizeBytes - cursor) := by
    unfold DiskFileHandle.transferred
    rw [hon.2, hcursor]
  have hmin : min size (info.sizeBytes - cursor) ≤ info.sizeBytes - cursor := Nat.min_le_right _ _
  refine ⟨?_, hposition, hcount, ⟨info, hinfo, hon, by omega⟩, ?_⟩
  · have hleft : cursor + (info.sizeBytes - cursor) = info.sizeBytes := Nat.add_sub_cancel' hle
    unfold DiskFileHandle.Reaches
    rw [hposition, hon.2, hcursor, Nat.add_assoc, hleft]
    exact hbytes.trans hblocks
  · rw [hcount]
    unfold DiskFileHandle.advance
    dsimp only
    rw [BitVec.toNat_add, BitVec.toNat_ofNat, hcursor]
    simp only [NUM_DISK_BLOCKS, BLOCK_SIZE] at hblocks hbytes
    omega

theorem read_step (h : Refines s a) (i size : Nat) :
    (s.exec (.read i size)).1 = (a.exec 0 blocks NUM_DISK_BLOCKS (.read i size)).1 ∧
      Refines (s.exec (.read i size)).2 (a.exec 0 blocks NUM_DISK_BLOCKS (.read i size)).2 := by
  unfold FileStore.exec Store.exec
  dsimp only
  cases hopen : s.handles i with
  | none =>
    rw [(h.closed hopen).2]
    exact ⟨rfl, h⟩
  | some handle =>
    obtain ⟨name, cursor, info, -, hinfo, hon, hcursor, hle, hat⟩ := h.at hopen
    obtain ⟨hreach, hposition, hcount, hopens⟩ := h.transfer hinfo hon hcursor hle size
    obtain ⟨hread, hbytes, hhandle⟩ := handle.read_eq hreach s.disk (List.replicate size 0) size
    have hmin : min size (info.sizeBytes - cursor) ≤ info.sizeBytes - cursor := Nat.min_le_right _ _
    rw [hat]
    dsimp only
    rw [hread, Int.toNat_natCast, hbytes, hhandle, hcount, hposition, content, length_slice,
      slice_drop _ _ hle, slice_take _ _ hmin]
    rw [hcount] at hopens
    exact ⟨rfl, h.setHandle i (.inr ⟨_, _, _, rfl, rfl, hopens⟩)⟩

/-- A write changes the bytes of its file from the cursor on, and no others. -/
theorem Refines.overlay (h : Refines s a) (hinfo : s.vfs.fileTable name = some info) {count : Nat}
    (hcount : cursor + count ≤ info.sizeBytes) {disk : InMemoryDisk} {buffer : List Byte}
    (hbuffer : count ≤ buffer.length)
    (hdisk : disk.data = Bytes.overlay s.disk.data (info.startBlock.toNat * BLOCK_SIZE + cursor) count
      fun i => buffer.getD i 0) :
    Refines { s with disk }
      { a with
        array := Function.update a.array name
          (some (Store.splice (content s.disk info) cursor (buffer.take count))) } := by
  have hbytes := size_le_blocks info
  have hout : ∀ x, x < info.startBlock.toNat * BLOCK_SIZE ∨ info.endBlock * BLOCK_SIZE ≤ x →
      disk.data x = s.disk.data x := by
    intro x hx
    rw [hdisk]
    refine overlay_outside _ _ (Nat.le_add_right _ _) (le_trans ?_ hbytes) hx
    rw [Nat.add_assoc]
    exact Nat.add_le_add_left hcount _
  refine ⟨h.pointer, h.room, h.next, fun name' => ?_, h.below, h.disjoint, fun x hx => ?_, h.handle⟩
  · dsimp only
    by_cases hname : name' = name
    · subst hname
      rw [Function.update_self, hinfo, Option.map_some]
      refine congrArg some ?_
      have hlength : (buffer.take count).length = count := by
        rw [List.length_take]
        omega
      unfold Store.splice content
      rw [hdisk, slice_overlay _ _ _ hcount, slice_take _ _ (by omega), hlength,
        slice_drop _ _ hcount, take_eq_slice _ hbuffer]
    · rw [Function.update_of_ne hname, h.array]
      cases hinfo' : s.vfs.fileTable name' with
      | none => rfl
      | some info' =>
        rw [Option.map_some, Option.map_some]
        refine congrArg some (slice_congr fun x hx => (hout _ ?_).symm)
        have hbytes' := size_le_blocks info'
        rcases h.disjoint name' name info' info hinfo' hinfo hname with hdisjoint | hdisjoint
        · have hmul := Nat.mul_le_mul_right BLOCK_SIZE hdisjoint
          exact .inl ((Nat.add_lt_add_left hx _).trans_le (hbytes'.trans hmul))
        · have hmul := Nat.mul_le_mul_right BLOCK_SIZE hdisjoint
          exact .inr (hmul.trans (Nat.le_add_right _ _))
  · rw [hout]
    · exact h.blank x hx
    · have hmul := Nat.mul_le_mul_right BLOCK_SIZE (h.below name info hinfo)
      exact .inr (hmul.trans hx)

theorem write_step (h : Refines s a) (i : Nat) {buffer : List Byte} {size : Nat}
    (hbuffer : size ≤ buffer.length) :
    (s.exec (.write i buffer size)).1 = (a.exec 0 blocks NUM_DISK_BLOCKS (.write i buffer size)).1 ∧
      Refines (s.exec (.write i buffer size)).2
        (a.exec 0 blocks NUM_DISK_BLOCKS (.write i buffer size)).2 := by
  unfold FileStore.exec Store.exec
  dsimp only
  cases hopen : s.handles i with
  | none =>
    rw [(h.closed hopen).2]
    exact ⟨rfl, h⟩
  | some handle =>
    obtain ⟨name, cursor, info, -, hinfo, hon, hcursor, hle, hat⟩ := h.at hopen
    obtain ⟨hreach, hposition, hcount, hopens⟩ := h.transfer hinfo hon hcursor hle size
    obtain ⟨hwritten, hdata, hhandle⟩ := handle.write_eq hreach s.disk hbuffer
    have hmin : min size (info.sizeBytes - cursor) ≤ info.sizeBytes - cursor := Nat.min_le_right _ _
    have hsize : min size (info.sizeBytes - cursor) ≤ size := Nat.min_le_left _ _
    rw [hcount, hposition] at hdata
    have hwrite := h.overlay hinfo (by omega) (hsize.trans hbuffer) hdata
    rw [hat]
    dsimp only
    rw [hwritten, hhandle, hcount, content, length_slice]
    rw [hcount] at hopens
    exact ⟨rfl, hwrite.setHandle i (.inr ⟨_, _, _, rfl, rfl, hopens⟩)⟩

end Transfers

/-! ### Runs -/

/-- Every operation is matched by that of the store of arrays, with the same result. -/
theorem refines_step {e : FileOp × Result Byte} (h : Refines s a)
    (hstep : Guarded step RoundsUp s e s') : ∃ a', arrays a e a' ∧ Refines s' a' := by
  obtain ⟨⟨htyped, hexec⟩, hround⟩ := hstep
  obtain ⟨op, result⟩ := e
  have hmatch : (s.exec op).1 = (a.exec 0 blocks NUM_DISK_BLOCKS op).1 ∧
      Refines (s.exec op).2 (a.exec 0 blocks NUM_DISK_BLOCKS op).2 := by
    cases op with
    | create filename sizeBytes => exact createFile_step h htyped hround
    | «open» filename => exact open_step h filename
    | read i size => exact read_step h i size
    | write i buffer size => exact write_step h i htyped.1
    | close i => exact close_step h i
  dsimp only at hexec
  rw [hexec] at hmatch
  exact ⟨_, Prod.ext hmatch.1.symm rfl, hmatch.2⟩

theorem step_exec (s : FileStore) {op : FileOp} {result : Result Byte} (htyped : Typed op)
    (hresult : (s.exec op).1 = result) : step s (op, result) (s.exec op).2 :=
  ⟨htyped, Prod.ext hresult rfl⟩

end FileStore

end Rv32umos
