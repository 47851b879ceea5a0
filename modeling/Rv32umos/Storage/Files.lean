import Rv32umos.Storage.Disk

/-!
# File handles and the file system

`filesystem/DiskFileHandle.cpp`, `filesystem/ConsoleHandle.cpp` and `filesystem/StubFileSystem.cpp`.
A handle carries its own cursor. Sizes are `size_t` (64 bits), the cursor and the free block pointer
are 32 bits wide. The read and write loops move at least one byte per iteration, so the number of
bytes left bounds the number of iterations.
-/

namespace Rv32umos

structure DiskFileHandle where
  startBlockIndex : Nat
  fileSize : Nat
  cursor : Addr
  deriving DecidableEq, Repr

namespace DiskFileHandle

def new (start size : Nat) : DiskFileHandle := ⟨start, size, 0⟩

def eof (h : DiskFileHandle) : Bool := h.cursor.toNat ≥ h.fileSize

/-- The block of the cursor, as the 32-bit `absoluteBlock`. -/
def absoluteBlock (h : DiskFileHandle) : Addr :=
  BitVec.ofNat 32 (h.startBlockIndex + h.cursor.toNat / BLOCK_SIZE)

def offsetInBlock (h : DiskFileHandle) : Nat := h.cursor.toNat % BLOCK_SIZE

/-- The number of bytes of one iteration, with `left` bytes to go. -/
def chunk (h : DiskFileHandle) (left : Nat) : Nat := min (BLOCK_SIZE - h.offsetInBlock) left

/-- `this->cursor += chunk`. -/
def advance (h : DiskFileHandle) (n : Nat) : DiskFileHandle :=
  { h with cursor := h.cursor + BitVec.ofNat 32 n }

/-- The `toRead` or `toWrite` of a call with `size`, after the truncation. -/
def truncate (h : DiskFileHandle) (size : Nat) : Nat :=
  if h.cursor.toNat + size > h.fileSize then h.fileSize - h.cursor.toNat else size

/-- The loop of `read`, with `left` bytes to go: what is read, and the handle. -/
def readLoop (disk : InMemoryDisk) :
    Nat → DiskFileHandle → List Byte → Nat → List Byte × DiskFileHandle
  | 0, h, _, _ => ([], h)
  | fuel + 1, h, temp, left =>
    if left = 0 then ([], h)
    else
      let temp := disk.readBlock h.absoluteBlock.toNat temp
      let part := (temp.drop h.offsetInBlock).take (h.chunk left)
      let (rest, h') := readLoop disk fuel (h.advance (h.chunk left)) temp (left - h.chunk left)
      (part ++ rest, h')

/-- `DiskFileHandle::read`: the count, the buffer and the handle after the call. -/
def read (h : DiskFileHandle) (disk : InMemoryDisk) (buffer : List Byte) (size : Nat) :
    Int × List Byte × DiskFileHandle :=
  if h.eof then (0, buffer, h)
  else
    let toRead := h.truncate size
    let (bytes, h') := readLoop disk toRead h (List.replicate BLOCK_SIZE 0) toRead
    (toRead, bytes, h')

/-- The loop of `write`, with `left` bytes to go: the disk and the handle. -/
def writeLoop : Nat → DiskFileHandle → InMemoryDisk → List Byte → List Byte → Nat →
    InMemoryDisk × DiskFileHandle
  | 0, h, disk, _, _, _ => (disk, h)
  | fuel + 1, h, disk, temp, buffer, left =>
    if left = 0 then (disk, h)
    else
      let temp := disk.readBlock h.absoluteBlock.toNat temp
      let temp := copyInto temp h.offsetInBlock (buffer.take (h.chunk left))
      let disk := disk.writeBlock h.absoluteBlock.toNat temp
      writeLoop fuel (h.advance (h.chunk left)) disk temp (buffer.drop (h.chunk left))
        (left - h.chunk left)

/-- `DiskFileHandle::write`: the count, the disk and the handle after the call. -/
def write (h : DiskFileHandle) (disk : InMemoryDisk) (buffer : List Byte) (size : Nat) :
    Int × InMemoryDisk × DiskFileHandle :=
  if h.eof then (0, disk, h)
  else
    let toWrite := h.truncate size
    let (disk, h') := writeLoop toWrite h disk (List.replicate BLOCK_SIZE 0) buffer toWrite
    (toWrite, disk, h')

end DiskFileHandle

/-- The host's side of the console: the answers `::read(STDIN, ...)` and `::write` will give (the
bytes read, or `none` for -1; the count written), and the bytes passed to `::write` so far, with
their descriptor. -/
structure Console where
  stdin : List (Option (List Byte))
  answers : List Int
  written : List (Int × List Byte)

namespace Console

abbrev STDIN : Int := 0
abbrev STDOUT : Int := 1
abbrev STDERR : Int := 2

/-- `ConsoleHandle::read`: the count, the buffer and the console after the call. The host fills at
most `size` bytes of the buffer. -/
def read (c : Console) (hostFD : Int) (buffer : List Byte) (size : Nat) :
    Int × List Byte × Console :=
  if hostFD = STDIN then
    match c.stdin with
    | [] => (0, buffer, c)
    | none :: rest => (-1, buffer, { c with stdin := rest })
    | some bytes :: rest =>
      let got := bytes.take size
      (got.length, copyInto buffer 0 got, { c with stdin := rest })
  else (-1, buffer, c)

/-- `ConsoleHandle::write`: the count and the console after the call. -/
def write (c : Console) (hostFD : Int) (buffer : List Byte) (size : Nat) : Int × Console :=
  if hostFD = STDOUT ∨ hostFD = STDERR then
    let bytes := buffer.take size
    (c.answers.headD size,
      { c with answers := c.answers.tail, written := c.written ++ [(hostFD, bytes)] })
  else (-1, c)

end Console

/-- `FileHandleInterface*`. -/
inductive FileHandle where
  | console (hostFD : Int)
  | disk (h : DiskFileHandle)
  deriving DecidableEq, Repr

structure FileMetadata where
  name : Name
  startBlock : Addr
  sizeBytes : Nat
  deriving DecidableEq, Repr

structure StubFileSystem where
  fileTable : Name → Option FileMetadata
  freeBlockPointer : BitVec 32

namespace StubFileSystem

def new : StubFileSystem := ⟨fun _ => none, 0⟩

/-- `openImpl`. -/
def openFile (fs : StubFileSystem) (filename : Name) : Option DiskFileHandle :=
  (fs.fileTable filename).map fun info => DiskFileHandle.new info.startBlock.toNat info.sizeBytes

/-- `(sizeBytes + BLOCK_SIZE - 1) / BLOCK_SIZE` in `size_t`. -/
def blocksNeeded (sizeBytes : Nat) : Nat := (sizeBytes + BLOCK_SIZE - 1) % 2 ^ 64 / BLOCK_SIZE

/-- `createFileImpl`: whether it succeeds, and the file system after the call. -/
def createFile (fs : StubFileSystem) (disk : InMemoryDisk) (filename : Name) (sizeBytes : Nat) :
    Bool × StubFileSystem :=
  if (fs.fileTable filename).isSome then (false, fs)
  else if fs.freeBlockPointer.toNat + blocksNeeded sizeBytes > disk.numBlocks then (false, fs)
  else
    let info : FileMetadata :=
      { name := filename, startBlock := fs.freeBlockPointer, sizeBytes }
    (true,
      { fileTable := Function.update fs.fileTable filename (some info)
        freeBlockPointer := fs.freeBlockPointer + BitVec.ofNat 32 (blocksNeeded sizeBytes) })

/-- `removeFileImpl`. -/
def removeFile (fs : StubFileSystem) (filename : Name) : Bool × StubFileSystem :=
  if (fs.fileTable filename).isNone then (false, fs)
  else (true, { fs with fileTable := Function.update fs.fileTable filename none })

end StubFileSystem

end Rv32umos
