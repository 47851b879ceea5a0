import Rv32umos.Common

/-!
# Physical memory, page table entries and the MMU

`rv32vm/Memory.cpp`, `memory/PTE.hpp` and `rv32vm/MMU.cpp`. The bytes of RAM are a function from
the index; the source's `assert` and the vector's bounds are checked where the source reads or
writes, so an access that runs over the end of RAM is `Halt.undefined`, not a wrapped index.
A `PageTable` (an `unordered_map<Addr, PTE>`) is an association list with distinct keys.
-/

namespace Rv32umos

/-- `std::vector<Byte> memory` of `MEMORY_SIZE` bytes. -/
structure Memory where
  byte : Nat → Byte

namespace Memory

def zero : Memory := ⟨fun _ => 0⟩

/-- `this->memory[index]`. -/
def get (m : Memory) (index : Nat) : Except Halt Byte :=
  if index < MEMORY_SIZE then .ok (m.byte index) else .error (.undefined "memory index")

/-- `this->memory[index] = b`. -/
def put (m : Memory) (index : Nat) (b : Byte) : Except Halt Memory :=
  if index < MEMORY_SIZE then .ok ⟨Function.update m.byte index b⟩
  else .error (.undefined "memory index")

/-- The loop of `Memory::load`, from byte `i` on, `n` more bytes to go. -/
def loadFrom (m : Memory) (index : Nat) : Nat → Nat → Word → Except Halt Word
  | 0, _, value => .ok value
  | n + 1, i, value => do
    let b ← m.get (index + i)
    loadFrom m index n (i + 1) (value ||| (b.setWidth 32 <<< (i * 8)))

def load (m : Memory) (addr : Addr) (size : Nat) : Except Halt Word :=
  if addr.toNat < MEMORY_BASE ∨ addr.toNat ≥ MEMORY_BASE + MEMORY_SIZE then .error .assertion
  else m.loadFrom (addr.toNat - MEMORY_BASE) size 0 0

/-- The loop of `Memory::store`, from byte `i` on, `n` more bytes to go. -/
def storeFrom (index : Nat) (value : Word) : Nat → Nat → Memory → Except Halt Memory
  | 0, _, m => .ok m
  | n + 1, i, m => do
    let m ← m.put (index + i) ((value >>> (i * 8)).setWidth 8)
    storeFrom index value n (i + 1) m

def store (m : Memory) (addr : Addr) (size : Nat) (value : Word) : Except Halt Memory :=
  if addr.toNat < MEMORY_BASE ∨ addr.toNat ≥ MEMORY_BASE + MEMORY_SIZE then .error .assertion
  else storeFrom (addr.toNat - MEMORY_BASE) value size 0 m

end Memory

structure PTE where
  ppn : Addr := 0
  valid : Bool := false
  referenced : Bool := false
  dirty : Bool := false
  swapped : Bool := false
  canRead : Bool := false
  canWrite : Bool := false
  canExecute : Bool := false
  deriving DecidableEq, Repr

abbrev PF_X : Word := 1
abbrev PF_W : Word := 2
abbrev PF_R : Word := 4

/-- `PTE::setPTEFlagsFromElf`. -/
def PTE.setPTEFlagsFromElf (pte : PTE) (flags : Word) : PTE :=
  { pte with
    canRead := flags &&& PF_R != 0
    canWrite := flags &&& PF_W != 0
    canExecute := flags &&& PF_X != 0 }

/-- `std::unordered_map<Addr, PTE>`. -/
structure PageTable where
  map : AList (fun _ : Addr => PTE)

namespace PageTable

def empty : PageTable := ⟨∅⟩

/-- `table.find(vpn)`, which `count` and `at` stand on. -/
def find? (table : PageTable) (vpn : Addr) : Option PTE := table.map.lookup vpn

/-- `table[vpn] = pte`. -/
def set (table : PageTable) (vpn : Addr) (pte : PTE) : PageTable := ⟨table.map.insert vpn pte⟩

/-- `table[vpn]` as a read: the entry, or the default entry that `operator[]` inserts. -/
def entry (table : PageTable) (vpn : Addr) : PTE := (table.find? vpn).getD {}

/-- The entries, in the order of an iteration. -/
def toList (table : PageTable) : List (Addr × PTE) := table.map.entries.map fun e => (e.1, e.2)

@[simp] theorem find?_empty (vpn : Addr) : empty.find? vpn = none := AList.lookup_empty vpn

@[simp] theorem find?_set_self (table : PageTable) (vpn : Addr) (pte : PTE) :
    (table.set vpn pte).find? vpn = some pte := AList.lookup_insert table.map

theorem find?_set_ne (table : PageTable) {vpn vpn' : Addr} (pte : PTE) (h : vpn' ≠ vpn) :
    (table.set vpn pte).find? vpn' = table.find? vpn' := AList.lookup_insert_ne h

theorem find?_set (table : PageTable) (vpn vpn' : Addr) (pte : PTE) :
    (table.set vpn pte).find? vpn' = if vpn' = vpn then some pte else table.find? vpn' := by
  split_ifs with h
  · rw [h, find?_set_self]
  · rw [find?_set_ne table pte h]

theorem entry_set (table : PageTable) (vpn vpn' : Addr) (pte : PTE) :
    (table.set vpn pte).entry vpn' = if vpn' = vpn then pte else table.entry vpn' := by
  rw [entry, find?_set]
  split_ifs <;> rfl

theorem entry_of_find? {table : PageTable} {vpn : Addr} {pte : PTE}
    (h : table.find? vpn = some pte) : table.entry vpn = pte := by
  rw [entry, h]
  rfl

theorem find?_of_valid {table : PageTable} {vpn : Addr} (h : (table.entry vpn).valid = true) :
    table.find? vpn = some (table.entry vpn) := by
  unfold entry at h ⊢
  cases hfind : table.find? vpn with
  | none => simp [hfind] at h
  | some pte => rfl

theorem mem_toList {table : PageTable} {vpn : Addr} {pte : PTE} :
    (vpn, pte) ∈ table.toList ↔ table.find? vpn = some pte := by
  rw [toList, find?, ← Option.mem_def, AList.mem_lookup_iff, List.mem_map]
  constructor
  · rintro ⟨⟨_, _⟩, hmem, heq⟩
    cases heq
    exact hmem
  · intro hmem
    exact ⟨_, hmem, rfl⟩

theorem toList_keys_nodup (table : PageTable) : (table.toList.map Prod.fst).Nodup := by
  have h := table.map.nodupKeys
  rw [toList, List.map_map]
  exact h

end PageTable

/-- The kinds of access, as the pair `(isWrite, isExec)` given to `MMU::translate`. -/
inductive Access where
  | load
  | store
  | fetch
  deriving DecidableEq, Repr

def Access.isWrite : Access → Bool
  | .store => true
  | _ => false

def Access.isExec : Access → Bool
  | .fetch => true
  | _ => false

structure MMU where
  memory : Memory
  currentTable : Option PageTable
  vmEnabled : Bool
  fault : Bool
  faultAddr : Addr

namespace MMU

def raise (mmu : MMU) (vaddr : Addr) : Addr × MMU :=
  (0, { mmu with fault := true, faultAddr := vaddr })

/-- `MMU::translate`: the physical address, or a fault recorded in the MMU. -/
def translate (mmu : MMU) (vaddr : Addr) (isWrite isExec : Bool) : Addr × MMU :=
  if !mmu.vmEnabled then (vaddr, mmu)
  else
    let vpn := vaddr >>> 12
    let offset := vaddr &&& 0xFFF#32
    match mmu.currentTable with
    | none => mmu.raise vaddr
    | some table =>
      match table.find? vpn with
      | none => mmu.raise vaddr
      | some pte =>
        if !pte.valid then mmu.raise vaddr
        else if isExec && !pte.canExecute then mmu.raise vaddr
        else if isWrite && !pte.canWrite then mmu.raise vaddr
        else if !isWrite && !isExec && !pte.canRead then mmu.raise vaddr
        else
          let pte' := { pte with referenced := true, dirty := pte.dirty || isWrite }
          ((pte.ppn <<< 12) ||| offset, { mmu with currentTable := some (table.set vpn pte') })

def loadVirtualMemory (mmu : MMU) (vaddr : Addr) (size : Nat) : Except Halt (Word × MMU) :=
  let (paddr, mmu) := mmu.translate vaddr false false
  if mmu.fault then .ok (0, mmu)
  else do
    let val ← mmu.memory.load paddr size
    .ok (val, mmu)

def storeVirtualMemory (mmu : MMU) (vaddr : Addr) (size : Nat) (value : Word) : Except Halt MMU :=
  let (paddr, mmu) := mmu.translate vaddr true false
  if mmu.fault then .ok mmu
  else do
    let memory ← mmu.memory.store paddr size value
    .ok { mmu with memory }

def fetch (mmu : MMU) (vaddr : Addr) : Except Halt (Word × MMU) :=
  let (paddr, mmu) := mmu.translate vaddr false true
  if mmu.fault then .ok (0, mmu)
  else do
    let val ← mmu.memory.load paddr 4
    .ok (val, mmu)

def hasFault (mmu : MMU) : Bool := mmu.fault

def getFaultAddr (mmu : MMU) : Addr := mmu.faultAddr

def clearFault (mmu : MMU) : MMU := { mmu with fault := false, faultAddr := 0 }

end MMU

end Rv32umos
