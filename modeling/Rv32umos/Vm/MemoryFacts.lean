import Rv32umos.Vm.Machine
import Rv32umos.Lib.Bytes

/-!
# What a memory access reads and writes

`Memory.load` and `Memory.store` in closed form (`load_eq`, `store_eq`), and the case analysis of
`MMU.translate` that everything above it uses: an access is `Allowed` by the page table, and then
it is translated to `physical`, or it raises a fault and changes nothing else (`translate_eq`).
-/

namespace Rv32umos

open Bytes

namespace Memory

theorem loadFrom_eq (m : Memory) (index n i : Nat) (hn : 0 < n) :
    m.loadFrom index n i (assemble (fun j => m.byte (index + j)) i) =
      if index + i + n ≤ MEMORY_SIZE then
        .ok (assemble (fun j => m.byte (index + j)) (i + n))
      else .error (.undefined "memory index") := by
  induction n generalizing i with
  | zero => omega
  | succ n ih =>
    rw [loadFrom]
    unfold get
    by_cases hi : index + i < MEMORY_SIZE
    · rw [if_pos hi]
      show m.loadFrom index n (i + 1) (assemble (fun j => m.byte (index + j)) (i + 1)) = _
      rcases Nat.eq_zero_or_pos n with rfl | hpos
      · rw [loadFrom, if_pos (by omega)]
      · rw [ih (i + 1) hpos]
        simp only [Nat.add_assoc, Nat.add_comm 1]
    · rw [if_neg hi, if_neg (by omega)]
      rfl

theorem load_eq (m : Memory) (addr : Addr) {size : Nat} (hsize : 0 < size) :
    m.load addr size =
      if addr.toNat + size ≤ MEMORY_SIZE then
        .ok (assemble (fun i => m.byte (addr.toNat + i)) size)
      else if addr.toNat < MEMORY_SIZE then .error (.undefined "memory index")
      else .error .assertion := by
  unfold load
  have h := loadFrom_eq m addr.toNat size 0 hsize
  by_cases ha : addr.toNat < MEMORY_SIZE
  · rw [if_neg (by simp only [MEMORY_BASE]; omega), Nat.sub_zero]
    rw [assemble, Nat.zero_add] at h
    refine h.trans ?_
    simp only [Nat.add_zero, ha, if_true]
  · rw [if_pos (by simp only [MEMORY_BASE]; omega), if_neg (by omega), if_neg ha]

theorem load_of_fits (m : Memory) {addr : Addr} {size : Nat} (hsize : 0 < size)
    (hfits : addr.toNat + size ≤ MEMORY_SIZE) :
    m.load addr size = .ok (assemble (fun i => m.byte (addr.toNat + i)) size) := by
  rw [load_eq m addr hsize, if_pos hfits]

theorem load_ok {m : Memory} {addr : Addr} {size : Nat} {value : Word} (hsize : 0 < size)
    (h : m.load addr size = .ok value) :
    addr.toNat + size ≤ MEMORY_SIZE ∧ value = assemble (fun i => m.byte (addr.toNat + i)) size := by
  by_cases hfits : addr.toNat + size ≤ MEMORY_SIZE
  · rw [load_of_fits m hsize hfits] at h
    exact ⟨hfits, (Except.ok.inj h).symm⟩
  · rw [load_eq m addr hsize, if_neg hfits] at h
    split_ifs at h

theorem storeFrom_eq (m : Memory) (index : Nat) (value : Word) (n i : Nat) (hn : 0 < n) :
    storeFrom index value n i ⟨overlay m.byte index i (byteAt value)⟩ =
      if index + i + n ≤ MEMORY_SIZE then
        .ok ⟨overlay m.byte index (i + n) (byteAt value)⟩
      else .error (.undefined "memory index") := by
  induction n generalizing i with
  | zero => omega
  | succ n ih =>
    have hbyte : ((value >>> (i * 8)).setWidth 8 : Byte) = byteAt value i := by
      apply BitVec.eq_of_getLsbD_eq
      intro j hj
      simp [byteAt, hj, Nat.mul_comm]
    rw [storeFrom]
    unfold put
    by_cases hi : index + i < MEMORY_SIZE
    · rw [if_pos hi]
      show storeFrom index value n (i + 1) ⟨_⟩ = _
      rw [hbyte, update_overlay]
      rcases Nat.eq_zero_or_pos n with rfl | hpos
      · rw [storeFrom, if_pos (by omega)]
      · rw [ih (i + 1) hpos]
        simp only [Nat.add_assoc, Nat.add_comm 1]
    · rw [if_neg hi, if_neg (by omega)]
      rfl

theorem store_eq (m : Memory) (addr : Addr) {size : Nat} (hsize : 0 < size) (value : Word) :
    m.store addr size value =
      if addr.toNat + size ≤ MEMORY_SIZE then
        .ok ⟨overlay m.byte addr.toNat size (byteAt value)⟩
      else if addr.toNat < MEMORY_SIZE then .error (.undefined "memory index")
      else .error .assertion := by
  unfold store
  have h := storeFrom_eq m addr.toNat value size 0 hsize
  by_cases ha : addr.toNat < MEMORY_SIZE
  · rw [if_neg (by simp only [MEMORY_BASE]; omega), Nat.sub_zero]
    rw [overlay_zero, Nat.zero_add] at h
    simp only [Nat.add_zero] at h
    rw [h]
    simp only [ha, if_true]
  · rw [if_pos (by simp only [MEMORY_BASE]; omega), if_neg (by omega), if_neg ha]

theorem store_of_fits (m : Memory) {addr : Addr} {size : Nat} (hsize : 0 < size) (value : Word)
    (hfits : addr.toNat + size ≤ MEMORY_SIZE) :
    m.store addr size value = .ok ⟨overlay m.byte addr.toNat size (byteAt value)⟩ := by
  rw [store_eq m addr hsize, if_pos hfits]

theorem store_ok {m m' : Memory} {addr : Addr} {size : Nat} {value : Word} (hsize : 0 < size)
    (h : m.store addr size value = .ok m') :
    addr.toNat + size ≤ MEMORY_SIZE ∧ m' = ⟨overlay m.byte addr.toNat size (byteAt value)⟩ := by
  by_cases hfits : addr.toNat + size ≤ MEMORY_SIZE
  · rw [store_of_fits m hsize value hfits] at h
    exact ⟨hfits, (Except.ok.inj h).symm⟩
  · rw [store_eq m addr hsize, if_neg hfits] at h
    split_ifs at h

end Memory

/-- The permission bit that an access needs. -/
def PTE.allows (pte : PTE) : Access → Bool
  | .load => pte.canRead
  | .store => pte.canWrite
  | .fetch => pte.canExecute

/-- The entry after a translation that used it. -/
def PTE.touch (pte : PTE) (a : Access) : PTE :=
  { pte with referenced := true, dirty := pte.dirty || a.isWrite }

@[simp] theorem PTE.touch_allows (pte : PTE) (a b : Access) :
    (pte.touch a).allows b = pte.allows b := by
  cases b <;> rfl

namespace MMU

/-- The entry of the page of `v`. -/
def walk (mmu : MMU) (v : Addr) : Option PTE :=
  mmu.currentTable.bind fun table => table.find? (v >>> 12)

def accessible (mmu : MMU) (a : Access) (v : Addr) : Bool :=
  !mmu.vmEnabled || (mmu.walk v).any fun pte => pte.valid && pte.allows a

/-- The address `v` is translated to when it is accessible. -/
def physical (mmu : MMU) (v : Addr) : Addr :=
  if mmu.vmEnabled then (((mmu.walk v).getD {}).ppn <<< 12) ||| (v &&& 0xFFF#32) else v

/-- The MMU after a successful translation of `v`. -/
def touch (mmu : MMU) (a : Access) (v : Addr) : MMU :=
  if mmu.vmEnabled then
    { mmu with currentTable := mmu.currentTable.map fun table =>
        table.set (v >>> 12) ((table.entry (v >>> 12)).touch a) }
  else mmu

theorem translate_eq (mmu : MMU) (a : Access) (v : Addr) :
    mmu.translate v a.isWrite a.isExec =
      if mmu.accessible a v then (mmu.physical v, mmu.touch a v) else mmu.raise v := by
  unfold translate accessible physical touch walk
  rcases mmu with ⟨memory, table, vmEnabled, fault, faultAddr⟩
  cases vmEnabled with
  | false => rfl
  | true =>
    cases table with
    | none => rfl
    | some table =>
      rcases Option.eq_none_or_eq_some (table.find? (v >>> 12)) with hpte | ⟨pte, hpte⟩
      · simp [hpte]
      · rcases pte with ⟨ppn, valid, referenced, dirty, swapped, canRead, canWrite, canExecute⟩
        simp only [hpte, Option.bind_some, Option.map_some, PageTable.entry, Option.any_some]
        cases valid <;> cases a <;> cases canRead <;> cases canWrite <;> cases canExecute <;> rfl

variable (mmu : MMU) (a b : Access) (v w : Addr)

@[simp] theorem touch_memory : (mmu.touch a v).memory = mmu.memory := by
  unfold touch; split <;> rfl

@[simp] theorem touch_vmEnabled : (mmu.touch a v).vmEnabled = mmu.vmEnabled := by
  unfold touch; split <;> rfl

@[simp] theorem touch_fault : (mmu.touch a v).fault = mmu.fault := by
  unfold touch; split <;> rfl

@[simp] theorem touch_faultAddr : (mmu.touch a v).faultAddr = mmu.faultAddr := by
  unfold touch; split <;> rfl

variable {mmu a v}

/-- A translation changes an entry in its referenced and dirty bits only. -/
theorem touch_entry (h : mmu.accessible a v = true) (w : Addr) :
    (mmu.touch a v).walk w =
      if mmu.vmEnabled ∧ w >>> 12 = v >>> 12 then (mmu.walk w).map (·.touch a)
      else mmu.walk w := by
  unfold touch
  cases hvm : mmu.vmEnabled with
  | false => simp
  | true =>
    simp only [accessible, hvm, Bool.not_true, Bool.false_or, walk] at h
    cases htable : mmu.currentTable with
    | none => simp [htable] at h
    | some table =>
      simp only [htable, Option.bind_some] at h
      simp only [walk, htable, if_true, Option.map_some, Option.bind_some, true_and,
        PageTable.find?_set]
      by_cases hw : w >>> 12 = v >>> 12
      · rw [if_pos hw, if_pos hw, hw]
        cases hpte : table.find? (v >>> 12) with
        | none => simp [hpte] at h
        | some pte => rw [PageTable.entry_of_find? hpte, Option.map_some]
      · rw [if_neg hw, if_neg hw]

theorem touch_accessible (h : mmu.accessible a v = true) (b : Access) (w : Addr) :
    (mmu.touch a v).accessible b w = mmu.accessible b w := by
  rw [accessible, accessible, touch_entry h, touch_vmEnabled]
  split_ifs
  · cases mmu.walk w <;> simp [PTE.touch]
    cases b <;> rfl
  · rfl

theorem touch_physical (h : mmu.accessible a v = true) (w : Addr) :
    (mmu.touch a v).physical w = mmu.physical w := by
  rw [physical, physical, touch_entry h, touch_vmEnabled]
  split_ifs with hvm hw
  · cases mmu.walk w <;> rfl
  · rfl
  · rfl

end MMU

/-! ### Addresses of one page -/

theorem toNat_shiftRight12 (v : Addr) : (v >>> 12).toNat = v.toNat / 4096 := by
  rw [BitVec.toNat_ushiftRight, Nat.shiftRight_eq_div_pow]

theorem toNat_and_fff (v : Addr) : (v &&& 0xFFF#32).toNat = v.toNat % 4096 := by
  rw [BitVec.toNat_and]
  exact Nat.and_two_pow_sub_one_eq_mod v.toNat 12

theorem page_add {v : Addr} {i : Nat} (h : v.toNat % 4096 + i < 4096) :
    (v + BitVec.ofNat 32 i) >>> 12 = v >>> 12 := by
  have hv := v.isLt
  apply BitVec.eq_of_toNat_eq
  rw [toNat_shiftRight12, toNat_shiftRight12, BitVec.toNat_add, BitVec.toNat_ofNat]
  omega

theorem toNat_frame_or (ppn v : Addr) :
    (ppn <<< 12 ||| v &&& 0xFFF#32).toNat = ppn.toNat * 4096 % 2 ^ 32 + v.toNat % 4096 := by
  rw [BitVec.toNat_or, toNat_and_fff, BitVec.toNat_shiftLeft, Nat.shiftLeft_eq]
  have hdvd : ppn.toNat * 2 ^ 12 % 2 ^ 32 = 2 ^ 12 * (ppn.toNat * 2 ^ 12 % 2 ^ 32 / 2 ^ 12) := by
    omega
  have hlt : v.toNat % 4096 < 2 ^ 12 := by omega
  rw [hdvd, ← Nat.two_pow_add_eq_or_of_lt hlt]
  omega

namespace MMU

variable {mmu : MMU} {v : Addr}

theorem walk_add {i : Nat} (h : v.toNat % 4096 + i < 4096) :
    mmu.walk (v + BitVec.ofNat 32 i) = mmu.walk v := by
  rw [walk, walk, page_add h]

theorem accessible_add {i : Nat} (h : v.toNat % 4096 + i < 4096) (a : Access) :
    mmu.accessible a (v + BitVec.ofNat 32 i) = mmu.accessible a v := by
  rw [accessible, accessible, walk_add h]

/-- Inside one page, translation keeps distances. -/
theorem physical_add {i : Nat} (h : v.toNat % 4096 + i < 4096) :
    (mmu.physical (v + BitVec.ofNat 32 i)).toNat = (mmu.physical v).toNat + i := by
  have hv := v.isLt
  have hsum : (v + BitVec.ofNat 32 i).toNat = v.toNat + i := by
    rw [BitVec.toNat_add, BitVec.toNat_ofNat]
    omega
  rw [physical, physical, walk_add h]
  split
  · rw [toNat_frame_or, toNat_frame_or, hsum]
    omega
  · exact hsum

end MMU

/-! ### The machine's accesses -/

namespace Machine

/-- The machine after an access to `v` that the page table does not allow. -/
def pageFault (cpu : Machine) (v : Addr) : Machine :=
  { cpu.setTrap .PageFault v with mmu := cpu.mmu.clearFault }

/-- The machine after a successful translation of `v`. -/
def touch (cpu : Machine) (a : Access) (v : Addr) : Machine :=
  { cpu with mmu := cpu.mmu.touch a v }

variable {cpu : Machine} (hfault : cpu.mmu.fault = false)
include hfault

theorem latchFault_of_clear : cpu.latchFault = cpu := by
  rw [latchFault, MMU.hasFault, hfault]
  rfl

theorem loadVirtualMemory_eq (v : Addr) (size : Nat) :
    cpu.loadVirtualMemory v size =
      if cpu.mmu.accessible .load v then
        (cpu.mmu.memory.load (cpu.mmu.physical v) size).map fun val => (val, cpu.touch .load v)
      else .ok (0, cpu.pageFault v) := by
  have htr := MMU.translate_eq cpu.mmu .load v
  simp only [Access.isWrite, Access.isExec] at htr
  simp only [loadVirtualMemory, MMU.loadVirtualMemory, htr]
  split
  · simp only [MMU.touch_fault, hfault, MMU.touch_memory]
    cases cpu.mmu.memory.load (cpu.mmu.physical v) size with
    | error e => rfl
    | ok val =>
      show Except.ok (val, latchFault _) = _
      rw [latchFault_of_clear (by simp [hfault])]
      rfl
  · rfl

theorem fetch_eq :
    cpu.fetch =
      if cpu.mmu.accessible .fetch cpu.pc then
        (cpu.mmu.memory.load (cpu.mmu.physical cpu.pc) 4).map fun val =>
          (val, cpu.touch .fetch cpu.pc)
      else .ok (0, cpu.pageFault cpu.pc) := by
  have htr := MMU.translate_eq cpu.mmu .fetch cpu.pc
  simp only [Access.isWrite, Access.isExec] at htr
  simp only [fetch, MMU.fetch, htr]
  split
  · simp only [MMU.touch_fault, hfault, MMU.touch_memory]
    cases cpu.mmu.memory.load (cpu.mmu.physical cpu.pc) 4 with
    | error e => rfl
    | ok val =>
      show Except.ok (val, latchFault _) = _
      rw [latchFault_of_clear (by simp [hfault])]
      rfl
  · rfl

theorem storeVirtualMemory_eq (v : Addr) (size : Nat) (value : Word) :
    cpu.storeVirtualMemory v size value =
      if cpu.mmu.accessible .store v then
        (cpu.mmu.memory.store (cpu.mmu.physical v) size value).map fun memory =>
          { cpu with mmu := { cpu.mmu.touch .store v with memory } }
      else .ok (cpu.pageFault v) := by
  have htr := MMU.translate_eq cpu.mmu .store v
  simp only [Access.isWrite, Access.isExec] at htr
  simp only [storeVirtualMemory, MMU.storeVirtualMemory, htr]
  split
  · simp only [MMU.touch_fault, hfault, MMU.touch_memory]
    cases cpu.mmu.memory.store (cpu.mmu.physical v) size value with
    | error e => rfl
    | ok memory =>
      show Except.ok (latchFault _) = _
      rw [latchFault_of_clear (by simp)]
      rfl
  · rfl

end Machine

end Rv32umos
