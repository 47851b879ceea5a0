import Rv32umos.Kernel.PagingFacts

/-!
# One access to user memory

What a load, a store or a fetch through the MMU does to the kernel, with the page table read where
it is kept, in the process: the access is allowed by the entry of its page, and then it touches that
entry and RAM, or it leaves a page fault in the machine and nothing else
(`loadVirtualMemory_eq`, `storeVirtualMemory_eq`, `fetchAt_eq`).
-/

namespace Rv32umos

open Bytes

/-- The first physical byte of an address in the page of an entry. -/
def PTE.paddr (e : PTE) (v : Addr) : Addr := e.ppn <<< 12 ||| (v &&& 0xFFF#32)

theorem PTE.paddr_toNat {e : PTE} {ppn : Nat} (hlt : ppn < NUM_FRAMES) (hppn : e.ppn.toNat = ppn)
    (v : Addr) : (e.paddr v).toNat = ppn * 4096 + v.toNat % 4096 := by
  rw [PTE.paddr, toNat_frame_or, hppn]
  simp only [NUM_FRAMES, MEMORY_SIZE, PHYSICAL_RAM_KB, KERNEL_PAGE_SIZE] at hlt
  omega

namespace Kernel

variable {k : Kernel} {pid : Pid}

/-- The kernel after a translation of `v` has been used. -/
def touched (k : Kernel) (pid : Pid) (a : Access) (v : Addr) : Kernel :=
  k.setPTE pid (v >>> 12) ((k.pte pid (v >>> 12)).touch a)

/-- The kernel after an access to `v` that its entry does not allow. -/
def trapped (k : Kernel) (v : Addr) : Kernel :=
  { k with cpu := { k.cpu with trap := ⟨.PageFault, v⟩, fault := false, faultAddr := 0 } }

/-- `CPU_HAL->fetch` with the pc at `v`. -/
def fetchAt (k : Kernel) (v : Addr) : Except Halt (Word × Kernel) := do
  let (val, cpu) ← ({ k.machine with pc := v } : Machine).fetch
  .ok (val, k.withMachine { cpu with pc := k.cpu.pc })

/-- An access of kind `a` to `v` goes through. -/
def allowed (k : Kernel) (pid : Pid) (a : Access) (v : Addr) : Bool :=
  (k.pte pid (v >>> 12)).valid && (k.pte pid (v >>> 12)).allows a

section
variable (hcur : k.cpu.currentTable = some pid)
include hcur

theorem machine_walk (v : Addr) :
    k.machine.mmu.walk v = (k.processList pid).pageTable.find? (v >>> 12) := by
  simp only [MMU.walk, machine, hcur, Option.map_some, Option.bind_some]

theorem withMachine_touch (hvm : k.cpu.vmEnabled = true) (a : Access) (v : Addr) :
    k.withMachine (k.machine.touch a v) = k.touched pid a v := by
  rcases k with ⟨⟨regs, pc, trap, vmEnabled, fault, faultAddr, currentTable⟩⟩
  dsimp only at hcur hvm
  subst hcur hvm
  rfl

theorem withMachine_store (hvm : k.cpu.vmEnabled = true) (a : Access) (v : Addr) (memory : Memory) :
    k.withMachine { k.machine with mmu := { k.machine.mmu.touch a v with memory } } =
      { k.touched pid a v with memory } := by
  rcases k with ⟨⟨regs, pc, trap, vmEnabled, fault, faultAddr, currentTable⟩⟩
  dsimp only at hcur hvm
  subst hcur hvm
  rfl

theorem withMachine_pageFault (v : Addr) :
    k.withMachine (k.machine.pageFault v) = k.trapped v := by
  have htable : k.withTable (some (k.processList pid).pageTable) = k := by
    simp only [withTable, hcur, modifyProcess]
    rw [Function.update_eq_self]
  have hcurrent : (k.machine.pageFault v).mmu.currentTable = some (k.processList pid).pageTable := by
    show k.cpu.currentTable.map _ = _
    rw [hcur]
    rfl
  unfold withMachine
  rw [hcurrent, htable]
  rfl

variable (hvm : k.cpu.vmEnabled = true)
include hvm

theorem machine_accessible (a : Access) (v : Addr) :
    k.machine.mmu.accessible a v = k.allowed pid a v := by
  have hvm' : k.machine.mmu.vmEnabled = true := hvm
  rw [MMU.accessible, hvm', machine_walk hcur, allowed, pte, PageTable.entry]
  cases (k.processList pid).pageTable.find? (v >>> 12) <;> rfl

theorem machine_physical (v : Addr) :
    k.machine.mmu.physical v = (k.pte pid (v >>> 12)).paddr v := by
  have hvm' : k.machine.mmu.vmEnabled = true := hvm
  rw [MMU.physical, if_pos hvm', machine_walk hcur]
  rfl

variable (hfault : k.cpu.fault = false)
include hfault

theorem loadVirtualMemory_eq (v : Addr) (n : Nat) :
    k.loadVirtualMemory v n =
      if k.allowed pid .load v then
        (k.memory.load ((k.pte pid (v >>> 12)).paddr v) n).map fun val =>
          (val, k.touched pid .load v)
      else .ok (0, k.trapped v) := by
  have hmachine : k.machine.mmu.fault = false := hfault
  unfold loadVirtualMemory
  rw [Machine.loadVirtualMemory_eq hmachine, machine_accessible hcur hvm, machine_physical hcur hvm]
  split
  · show (((k.memory.load _ n).map _) >>= _) = _
    cases k.memory.load ((k.pte pid (v >>> 12)).paddr v) n with
    | error e => rfl
    | ok val => exact congrArg (fun k' => Except.ok (val, k')) (withMachine_touch hcur hvm .load v)
  · exact congrArg (fun k' => Except.ok (0, k')) (withMachine_pageFault hcur v)

theorem storeVirtualMemory_eq (v : Addr) (n : Nat) (value : Word) :
    k.storeVirtualMemory v n value =
      if k.allowed pid .store v then
        (k.memory.store ((k.pte pid (v >>> 12)).paddr v) n value).map fun memory =>
          { k.touched pid .store v with memory }
      else .ok (k.trapped v) := by
  have hmachine : k.machine.mmu.fault = false := hfault
  unfold storeVirtualMemory
  rw [Machine.storeVirtualMemory_eq hmachine, machine_accessible hcur hvm,
    machine_physical hcur hvm]
  split
  · show (((k.memory.store _ n value).map _) >>= _) = _
    cases k.memory.store ((k.pte pid (v >>> 12)).paddr v) n value with
    | error e => rfl
    | ok memory => exact congrArg Except.ok (withMachine_store hcur hvm .store v memory)
  · exact congrArg Except.ok (withMachine_pageFault hcur v)

theorem fetchAt_eq (v : Addr) :
    k.fetchAt v =
      if k.allowed pid .fetch v then
        (k.memory.load ((k.pte pid (v >>> 12)).paddr v) 4).map fun val =>
          (val, k.touched pid .fetch v)
      else .ok (0, k.trapped v) := by
  have hmachine : ({ k.machine with pc := v } : Machine).mmu.fault = false := hfault
  unfold fetchAt
  rw [Machine.fetch_eq hmachine]
  rw [show ({ k.machine with pc := v } : Machine).mmu = k.machine.mmu from rfl,
    show ({ k.machine with pc := v } : Machine).pc = v from rfl, machine_accessible hcur hvm,
    machine_physical hcur hvm]
  split
  · show (((k.memory.load _ 4).map _) >>= _) = _
    cases k.memory.load ((k.pte pid (v >>> 12)).paddr v) 4 with
    | error e => rfl
    | ok val => exact congrArg (fun k' => Except.ok (val, k')) (withMachine_touch hcur hvm .fetch v)
  · exact congrArg (fun k' => Except.ok (0, k')) (withMachine_pageFault hcur v)

end

end Kernel

end Rv32umos
