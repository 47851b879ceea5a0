import Rv32umos.Vm.Memory

/-!
# Registers, traps and the machine state

`rv32vm/RegFile.cpp` and the inline members of `rv32vm/Machine.hpp`.
-/

namespace Rv32umos

/-- The 32 registers. The source's `assert(index < 32)` never fails: every index is a five-bit
field of an instruction or a constant. -/
structure RegFile where
  regs : Nat → Word

namespace RegFile

def reset : RegFile := ⟨fun _ => 0⟩

def read (r : RegFile) (index : Nat) : Word := r.regs index

/-- x0 is hard-wired to zero: a write to it is dropped. -/
def write (r : RegFile) (index : Nat) (value : Word) : RegFile :=
  if index = 0 then r else ⟨Function.update r.regs index value⟩

theorem write_zero (r : RegFile) (value : Word) : r.write 0 value = r := rfl

theorem read_write_self (r : RegFile) {index : Nat} (h : index ≠ 0) (value : Word) :
    (r.write index value).read index = value := by
  simp [write, read, h]

theorem read_write_ne (r : RegFile) {i j : Nat} (h : i ≠ j) (value : Word) :
    (r.write j value).read i = r.read i := by
  unfold write read
  split
  · rfl
  · exact Function.update_of_ne h _ _

end RegFile

inductive TrapType where
  | None
  | Syscall
  | PageFault
  deriving DecidableEq, Repr

structure Trap where
  type : TrapType := .None
  value : Word := 0
  deriving DecidableEq, Repr

structure Machine where
  regs : RegFile
  mmu : MMU
  pc : Addr
  trap : Trap

namespace Machine

def advancePC (cpu : Machine) : Machine := { cpu with pc := cpu.pc + 4 }

def setTrap (cpu : Machine) (type : TrapType) (value : Word) : Machine :=
  { cpu with trap := { type, value } }

def hasTrap (cpu : Machine) : Bool := cpu.trap.type != .None

def clearTrap (cpu : Machine) : Machine := { cpu with trap := {} }

def writeReg (cpu : Machine) (index : Nat) (value : Word) : Machine :=
  { cpu with regs := cpu.regs.write index value }

/-- The `if (this->mmu.hasFault())` of `fetch`, `loadVirtualMemory` and `storeVirtualMemory`: a
fault the MMU recorded becomes a trap of the machine, and the MMU's flag is cleared. -/
def latchFault (cpu : Machine) : Machine :=
  if cpu.mmu.hasFault then
    { cpu.setTrap .PageFault cpu.mmu.getFaultAddr with mmu := cpu.mmu.clearFault }
  else cpu

def loadVirtualMemory (cpu : Machine) (vaddr : Addr) (size : Nat) :
    Except Halt (Word × Machine) := do
  let (val, mmu) ← cpu.mmu.loadVirtualMemory vaddr size
  .ok (val, { cpu with mmu }.latchFault)

def storeVirtualMemory (cpu : Machine) (vaddr : Addr) (size : Nat) (value : Word) :
    Except Halt Machine := do
  let mmu ← cpu.mmu.storeVirtualMemory vaddr size value
  .ok { cpu with mmu }.latchFault

def fetch (cpu : Machine) : Except Halt (Word × Machine) := do
  let (val, mmu) ← cpu.mmu.fetch cpu.pc
  .ok (val, { cpu with mmu }.latchFault)

end Machine

end Rv32umos
