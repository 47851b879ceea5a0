import Mathlib.Data.List.AList
import Mathlib.Data.List.Nodup
import Mathlib.Data.Fintype.Basic
import Mathlib.Tactic

/-!
# Machine words, system constants and ways to stop

The types and constants of `common/Common.hpp`, the bit helpers of `common/Utils.hpp`, and `Halt`:
the ways in which the simulator ends instead of returning (a kernel panic, a failed `assert`, an
illegal instruction, or an access the C++ standard leaves undefined). A function of the source that
can end the simulator returns `Except Halt`; a function that cannot is a plain function.

`size_t` is 64 bits wide here (the host of the CMake build), `int` and `Addr` are 32 bits wide.
-/

namespace Rv32umos

abbrev Byte := BitVec 8
abbrev Half := BitVec 16
abbrev Word := BitVec 32
abbrev Addr := BitVec 32

abbrev MAX_PROCESS : Nat := 8
abbrev MAX_THREADS : Nat := 5

abbrev KERNEL_PAGE_SIZE : Nat := 4096
abbrev GUARD_PAGE_SIZE : Nat := KERNEL_PAGE_SIZE

abbrev PHYSICAL_RAM_KB : Nat := 64
abbrev MEMORY_SIZE : Nat := PHYSICAL_RAM_KB * 1024
abbrev MEMORY_BASE : Nat := 0

abbrev VIRTUAL_RAM_MB : Nat := 64
abbrev VIRTUAL_MEMORY_SIZE : Nat := VIRTUAL_RAM_MB * 1024 * 1024

abbrev STACK_TOP : Nat := VIRTUAL_MEMORY_SIZE
abbrev STACK_REGION_BOTTOM : Nat := VIRTUAL_MEMORY_SIZE / 2
abbrev MAIN_STACK_SIZE : Nat := VIRTUAL_MEMORY_SIZE / 4
abbrev THREAD_STACK_SIZE : Nat := VIRTUAL_MEMORY_SIZE / 4 / (MAX_THREADS - 1) - GUARD_PAGE_SIZE

abbrev HEAP_START : Nat := VIRTUAL_MEMORY_SIZE / 4
abbrev HEAP_MAX_LIMIT : Nat := STACK_REGION_BOTTOM

abbrev SCHED_QUANTUM_INSTRUCTIONS : Nat := 100

abbrev BLOCK_SIZE : Nat := 4096
abbrev NUM_DISK_BLOCKS : Nat := 4096
abbrev NUM_SWAP_BLOCKS : Nat := 2048

abbrev FD_TABLE_SIZE : Nat := 1024
abbrev MAX_FILE_NAME_LENGTH : Nat := 128

/-- The frames of physical memory: `frameTable.size()` after `PhysicalMemoryManager::init`. -/
abbrev NUM_FRAMES : Nat := MEMORY_SIZE / KERNEL_PAGE_SIZE

/-- A process slot of `ProcessManager::processList`; the slot number is the process's pid. -/
abbrev Pid := Fin MAX_PROCESS

instance : NeZero MAX_PROCESS := ⟨by decide⟩

/-- A `Thread*`: the index of the thread in `ProcessManager::activeThreads`. Every thread object is
appended there where it is created and is never removed, so the index is the object's identity. -/
abbrev TRef := Nat

/-- A `std::string` read from user memory or given by the host. -/
abbrev Name := List Byte

/-- The ways in which the simulator ends without returning. -/
inductive Halt where
  /-- `PANIC(reason)`. -/
  | panic (reason : String)
  /-- A failed `assert` in the virtual machine. -/
  | assertion
  /-- `Utils::illegal(instr, why)`. -/
  | illegal (instr : Word) (why : String)
  /-- The `default` of `Machine::execute`'s outer switch. -/
  | unknownOpcode (op : BitVec 8)
  /-- Behaviour the C++ standard leaves undefined (an index past the end of a vector). -/
  | undefined (what : String)
  /-- `main` returns before the simulation starts. -/
  | exit (code : Nat)
  deriving DecidableEq, Repr

/-- What a `do` block that returns has done: its first step returned, and so did the rest. -/
theorem bind_eq_ok {ε α β : Type} {x : Except ε α} {f : α → Except ε β} {b : β} :
    (x >>= f) = .ok b ↔ ∃ a, x = .ok a ∧ f a = .ok b := by
  cases x with
  | error e =>
    constructor
    · intro h; cases h
    · rintro ⟨a, h, -⟩; cases h
  | ok a =>
    constructor
    · intro h; exact ⟨a, rfl, h⟩
    · rintro ⟨_, h, hf⟩; cases h; exact hf

/-- `x` returns, and what it returns meets `p`. -/
def returns {ε α : Type} (x : Except ε α) (p : α → Bool) : Bool :=
  match x with
  | .ok a => p a
  | .error _ => false

theorem returns_iff {ε α : Type} {x : Except ε α} {p : α → Bool} :
    returns x p = true ↔ ∃ a, x = .ok a ∧ p a = true := by
  cases x with
  | error e =>
    constructor
    · intro h; cases h
    · rintro ⟨a, h, -⟩; cases h
  | ok a =>
    constructor
    · intro h; exact ⟨a, rfl, h⟩
    · rintro ⟨_, h, hp⟩; cases h; exact hp

namespace Utils

def signExtend (val : Word) (bits : Nat) : Word :=
  let m : Word := 1#32 <<< (bits - 1)
  (val ^^^ m) - m

def extractBits (value : Word) (start last : Nat) : Word :=
  let len := last - start + 1
  let mask : Word := ((1#64 <<< len) - 1#64).setWidth 32
  (value >>> start) &&& mask

end Utils

end Rv32umos
