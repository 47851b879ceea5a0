import Rv32umos.Vm.Executor

/-!
# A step that traps changes no register

An access that faults, and an `ecall`, leave the registers and the pc as they were, so that the
kernel finds in the machine the context of the instruction that trapped (`step_precise`). A step
starts by clearing the trap that is there, hence its trap is its own.
-/

namespace Rv32umos

namespace Machine

variable {cpu cpu' cpu'' : Machine}

/-- If `cpu'` has a trap, then it still has the registers and the pc of `cpu`. -/
def Precise (cpu cpu' : Machine) : Prop :=
  cpu'.hasTrap = true → cpu'.regs = cpu.regs ∧ cpu'.pc = cpu.pc

/-- No trap is raised. -/
theorem Precise.of_trap (htrap : cpu.hasTrap = false) (h : cpu'.trap = cpu.trap) :
    Precise cpu cpu' := by
  intro htrap'
  rw [hasTrap, h] at htrap'
  rw [hasTrap, htrap'] at htrap
  cases htrap

/-- No register changes. -/
theorem Precise.of_regs (hregs : cpu'.regs = cpu.regs) (hpc : cpu'.pc = cpu.pc) :
    Precise cpu cpu' := fun _ => ⟨hregs, hpc⟩

theorem latchFault_regs (cpu : Machine) : cpu.latchFault.regs = cpu.regs := by
  unfold latchFault
  split <;> rfl

theorem latchFault_pc (cpu : Machine) : cpu.latchFault.pc = cpu.pc := by
  unfold latchFault
  split <;> rfl

theorem loadVirtualMemory_context {v : Addr} {n : Nat} {val : Word}
    (h : cpu.loadVirtualMemory v n = .ok (val, cpu')) :
    cpu'.regs = cpu.regs ∧ cpu'.pc = cpu.pc := by
  obtain ⟨⟨w, mmu⟩, -, h⟩ := bind_eq_ok.1 h
  cases h
  exact ⟨latchFault_regs _, latchFault_pc _⟩

theorem storeVirtualMemory_context {v : Addr} {n : Nat} {val : Word}
    (h : cpu.storeVirtualMemory v n val = .ok cpu') :
    cpu'.regs = cpu.regs ∧ cpu'.pc = cpu.pc := by
  obtain ⟨mmu, -, h⟩ := bind_eq_ok.1 h
  cases h
  exact ⟨latchFault_regs _, latchFault_pc _⟩

theorem fetch_context {instr : Word} (h : cpu.fetch = .ok (instr, cpu')) :
    cpu'.regs = cpu.regs ∧ cpu'.pc = cpu.pc := by
  obtain ⟨⟨w, mmu⟩, -, h⟩ := bind_eq_ok.1 h
  cases h
  exact ⟨latchFault_regs _, latchFault_pc _⟩

end Machine

namespace Executor

open Machine

variable {cpu cpu' : Machine} {instr : Word}

theorem writeResult_trap (cpu : Machine) (instr w : Word) :
    (writeResult cpu instr w).trap = cpu.trap := by
  unfold writeResult
  split <;> rfl

theorem execBranch_trap (taken : Word → Word → Bool) (cpu : Machine) (instr : Word) :
    (execBranch taken cpu instr).trap = cpu.trap := by
  unfold execBranch
  split <;> rfl

theorem execECALL_precise (cpu : Machine) : Precise cpu (execECALL cpu) := by
  unfold execECALL
  dsimp only
  split
  · exact .of_regs rfl rfl
  · exact .of_regs rfl rfl

theorem execLoad_precise {size : Nat} {ext : Word → Word} (htrap : cpu.hasTrap = false)
    (h : execLoad size ext cpu instr = .ok cpu') : Precise cpu cpu' := by
  unfold execLoad at h
  split_ifs at h with hrd
  · cases h
    exact .of_trap htrap rfl
  · obtain ⟨⟨val, cpu₁⟩, hload, h⟩ := bind_eq_ok.1 h
    obtain ⟨hregs, hpc⟩ := loadVirtualMemory_context hload
    dsimp only at h
    split_ifs at h with hfault
    · cases h
      exact .of_regs hregs hpc
    · cases h
      intro htrap'
      exact absurd htrap' hfault

theorem execStore_precise {size : Nat} (h : execStore size cpu instr = .ok cpu') :
    Precise cpu cpu' := by
  obtain ⟨hregs, hpc⟩ := storeVirtualMemory_context h
  exact .of_regs hregs hpc

end Executor

namespace Machine

open Executor

variable {cpu cpu' : Machine} {instr : Word}

theorem execute_precise (htrap : cpu.hasTrap = false) (h : cpu.execute instr = .ok cpu') :
    Precise cpu cpu' := by
  unfold execute at h
  dsimp only at h
  split at h
  all_goals try split at h
  all_goals try split at h
  all_goals try split at h
  all_goals
    first
    | (cases h; done)
    | exact execLoad_precise htrap h
    | exact execStore_precise h
    | (cases h
       first
       | exact .of_trap htrap rfl
       | exact .of_trap htrap (writeResult_trap _ _ _)
       | exact .of_trap htrap (execBranch_trap _ _ _)
       | exact execECALL_precise _)

/-- A step that ends in a trap leaves the registers and the pc alone. -/
theorem step_precise (h : cpu.step = .ok cpu') : Precise cpu cpu' := by
  obtain ⟨⟨instr, cpu₁⟩, hfetch, h⟩ := bind_eq_ok.1 h
  obtain ⟨hregs, hpc⟩ := fetch_context hfetch
  dsimp only at h
  split_ifs at h with hfault
  · cases h
    exact .of_regs hregs hpc
  · intro htrap
    obtain ⟨hregs', hpc'⟩ := execute_precise (by simpa using hfault) h htrap
    exact ⟨hregs'.trans hregs, hpc'.trans hpc⟩

end Machine

end Rv32umos
