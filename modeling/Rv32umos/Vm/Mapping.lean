import Rv32umos.Vm.Executor
import Rv32umos.Vm.MemoryFacts

/-!
# No instruction changes the mapping

`MMU.mapping` is the enable bit and the page table without its referenced and dirty bits. Every
access keeps it, and so does every instruction (`Machine.step_mapping`): what a user program does to
its page table is to set those bits. The machine never leaves the MMU's fault flag set
(`Machine.step_fault`).
-/

namespace Rv32umos

/-- An entry without its referenced and dirty bits. -/
def PTE.core (e : PTE) : PTE := { e with referenced := false, dirty := false }

@[simp] theorem PTE.core_touch (e : PTE) (a : Access) : (e.touch a).core = e.core := rfl

@[simp] theorem PTE.core_valid (e : PTE) : e.core.valid = e.valid := rfl

@[simp] theorem PTE.core_ppn (e : PTE) : e.core.ppn = e.ppn := rfl

namespace MMU

def mapping (mmu : MMU) : Bool × Option (Addr → PTE) :=
  (mmu.vmEnabled, mmu.currentTable.map fun table vpn => (table.entry vpn).core)

@[simp] theorem touch_mapping (mmu : MMU) (a : Access) (v : Addr) :
    (mmu.touch a v).mapping = mmu.mapping := by
  unfold mapping
  rw [touch_vmEnabled]
  refine congrArg (Prod.mk _) ?_
  unfold touch
  split
  · cases mmu.currentTable with
    | none => rfl
    | some table =>
      refine congrArg some (funext fun vpn => ?_)
      dsimp only
      rw [PageTable.entry_set]
      split_ifs with h
      · rw [h, PTE.core_touch]
      · rfl
  · rfl

theorem translate_mapping (mmu : MMU) (v : Addr) (a : Access) :
    (mmu.translate v a.isWrite a.isExec).2.mapping = mmu.mapping := by
  rw [translate_eq]
  split
  · exact touch_mapping mmu a v
  · rfl

theorem loadVirtualMemory_mapping {mmu mmu' : MMU} {v : Addr} {n : Nat} {val : Word}
    (h : mmu.loadVirtualMemory v n = .ok (val, mmu')) : mmu'.mapping = mmu.mapping := by
  have htr := translate_mapping mmu v .load
  unfold loadVirtualMemory at h
  dsimp only at h
  split_ifs at h
  · cases h
    exact htr
  · obtain ⟨w, -, h⟩ := bind_eq_ok.1 h
    cases h
    exact htr

theorem fetch_mapping {mmu mmu' : MMU} {v : Addr} {val : Word}
    (h : mmu.fetch v = .ok (val, mmu')) : mmu'.mapping = mmu.mapping := by
  have htr := translate_mapping mmu v .fetch
  unfold fetch at h
  dsimp only at h
  split_ifs at h
  · cases h
    exact htr
  · obtain ⟨w, -, h⟩ := bind_eq_ok.1 h
    cases h
    exact htr

theorem storeVirtualMemory_mapping {mmu mmu' : MMU} {v : Addr} {n : Nat} {val : Word}
    (h : mmu.storeVirtualMemory v n val = .ok mmu') : mmu'.mapping = mmu.mapping := by
  have htr := translate_mapping mmu v .store
  unfold storeVirtualMemory at h
  dsimp only at h
  split_ifs at h
  · cases h
    exact htr
  · obtain ⟨memory, -, h⟩ := bind_eq_ok.1 h
    cases h
    exact htr

end MMU

namespace Machine

theorem latchFault_mapping (cpu : Machine) : cpu.latchFault.mmu.mapping = cpu.mmu.mapping := by
  unfold latchFault
  split <;> rfl

variable {cpu cpu' : Machine} {val : Word}

theorem loadVirtualMemory_mapping {v : Addr} {n : Nat}
    (h : cpu.loadVirtualMemory v n = .ok (val, cpu')) : cpu'.mmu.mapping = cpu.mmu.mapping := by
  obtain ⟨⟨w, mmu⟩, hload, h⟩ := bind_eq_ok.1 h
  cases h
  exact (latchFault_mapping _).trans (MMU.loadVirtualMemory_mapping hload)

theorem storeVirtualMemory_mapping {v : Addr} {n : Nat}
    (h : cpu.storeVirtualMemory v n val = .ok cpu') : cpu'.mmu.mapping = cpu.mmu.mapping := by
  obtain ⟨mmu, hstore, h⟩ := bind_eq_ok.1 h
  cases h
  exact (latchFault_mapping _).trans (MMU.storeVirtualMemory_mapping hstore)

theorem fetch_mapping (h : cpu.fetch = .ok (val, cpu')) :
    cpu'.mmu.mapping = cpu.mmu.mapping := by
  obtain ⟨⟨w, mmu⟩, hfetch, h⟩ := bind_eq_ok.1 h
  cases h
  exact (latchFault_mapping _).trans (MMU.fetch_mapping hfetch)

theorem latchFault_fault (cpu : Machine) : cpu.latchFault.mmu.fault = false := by
  unfold latchFault
  split
  · rfl
  · rename_i h
    simpa [MMU.hasFault] using h

theorem loadVirtualMemory_fault {v : Addr} {n : Nat}
    (h : cpu.loadVirtualMemory v n = .ok (val, cpu')) : cpu'.mmu.fault = false := by
  obtain ⟨⟨w, mmu⟩, -, h⟩ := bind_eq_ok.1 h
  cases h
  exact latchFault_fault _

theorem storeVirtualMemory_fault {v : Addr} {n : Nat}
    (h : cpu.storeVirtualMemory v n val = .ok cpu') : cpu'.mmu.fault = false := by
  obtain ⟨mmu, -, h⟩ := bind_eq_ok.1 h
  cases h
  exact latchFault_fault _

theorem fetch_fault (h : cpu.fetch = .ok (val, cpu')) : cpu'.mmu.fault = false := by
  obtain ⟨⟨w, mmu⟩, -, h⟩ := bind_eq_ok.1 h
  cases h
  exact latchFault_fault _

/-- An executor touches the MMU by one load, by one store, or not at all. -/
def Accesses (cpu cpu' : Machine) : Prop :=
  cpu'.mmu = cpu.mmu ∨
  (∃ v n val cpu₁, cpu.loadVirtualMemory v n = .ok (val, cpu₁) ∧ cpu'.mmu = cpu₁.mmu) ∨
  ∃ v n val, cpu.storeVirtualMemory v n val = .ok cpu'

theorem Accesses.mapping (h : cpu.Accesses cpu') : cpu'.mmu.mapping = cpu.mmu.mapping := by
  rcases h with h | ⟨v, n, w, cpu₁, hload, h⟩ | ⟨v, n, w, hstore⟩
  · rw [h]
  · rw [h]
    exact loadVirtualMemory_mapping hload
  · exact storeVirtualMemory_mapping hstore

theorem Accesses.fault (h : cpu.Accesses cpu') (hfault : cpu.mmu.fault = false) :
    cpu'.mmu.fault = false := by
  rcases h with h | ⟨v, n, w, cpu₁, hload, h⟩ | ⟨v, n, w, hstore⟩
  · rw [h]
    exact hfault
  · rw [h]
    exact loadVirtualMemory_fault hload
  · exact storeVirtualMemory_fault hstore

end Machine

namespace Executor

open Machine

variable {cpu cpu' : Machine} {instr : Word}

theorem writeResult_mmu (cpu : Machine) (instr w : Word) : (writeResult cpu instr w).mmu = cpu.mmu := by
  unfold writeResult
  split <;> rfl

theorem execBranch_mmu (taken : Word → Word → Bool) (cpu : Machine) (instr : Word) :
    (execBranch taken cpu instr).mmu = cpu.mmu := by
  unfold execBranch
  split <;> rfl

theorem execECALL_mmu (cpu : Machine) : (execECALL cpu).mmu = cpu.mmu := by
  unfold execECALL
  dsimp only
  split <;> rfl

theorem execLoad_accesses {size : Nat} {ext : Word → Word}
    (h : execLoad size ext cpu instr = .ok cpu') : cpu.Accesses cpu' := by
  unfold execLoad at h
  split_ifs at h
  · cases h
    exact .inl rfl
  · obtain ⟨⟨val, cpu₁⟩, hload, h⟩ := bind_eq_ok.1 h
    refine .inr (.inl ⟨_, _, val, cpu₁, hload, ?_⟩)
    dsimp only at h
    split_ifs at h <;> cases h <;> rfl

end Executor

namespace Machine

open Executor

variable {cpu cpu' : Machine} {instr : Word}

theorem execute_accesses (h : cpu.execute instr = .ok cpu') : cpu.Accesses cpu' := by
  unfold execute at h
  dsimp only at h
  split at h
  all_goals try split at h
  all_goals try split at h
  all_goals try split at h
  all_goals
    first
    | (cases h; done)
    | exact execLoad_accesses h
    | exact .inr (.inr ⟨_, _, _, h⟩)
    | (cases h
       first
       | exact .inl rfl
       | exact .inl (writeResult_mmu _ _ _)
       | exact .inl (execBranch_mmu _ _ _)
       | exact .inl (execECALL_mmu _))

theorem step_mapping (h : cpu.step = .ok cpu') : cpu'.mmu.mapping = cpu.mmu.mapping := by
  obtain ⟨⟨instr, cpu₁⟩, hfetch, h⟩ := bind_eq_ok.1 h
  have hmap : cpu₁.mmu.mapping = cpu.clearTrap.mmu.mapping := fetch_mapping hfetch
  dsimp only at h
  split_ifs at h
  · cases h
    exact hmap
  · exact (execute_accesses h).mapping.trans hmap

theorem step_fault (h : cpu.step = .ok cpu') : cpu'.mmu.fault = false := by
  obtain ⟨⟨instr, cpu₁⟩, hfetch, h⟩ := bind_eq_ok.1 h
  have hfault : cpu₁.mmu.fault = false := fetch_fault hfetch
  dsimp only at h
  split_ifs at h
  · cases h
    exact hfault
  · exact (execute_accesses h).fault hfault

end Machine

end Rv32umos
