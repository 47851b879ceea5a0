import Rv32umos.Vm.Restart

/-!
# How a step can fail

The simulator ends inside a step when the word that is executed is rejected, or when the fetch or the
access to data runs over the last byte of RAM: its first byte is in a frame, and no check is made for the
others (`step_error`). The assertions of `Memory` never fail, since every entry maps a frame.
-/

namespace Rv32umos

open Rv32im Executor Decoder

/-- What a `do` block that fails has done: its first step failed, or it returned and the rest failed. -/
theorem bind_eq_error {ε α β : Type} {x : Except ε α} {f : α → Except ε β} {e : ε} :
    (x >>= f) = .error e ↔ x = .error e ∨ ∃ a, x = .ok a ∧ f a = .error e := by
  cases x with
  | error e' =>
    constructor
    · intro h
      cases h
      exact .inl rfl
    · rintro (h | ⟨a, h, -⟩)
      · cases h
        rfl
      · cases h
  | ok a =>
    constructor
    · intro h
      exact .inr ⟨a, rfl, h⟩
    · rintro (h | ⟨_, h, hf⟩)
      · cases h
      · cases h
        exact hf

namespace Memory

variable {m : Memory} {addr : Addr} {size : Nat} {why : Halt}

/-- An access that starts in RAM fails at its end. -/
theorem load_error (hsize : 0 < size) (hin : addr.toNat < MEMORY_SIZE) (h : m.load addr size = .error why) :
    why = .undefined "memory index" ∧ MEMORY_SIZE < addr.toNat + size := by
  rw [load_eq m addr hsize] at h
  split_ifs at h with hfits
  cases h
  exact ⟨rfl, Nat.lt_of_not_le hfits⟩

theorem store_error {value : Word} (hsize : 0 < size) (hin : addr.toNat < MEMORY_SIZE)
    (h : m.store addr size value = .error why) :
    why = .undefined "memory index" ∧ MEMORY_SIZE < addr.toNat + size := by
  rw [store_eq m addr hsize] at h
  split_ifs at h with hfits
  cases h
  exact ⟨rfl, Nat.lt_of_not_le hfits⟩

end Memory

/-- The bytes that a load or store is about, by the low bits of its funct3. -/
def dataSize (w : Word) : Nat := 2 ^ (func3 w &&& 3#8).toNat

theorem dataSize_le (w : Word) : dataSize w ≤ 8 := by
  refine Nat.pow_le_pow_right (by decide) (?_ : _ ≤ 3)
  rw [BitVec.toNat_and]
  exact Nat.and_le_right

theorem dataSize_load (op : LoadOp) {w : Word} (h3 : HasField w 12 op.funct3) : dataSize w = op.size := by
  cases op <;> simp only [dataSize, func3_eq h3, LoadOp.funct3] <;> rfl

theorem dataSize_store (op : StoreOp) {w : Word} (h3 : HasField w 12 op.funct3) : dataSize w = op.size := by
  cases op <;> simp only [dataSize, func3_eq h3, StoreOp.funct3] <;> rfl

/-- What translation allows starts in RAM. -/
def MMU.StartsInRam (mmu : MMU) : Prop :=
  ∀ a v, mmu.accessible a v = true → (mmu.physical v).toNat < MEMORY_SIZE

theorem MMU.StartsInRam.touch {mmu : MMU} {a : Access} {v : Addr} (h : mmu.StartsInRam)
    (hacc : mmu.accessible a v = true) : (mmu.touch a v).StartsInRam := by
  intro b v' hb
  rw [touch_accessible hacc] at hb
  rw [touch_physical hacc]
  exact h b v' hb

namespace Machine

variable {cpu : Machine} {w : Word} {why : Halt}

/-- The data of the word runs over the last byte of RAM. -/
def DataOverRam (cpu : Machine) (w : Word) : Prop :=
  ∃ a v, dataAccess cpu.regs w = some (a, v) ∧ cpu.mmu.accessible a v = true ∧
    MEMORY_SIZE < (cpu.mmu.physical v).toNat + dataSize w

theorem execLoad_error {size : Nat} {ext : Word → Word} (hfault : cpu.mmu.fault = false)
    (hram : cpu.mmu.StartsInRam) (hop : opcode w = Opcode.LOAD) (hpos : 0 < size)
    (hsize : dataSize w = size) (h : execLoad size ext cpu w = .error why) :
    why = .undefined "memory index" ∧ cpu.DataOverRam w := by
  unfold execLoad at h
  split_ifs at h with hrd
  dsimp only at h
  rw [loadVirtualMemory_eq hfault] at h
  split_ifs at h with hacc
  · rcases bind_eq_error.1 h with hload | ⟨r, -, h⟩
    · cases hmem : cpu.mmu.memory.load (cpu.mmu.physical (cpu.regs.read (rs1 w).toNat + immI w)) size with
      | error why' =>
        rw [hmem] at hload
        cases hload
        obtain ⟨hwhy, hover⟩ := Memory.load_error hpos (hram _ _ hacc) hmem
        exact ⟨hwhy, .load, _, if_pos ⟨hop, hrd⟩, hacc, hsize ▸ hover⟩
      | ok val =>
        rw [hmem] at hload
        cases hload
    · split_ifs at h
  · rcases bind_eq_error.1 h with hload | ⟨r, -, h⟩
    · cases hload
    · split_ifs at h

theorem execStore_error {size : Nat} (hfault : cpu.mmu.fault = false)
    (hram : cpu.mmu.StartsInRam) (hop : opcode w = Opcode.STORE) (hpos : 0 < size)
    (hsize : dataSize w = size) (h : execStore size cpu w = .error why) : why = .undefined "memory index" ∧ cpu.DataOverRam w := by
  unfold execStore at h
  dsimp only at h
  rw [storeVirtualMemory_eq hfault] at h
  split_ifs at h with hacc
  cases hmem : cpu.mmu.memory.store (cpu.mmu.physical (cpu.regs.read (rs1 w).toNat + immS w)) size
      (cpu.regs.read (rs2 w).toNat) with
  | error why' =>
    rw [hmem] at h
    cases h
    have hload : ¬ (opcode w = Opcode.LOAD ∧ rd w ≠ 0) := by
      rintro ⟨hload, -⟩
      rw [hop] at hload
      exact absurd hload (by decide)
    obtain ⟨hwhy, hover⟩ := Memory.store_error hpos (hram _ _ hacc) hmem
    exact ⟨hwhy, .store, _, (if_neg hload).trans (if_pos hop), hacc, hsize ▸ hover⟩
  | ok memory =>
    rw [hmem] at h
    cases h

/-- The execution of a word that is not rejected fails only where its data runs over RAM. -/
theorem execute_error (hfault : cpu.mmu.fault = false)
    (hram : cpu.mmu.StartsInRam) (h : cpu.execute w = .error why) :
    (Rejects w ∧ why.IsRejection w) ∨ (why = .undefined "memory index" ∧ cpu.DataOverRam w) := by
  by_cases hencodes : ∃ o : Operation, o.encode = w
  · obtain ⟨o, rfl⟩ := hencodes
    have hruns := (o.runs cpu).symm.trans h
    right
    cases o with
    | base i =>
      cases i with
      | load op rd rs1 imm =>
        simp only [Operation.executor, loadExecutor_eq] at hruns
        have hfields := encodeI_fields 0b0000011 rs1 rd op.funct3 imm
        exact execLoad_error hfault hram (opcode_eq hfields.1) op.size_pos
          (dataSize_load op hfields.2.2.1) hruns
      | store op rs1 rs2 imm =>
        simp only [Operation.executor, storeExecutor_eq] at hruns
        have hfields := encodeR_fields (imm.extractLsb' 5 7) 0b0100011 rs2 rs1 (imm.extractLsb' 0 5) op.funct3
        exact execStore_error hfault hram (opcode_eq hfields.1) op.size_pos
          (dataSize_store op hfields.2.2.1) hruns
      | _ => cases hruns
    | fenceI rd rs1 imm => cases hruns
    | ecall => cases hruns
  · by_cases hread : Misread w
    · rcases hread.runs with hruns | hruns
      · cases (hruns cpu).symm.trans h
      · cases (hruns cpu).symm.trans h
    · left
      have hrejects := Foreign.rejected (not_exists.1 hencodes) hread
      obtain ⟨why', hrejected, hwhy⟩ := hrejects cpu
      cases hrejected.symm.trans h
      exact ⟨hrejects, hwhy⟩

/-- The word at the pc, where it may be fetched from. -/
def FetchesWord (cpu : Machine) (w : Word) : Prop :=
  cpu.mmu.accessible .fetch cpu.pc = true ∧ cpu.mmu.memory.load (cpu.mmu.physical cpu.pc) 4 = .ok w

/-- A step fails: on the fetch of a word that runs over RAM, on a word that is rejected, or on data that
runs over RAM. -/
theorem step_error (hfault : cpu.mmu.fault = false)
    (hram : cpu.mmu.StartsInRam) (h : cpu.step = .error why) :
    (why = .undefined "memory index" ∧ cpu.mmu.accessible .fetch cpu.pc = true ∧
      MEMORY_SIZE < (cpu.mmu.physical cpu.pc).toNat + 4) ∨
    ∃ w, cpu.FetchesWord w ∧ ((Rejects w ∧ why.IsRejection w) ∨
      (why = .undefined "memory index" ∧ cpu.DataOverRam w)) := by
  rw [step_eq hfault] at h
  split_ifs at h with hacc
  rcases bind_eq_error.1 h with hload | ⟨w, hload, h⟩
  · obtain ⟨hwhy, hover⟩ := Memory.load_error (by decide) (hram _ _ hacc) hload
    exact .inl ⟨hwhy, hacc, hover⟩
  · refine .inr ⟨w, ⟨hacc, hload⟩, ?_⟩
    have hfault₁ : (cpu.clearTrap.touch .fetch cpu.pc).mmu.fault = false :=
      (MMU.touch_fault _ _ _).trans hfault
    refine (execute_error hfault₁ (hram.touch hacc) h).imp_right ?_
    rintro ⟨hwhy, a, v, haccess, hdata, hover⟩
    refine ⟨hwhy, a, v, haccess, ?_, ?_⟩
    · exact (MMU.touch_accessible hacc a v).symm.trans hdata
    · rw [← MMU.touch_physical hacc]
      exact hover

/-! ### The number of a system call -/

theorem execLoad_trap {cpu' : Machine} {size : Nat} {ext : Word → Word} (hfault : cpu.mmu.fault = false)
    (h : execLoad size ext cpu w = .ok cpu') : cpu'.trap = cpu.trap ∨ cpu'.trap.type = .PageFault := by
  unfold execLoad at h
  split_ifs at h
  · cases h
    exact .inl rfl
  · obtain ⟨⟨val, cpu₁⟩, hload, h⟩ := bind_eq_ok.1 h
    have hcpu₁ : cpu₁.trap = cpu.trap ∨ cpu₁.trap.type = .PageFault := by
      rw [loadVirtualMemory_eq hfault] at hload
      split_ifs at hload
      · cases hmem : cpu.mmu.memory.load
            (cpu.mmu.physical (cpu.regs.read (rs1 w).toNat + immI w)) size with
        | error why =>
          rw [hmem] at hload
          cases hload
        | ok val' =>
          rw [hmem] at hload
          cases hload
          exact .inl rfl
      · cases hload
        exact .inr rfl
    dsimp only at h
    split_ifs at h
    · cases h
      exact hcpu₁
    · cases h
      exact hcpu₁

theorem execStore_trap {cpu' : Machine} {size : Nat} (hfault : cpu.mmu.fault = false)
    (h : execStore size cpu w = .ok cpu') : cpu'.trap = cpu.trap ∨ cpu'.trap.type = .PageFault := by
  unfold execStore at h
  dsimp only at h
  rw [storeVirtualMemory_eq hfault] at h
  split_ifs at h
  · cases hmem : cpu.mmu.memory.store (cpu.mmu.physical (cpu.regs.read (rs1 w).toNat + immS w)) size
        (cpu.regs.read (rs2 w).toNat) with
    | error why =>
      rw [hmem] at h
      cases h
    | ok memory =>
      rw [hmem] at h
      cases h
      exact .inl rfl
  · cases h
    exact .inr rfl

/-- Only an ECALL leaves a system call trap. -/
theorem execute_syscall {cpu' : Machine} (hfault : cpu.mmu.fault = false) (hnone : cpu.trap.type = .None)
    (h : cpu.execute w = .ok cpu') (htrap : cpu'.trap.type = .Syscall) : cpu' = execECALL cpu := by
  have hno {p : Prop} (hother : cpu'.trap = cpu.trap ∨ cpu'.trap.type = .PageFault) : p := by
    rcases hother with hsame | hpage
    · rw [hsame, hnone] at htrap
      cases htrap
    · rw [hpage] at htrap
      cases htrap
  cases execute_behaves w with
  | rejects hruns =>
    obtain ⟨why, hruns⟩ := hruns cpu
    cases hruns.symm.trans h
  | computes regs pc hruns =>
    cases (hruns cpu).symm.trans h
    exact hno (.inl rfl)
  | loads size ext hop hruns => exact hno (execLoad_trap hfault ((hruns cpu).symm.trans h))
  | stores size hop hruns => exact hno (execStore_trap hfault ((hruns cpu).symm.trans h))
  | calls hruns => exact (Except.ok.inj ((hruns cpu).symm.trans h)).symm

/-- A system call: its number is in `a7`, and the registers are left alone. -/
theorem step_syscall {cpu' : Machine} (hfault : cpu.mmu.fault = false) (h : cpu.step = .ok cpu')
    (htrap : cpu'.trap.type = .Syscall) :
    cpu'.regs = cpu.regs ∧ cpu'.trap.value =
      if (cpu.regs.read 17).toNat ≤ 14 then cpu.regs.read 17 else SYS_UNKNOWN := by
  rw [step_eq hfault] at h
  split_ifs at h with hacc
  · obtain ⟨w, -, h⟩ := bind_eq_ok.1 h
    have hfault₁ : (cpu.clearTrap.touch .fetch cpu.pc).mmu.fault = false :=
      (MMU.touch_fault _ _ _).trans hfault
    obtain rfl := execute_syscall hfault₁ rfl h htrap
    have hregs : (cpu.clearTrap.touch .fetch cpu.pc).regs = cpu.regs := rfl
    unfold execECALL
    rw [hregs]
    dsimp only
    split_ifs
    · exact ⟨rfl, rfl⟩
    · exact ⟨rfl, rfl⟩
  · cases h
    cases htrap

end Machine

end Rv32umos
