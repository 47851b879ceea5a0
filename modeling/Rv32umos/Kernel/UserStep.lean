import Rv32umos.Kernel.Coherence
import Rv32umos.Kernel.SamePages
import Rv32umos.Vm.Restart

/-!
# A user instruction on the flat memory

The machine executes an instruction on RAM, through the page table of the running process. Where the
kernel holds the user memories `m`, this is the instruction of the specification on a memory that the
process may see in `m` (`Kernel.view`), and its store is a store of `m` (`UserMemory.exec`,
`Coherent.execute`). `Coherent.rebuild` is the other direction of change: everything stays in its place,
and processes end or start over.
-/

namespace Rv32umos

open Bytes Rv32im SwapManager

/-! ### User memories that change with the processes -/

theorem PageHolds.of_memory {m m' : UserMemory} {o : Page} {e : PTE} {memory : Memory} {disk : InMemoryDisk}
    {swap : SwapManager} (h : PageHolds m o e memory disk swap) (hstored : m'.stored o.1 = m.stored o.1)
    (himage : m'.image o.1 = m.image o.1) : PageHolds m' o e memory disk swap := by
  have hread : ∀ a, m'.read o.1 a = m.read o.1 a := fun a => by
    rw [FlatMemory.read, FlatMemory.read, hstored, himage]
  refine ⟨fun hvalid i hi b hb => h.resident hvalid i hi b (hread _ ▸ hb), fun hinvalid hswapped => ?_,
    fun hreloads i hi => (congrFun hstored _).trans (h.unstored hreloads i hi)⟩
  obtain ⟨hwrite, hlt, halloc, hcovers⟩ := h.swapped hinvalid hswapped
  exact ⟨hwrite, hlt, halloc, fun i hi b hb => hcovers i hi b (hread _ ▸ hb)⟩

namespace Kernel

variable {m m' : UserMemory} {k k' : Kernel} {pid : Pid}

/-- Process `pid` has lived on, with its pages and its memory. -/
structure Kept (m m' : UserMemory) (k k' : Kernel) (pid : Pid) : Prop where
  active : (k.processList pid).active = true
  pte : ∀ vpn, ∃ r, k'.pte pid vpn = { k.pte pid vpn with referenced := r }
  segments : (k'.processList pid).segments = (k.processList pid).segments
  name : (k'.processList pid).name = (k.processList pid).name
  stored : m'.stored pid = m.stored pid
  image : m'.image pid = m.image pid

/-- Process `pid` starts, and has not used a page yet. -/
structure Renewed (m' : UserMemory) (k' : Kernel) (pid : Pid) : Prop where
  pte : ∀ vpn, (k'.pte pid vpn).valid = false ∧ (k'.pte pid vpn).swapped = false
  stored : ∀ a, m'.stored pid a = none
  image : (k'.processList pid).image k'.host.files = m'.image pid
  placed : WellPlaced (k'.processList pid).segments

namespace Coherent

/-- Nothing has moved, and each process that is active has lived on or starts. -/
theorem rebuild (h : Coherent m k) (hframes : k'.FramesOk) (hmemory : k'.memory = k.memory)
    (hswap : k'.swap = k.swap) (hfiles : k'.host.files = k.host.files)
    (hdisk : ∀ a, swapStartBlock * BLOCK_SIZE ≤ a → k'.disk.data a = k.disk.data a)
    (hprocess : ∀ pid, (k'.processList pid).active = true → Kept m m' k k' pid ∨ Renewed m' k' pid) :
    Coherent m' k' := by
  -- a page in the swap area is one of a process that has lived on
  have hout : ∀ o, k'.SwappedOut o → k.SwappedOut o ∧ (k'.pte o.1 o.2).ppn = (k.pte o.1 o.2).ppn := by
    rintro o ⟨hactive, hinvalid, hswapped⟩
    rcases hprocess o.1 hactive with hkept | hnew
    · obtain ⟨r, hr⟩ := hkept.pte o.2
      rw [hr] at hinvalid hswapped
      exact ⟨⟨hkept.active, hinvalid, hswapped⟩, by rw [hr]⟩
    · exact absurd (hswapped.symm.trans (hnew.pte o.2).2) (by decide)
  refine ⟨hframes, fun o hactive => ?_, fun o o' ho ho' heq => ?_, fun pid hactive => ?_, fun pid hactive => ?_⟩
  · rcases hprocess o.1 hactive with hkept | hnew
    · obtain ⟨r, hr⟩ := hkept.pte o.2
      rw [hr]
      have hholds := (h.pages o hkept.active).of_memory hkept.stored hkept.image
      apply (hholds.referenced r).congr
      · intro _ i _
        rw [hmemory]
      · intro _ _
        refine ⟨by rw [hswap], fun i _ => hdisk _ ?_⟩
        simp only [BLOCK_SIZE]
        omega
    · obtain ⟨hinvalid, hunswapped⟩ := hnew.pte o.2
      refine ⟨fun hvalid => ?_, fun _ hswapped => ?_, fun _ i _ => hnew.stored _⟩
      · exact absurd (hvalid.symm.trans hinvalid) (by decide)
      · exact absurd (hswapped.symm.trans hunswapped) (by decide)
  · obtain ⟨hwas, hppn⟩ := hout o ho
    obtain ⟨hwas', hppn'⟩ := hout o' ho'
    rw [hppn, hppn'] at heq
    exact h.slots o o' hwas hwas' heq
  · rcases hprocess pid hactive with hkept | hnew
    · rw [hkept.image, ← h.image pid hkept.active]
      funext a
      unfold Process.image
      rw [hfiles, hkept.segments, hkept.name]
    · exact hnew.image
  · rcases hprocess pid hactive with hkept | hnew
    · rw [hkept.segments]
      exact h.placed pid hkept.active
    · exact hnew.placed

/-- A change that leaves every page where it was. -/
theorem samePages (h : Coherent m k) (hsame : SamePages k k') : Coherent m k' := by
  have hframes : k'.FramesOk := by
    have hframe : k'.pageFrame = k.pageFrame := by
      funext o
      obtain ⟨r, hr⟩ := hsame.pte o.1 o.2
      rw [pageFrame, pageFrame, hr, (hsame.process o.1).1]
    rw [FramesOk, hsame.pmm, hframe]
    exact h.frames
  refine h.rebuild hframes hsame.memory hsame.swap hsame.files hsame.disk fun pid hactive => .inl ?_
  obtain ⟨hact, hsegments, hname⟩ := hsame.process pid
  exact ⟨hact ▸ hactive, hsame.pte pid, hsegments, hname, rfl, rfl⟩

end Coherent

/-! ### The machine of the kernel -/

section
variable (hcur : k.cpu.currentTable = some pid)
include hcur

/-- What a machine is when it is put back into the kernel. -/
theorem machine_withMachine {cpu : Machine} {table : PageTable} (htable : cpu.mmu.currentTable = some table) :
    (k.withMachine cpu).machine = cpu := by
  rcases cpu with ⟨regs, ⟨memory, currentTable, vmEnabled, fault, faultAddr⟩, pc, trap⟩
  cases htable
  simp only [machine, withMachine, withTable, hcur, Option.map_some]
  rw [modifyProcess_self]

/-- The last machine put back into the kernel counts. -/
theorem withMachine_withMachine {cpu cpu' : Machine} {table table' : PageTable}
    (htable : cpu.mmu.currentTable = some table) (htable' : cpu'.mmu.currentTable = some table') :
    (k.withMachine cpu).withMachine cpu' = k.withMachine cpu' := by
  simp only [withMachine, withTable, htable, htable', hcur, modifyProcess, Function.update_self,
    Function.update_idem]

end

/-- Only the page table and RAM of a machine that is put back matter outside `cpu`. -/
theorem withMachine_of_mmu (k : Kernel) (cpu : Machine) {cpu' : Machine}
    (htable : cpu'.mmu.currentTable = cpu.mmu.currentTable) (hmemory : cpu'.mmu.memory = cpu.mmu.memory) :
    k.withMachine cpu' = { k.withMachine cpu with cpu := (k.withMachine cpu').cpu } := by
  unfold withMachine
  rw [htable, hmemory]

theorem withMachine_self (hcur : k.cpu.currentTable = some pid) : k.withMachine k.machine = k := by
  have htable : k.withTable (some (k.processList pid).pageTable) = k := by
    simp only [withTable, hcur, modifyProcess]
    rw [Function.update_eq_self]
  have hcurrent : k.machine.mmu.currentTable = some (k.processList pid).pageTable := by
    show k.cpu.currentTable.map _ = _
    rw [hcur]
    rfl
  unfold withMachine
  rw [hcurrent, htable]
  rfl

end Kernel

/-! ### The MMU and an instruction -/

namespace Machine

variable {cpu cpu' : Machine}

/-- The address of the data of a load or a store. -/
def address (cpu : Machine) (rs1 : Reg) (imm : BitVec 12) : Addr := (arch cpu).get rs1 + imm.signExtend 32

/-- What instruction `i` does to the MMU when it goes through. -/
inductive Uses (cpu : Machine) : Instr → MMU → Prop
  | nothing {i : Instr} (hload : ∀ op rd rs1 imm, i = .load op rd rs1 imm → rd = 0)
    (hstore : ∀ op rs1 rs2 imm, i ≠ .store op rs1 rs2 imm) : Uses cpu i cpu.mmu
  | load {op : LoadOp} {rd rs1 : Reg} {imm : BitVec 12}
    (hacc : cpu.mmu.accessible .load (cpu.address rs1 imm) = true) :
    Uses cpu (.load op rd rs1 imm) (cpu.mmu.touch .load (cpu.address rs1 imm))
  | store {op : StoreOp} {rs1 rs2 : Reg} {imm : BitVec 12} {memory : Memory}
    (hacc : cpu.mmu.accessible .store (cpu.address rs1 imm) = true)
    (hmem : cpu.mmu.memory.store (cpu.mmu.physical (cpu.address rs1 imm)) op.size ((arch cpu).get rs2) =
      .ok memory) :
    Uses cpu (.store op rs1 rs2 imm) { cpu.mmu.touch .store (cpu.address rs1 imm) with memory }

/-- An instruction that neither loads nor stores. -/
theorem execute_keeps {w : Word} (h : cpu.execute w = .ok cpu') (hload : Decoder.opcode w ≠ Opcode.LOAD)
    (hstore : Decoder.opcode w ≠ Opcode.STORE) : cpu'.mmu = cpu.mmu := by
  cases execute_behaves w with
  | rejects hruns =>
    obtain ⟨why, hruns⟩ := hruns cpu
    cases hruns.symm.trans h
  | computes regs pc hruns =>
    cases (hruns cpu).symm.trans h
    rfl
  | loads size ext hop hruns => exact absurd hop hload
  | stores size hop hruns => exact absurd hop hstore
  | calls hruns =>
    cases (hruns cpu).symm.trans h
    unfold Executor.execECALL
    dsimp only
    split
    · rfl
    · rfl

theorem execute_uses {i : Instr} (h0 : cpu.regs.read 0 = 0) (hfault : cpu.mmu.fault = false)
    (hnone : cpu.hasTrap = false) (h : cpu.execute (encode i) = .ok cpu') (hdone : cpu'.hasTrap = false) :
    cpu.Uses i cpu'.mmu := by
  have hplain {opcode : BitVec 7} (hop : HasField (encode i) 0 opcode) (hnodata : i.access (arch cpu) = none)
      (hno : opcode.setWidth 8 ≠ Opcode.LOAD ∧ opcode.setWidth 8 ≠ Opcode.STORE) : cpu.Uses i cpu'.mmu := by
    rw [← Decoder.opcode_eq hop] at hno
    rw [execute_keeps h hno.1 hno.2]
    refine .nothing (fun op rd rs1 imm heq => ?_) fun op rs1 rs2 imm heq => ?_
    · rw [heq] at hnodata
      cases hnodata
    · rw [heq] at hnodata
      cases hnodata
  cases i with
  | load op rd rs1 imm =>
    obtain ⟨hop, hrd, hf3, hrs1, himm⟩ := encodeI_fields 0b0000011 rs1 rd op.funct3 imm
    have hexec := (execute_load cpu op hop hf3).symm.trans h
    have haddr : (arch cpu).get rs1 + imm.signExtend 32 = cpu.address rs1 imm := rfl
    rw [loadExecutor_eq, Executor.execLoad, Decoder.rd_eq hrd, Decoder.rs1_eq hrs1, Decoder.immI_eq himm,
      toNat_reg, toNat_reg, ← arch_get h0, haddr] at hexec
    by_cases hr : rd = 0
    · rw [if_pos ((setWidth_eq_zero_iff rd).2 hr)] at hexec
      cases hexec
      refine .nothing (fun _ _ _ _ heq => ?_) fun _ _ _ _ heq => by cases heq
      cases heq
      exact hr
    · rw [if_neg (mt (setWidth_eq_zero_iff rd).1 hr)] at hexec
      dsimp only at hexec
      rw [loadVirtualMemory_eq hfault] at hexec
      split_ifs at hexec with hacc
      · cases hload : cpu.mmu.memory.load (cpu.mmu.physical (cpu.address rs1 imm)) op.size with
        | error why =>
          rw [hload] at hexec
          cases hexec
        | ok val =>
          rw [hload] at hexec
          have hquiet : (cpu.touch .load (cpu.address rs1 imm)).hasTrap = false := hnone
          cases (if_neg (by rw [hquiet]; decide)).symm.trans hexec
          exact .load hacc
      · cases hexec
        cases hdone
  | store op rs1 rs2 imm =>
    obtain ⟨hop, hlow, hf3, hrs1, hrs2, hhigh⟩ :=
      encodeR_fields (imm.extractLsb' 5 7) 0b0100011 rs2 rs1 (imm.extractLsb' 0 5) op.funct3
    have hexec := (execute_store cpu op hop hf3).symm.trans h
    have haddr : (arch cpu).get rs1 + imm.signExtend 32 = cpu.address rs1 imm := rfl
    rw [storeExecutor_eq, Executor.execStore, Decoder.rs1_eq hrs1, Decoder.rs2_eq hrs2,
      Decoder.immS_eq hlow hhigh, toNat_reg, toNat_reg, ← arch_get h0, ← arch_get h0, haddr,
      storeVirtualMemory_eq hfault] at hexec
    split_ifs at hexec with hacc
    · cases hstore : cpu.mmu.memory.store (cpu.mmu.physical (cpu.address rs1 imm)) op.size
          ((arch cpu).get rs2) with
      | error why =>
        rw [hstore] at hexec
        cases hexec
      | ok memory =>
        rw [hstore] at hexec
        cases hexec
        exact .store hacc hstore
    · cases hexec
      cases hdone
  | lui rd imm =>
    exact hplain (encodeU_fields 0b0110111 rd imm).1 rfl (by decide)
  | auipc rd imm =>
    exact hplain (encodeU_fields 0b0010111 rd imm).1 rfl (by decide)
  | opImm op rd rs1 imm =>
    exact hplain (encodeI_fields 0b0010011 rs1 rd op.funct3 imm).1 rfl (by decide)
  | shift op rd rs1 shamt =>
    exact hplain (encodeR_fields op.funct7 0b0010011 shamt rs1 rd op.funct3).1 rfl (by decide)
  | opReg op rd rs1 rs2 =>
    exact hplain (encodeR_fields op.funct7 0b0110011 rs2 rs1 rd op.funct3).1 rfl (by decide)
  | jal rd imm =>
    exact hplain (encodeJ_fields 0b1101111 rd imm).1 rfl (by decide)
  | jalr rd rs1 imm =>
    exact hplain (encodeI_fields 0b1100111 rs1 rd 0 imm).1 rfl (by decide)
  | branch op rs1 rs2 imm =>
    exact hplain (encodeB_fields 0b1100011 rs2 rs1 op.funct3 imm).1 rfl (by decide)
  | fence rd rs1 imm =>
    exact hplain (encodeI_fields 0b0001111 rs1 rd 0 imm).1 rfl (by decide)

end Machine

/-! ### One instruction on the flat memory -/

/-- What instruction `i` of process `pid` does to the user memories in state `s`. -/
def UserMemory.exec (m : UserMemory) (pid : Pid) (i : Instr) (s : State Nat) : UserMemory :=
  match i with
  | .store op rs1 rs2 imm =>
    m.store pid (s.get rs1 + imm.signExtend 32).toNat op.size (byteAt (s.get rs2))
  | _ => m

namespace Kernel

variable {m : UserMemory} {k k' : Kernel} {pid : Pid} {i : Instr}

/-- What process `pid` sees in `m`; where it sees nothing in particular, what the machine would read. -/
def view (k : Kernel) (m : UserMemory) (pid : Pid) (a : Nat) : Byte :=
  (m.read pid a).getD (k.memory.byte (loc k.machine.mmu (BitVec.ofNat 32 a)))

theorem view_admits (k : Kernel) (m : UserMemory) (pid : Pid) : m.Admits pid (k.view m pid) := by
  intro a b hb
  rw [view, hb, Option.getD_some]

/-- In a resident page the process sees what the machine reads. -/
theorem Coherent.view_resident (h : Coherent m k) (hon : k.OnCpu pid)
    (hactive : (k.processList pid).active = true) {a : Access} {v : Addr}
    (hallowed : k.allowed pid a v = true) {j : Nat} (hj : v.toNat % 4096 + j < 4096) :
    k.view m pid (v + BitVec.ofNat 32 j).toNat =
      k.memory.byte (loc k.machine.mmu (v + BitVec.ofNat 32 j)) := by
  have hsum : (v + BitVec.ofNat 32 j).toNat = v.toNat + j := by
    have hv := v.isLt
    rw [BitVec.toNat_add, BitVec.toNat_ofNat]
    omega
  rw [view, BitVec.ofNat_toNat, BitVec.setWidth_eq, hsum]
  cases hread : m.read pid (v.toNat + j) with
  | none => rfl
  | some b =>
    obtain ⟨-, hpaddr⟩ := h.paddr_of_allowed hactive hallowed
    have hcovers := (h.pages (pid, v >>> 12) hactive).resident (valid_of_allowed hallowed)
    have haddr : v.toNat + j = (v >>> 12).toNat * 4096 + (v.toNat % 4096 + j) := by
      rw [toNat_shiftRight12]
      omega
    have hbyte := hcovers (v.toNat % 4096 + j) (by omega) b (haddr ▸ hread)
    rw [loc_add hj, loc, machine_physical hon.table hon.vm, hpaddr, Nat.add_assoc]
    exact hbyte.symm

/-- An instruction that goes through is the instruction of the specification on what its process sees. -/
theorem Coherent.execute (h : Coherent m k) (hon : k.OnCpu pid) (hactive : (k.processList pid).active = true)
    (h0 : k.cpu.regs.read 0 = 0) (hnone : k.machine.hasTrap = false) (hpage : InPage k.machine i)
    {cpu : Machine} (hexec : k.machine.execute (encode i) = .ok cpu) (hdone : cpu.hasTrap = false) :
    let x : State Nat := { arch k.machine with mem := k.view m pid }
    (arch cpu.advancePC).regs = (Rv32im.exec BitVec.toNat i x).regs ∧
      cpu.pc + 4 = (Rv32im.exec BitVec.toNat i x).pc ∧ cpu.regs.read 0 = 0 ∧
      Coherent (UserMemory.exec m pid i x) (k.withMachine cpu) := by
  intro x
  obtain ⟨harch, hzero⟩ := execute_refines i h0 hon.fault hpage hnone hexec hdone
  have huses := Machine.execute_uses h0 hon.fault hnone hexec hdone
  have hsame : (Rv32im.exec BitVec.toNat i x).regs =
        (Rv32im.exec (loc k.machine.mmu) i (arch k.machine)).regs ∧
      (Rv32im.exec BitVec.toNat i x).pc = (Rv32im.exec (loc k.machine.mmu) i (arch k.machine)).pc := by
    refine exec_congr i ?_ ?_ ?_
    · rfl
    · rfl
    rintro op rd rs1 imm rfl hrd j hj
    generalize cpu.mmu = mmu at huses
    cases huses with
    | nothing hload _ => exact absurd (hload _ _ _ _ rfl) hrd
    | load hacc =>
      rw [machine_accessible hon.table hon.vm] at hacc
      have hin := hpage _ _ rfl
      exact h.view_resident hon hactive hacc (by unfold Machine.address; omega)
  rw [← harch] at hsame
  refine ⟨hsame.1.symm, hsame.2.symm, hzero, ?_⟩
  generalize hmmu : cpu.mmu = mmu at huses
  cases huses with
  | nothing _ hstore =>
    have hmem : UserMemory.exec m pid i x = m := by
      cases i with
      | store op rs1 rs2 imm => exact absurd rfl (hstore op rs1 rs2 imm)
      | _ => rfl
    rw [hmem, withMachine_of_mmu k k.machine (by rw [hmmu]) (by rw [hmmu]), withMachine_self hon.table]
    exact h.samePages (.of_eq rfl rfl rfl rfl (fun _ _ => rfl) rfl)
  | @load op rd rs1 imm hacc =>
    rw [withMachine_of_mmu k (k.machine.touch .load (k.machine.address rs1 imm)) (by rw [hmmu]; rfl)
      (by rw [hmmu]; rfl), withMachine_touch hon.table hon.vm]
    exact h.samePages ((touched_pages k pid rfl _).1.trans (.of_eq rfl rfl rfl rfl (fun _ _ => rfl) rfl))
  | @store op rs1 rs2 imm memory hacc hmem =>
    rw [machine_accessible hon.table hon.vm] at hacc
    rw [machine_physical hon.table hon.vm] at hmem
    rw [withMachine_of_mmu k { k.machine with mmu :=
        { k.machine.mmu.touch .store (k.machine.address rs1 imm) with memory } } (by rw [hmmu])
      (by rw [hmmu]), withMachine_store hon.table hon.vm]
    have hstored := h.stored hactive hacc op.size_pos (hpage _ _ rfl) hmem
    exact hstored.samePages (.of_eq rfl rfl rfl rfl (fun _ _ => rfl) rfl)

/-! ### One iteration -/

theorem withMachine_clearTrap (k : Kernel) (cpu : Machine) :
    k.clearTrap.withMachine cpu = k.withMachine cpu := by
  unfold withMachine
  cases cpu.mmu.currentTable with
  | none => rfl
  | some table =>
    rcases k with ⟨⟨regs, pc, trap, vmEnabled, fault, faultAddr, currentTable⟩⟩
    cases currentTable with
    | none => rfl
    | some pid => rfl

theorem withMachine_files (k : Kernel) (cpu : Machine) : SameFiles k (k.withMachine cpu) := by
  refine ⟨?_, fun pid' => ?_⟩
  · unfold withMachine withTable
    split
    · rfl
    · split
      · rfl
      · rfl
  · unfold withMachine withTable
    split
    · rfl
    · split
      · rfl
      · rename_i pid _
        by_cases hpid : pid' = pid
        · rw [hpid]
          dsimp only
          rw [modifyProcess_self]
        · dsimp only
          rw [modifyProcess_ne _ _ hpid]

/-- A use of a translation, seen from the machine. -/
theorem OnCpu.touched_machine (hon : k.OnCpu pid) (a : Access) (v : Addr) :
    (k.touched pid a v).machine = k.machine.touch a v := by
  have htable : (k.machine.touch a v).mmu.currentTable =
      some ((k.processList pid).pageTable.set (v >>> 12)
        (((k.processList pid).pageTable.entry (v >>> 12)).touch a)) := by
    have hvm : k.machine.mmu.vmEnabled = true := hon.vm
    simp only [Machine.touch, MMU.touch, hvm, if_true]
    simp only [machine, hon.table, Option.map_some]
  rw [← withMachine_touch hon.table hon.vm]
  exact machine_withMachine hon.table htable

theorem table_of_mapping {mmu mmu' : MMU} {table : PageTable} (h : mmu'.mapping = mmu.mapping)
    (htable : mmu.currentTable = some table) : ∃ table', mmu'.currentTable = some table' := by
  have hmap : mmu'.currentTable.map _ = mmu.currentTable.map _ := congrArg Prod.snd h
  rw [htable] at hmap
  cases hnew : mmu'.currentTable with
  | none =>
    rw [hnew] at hmap
    cases hmap
  | some table' => exact ⟨table', rfl⟩

section
variable {self : TRef} {cpu : Machine} (hon : k.OnCpu pid)
  (hstep : (k.incrementInstruction self).machine.step = .ok cpu)
include hon hstep

/-- The machine after a step, put back into the kernel: the page of the pc has been used before. -/
theorem withMachine_step : (k.incrementInstruction self).withMachine cpu =
    ((k.incrementInstruction self).clearTrap.touched pid .fetch k.cpu.pc).withMachine cpu := by
  have hmachine : (k.incrementInstruction self).machine.mmu.currentTable =
      some (k.processList pid).pageTable := by
    rw [incrementInstruction_machine]
    simp only [machine, hon.table, Option.map_some]
  obtain ⟨table, htable⟩ := table_of_mapping (Machine.step_mapping hstep) hmachine
  have hon' : (k.incrementInstruction self).clearTrap.OnCpu pid := ⟨hon.table, hon.vm, hon.fault⟩
  obtain ⟨table', htable'⟩ := table_of_mapping (MMU.touch_mapping _ .fetch k.cpu.pc) hmachine
  rw [← withMachine_touch hon'.table hon'.vm, withMachine_withMachine hon'.table htable' htable,
    withMachine_clearTrap]

/-- The kernel when a trap is handled: nothing but referenced bits has changed. -/
theorem trap_pages (htrap : cpu.hasTrap = true) :
    SamePages k ((k.incrementInstruction self).withMachine cpu).clearTrap ∧
      SameFiles k ((k.incrementInstruction self).withMachine cpu).clearTrap ∧
      OnCpu pid ((k.incrementInstruction self).withMachine cpu).clearTrap := by
  let k₁ := (k.incrementInstruction self).clearTrap
  have hon₁ : k₁.OnCpu pid := ⟨hon.table, hon.vm, hon.fault⟩
  obtain ⟨hcount, hcountFiles⟩ := SamePages.of_unthreaded (incrementInstruction_unthreaded k self)
  have hclear : SamePages (k.incrementInstruction self) k₁ := .of_eq rfl rfl rfl rfl (fun _ _ => rfl) rfl
  have hfiles := withMachine_files (k.incrementInstruction self) cpu
  have hfault : (k.incrementInstruction self).machine.mmu.fault = false := hon.fault
  have htouched := withMachine_touch hon₁.table hon₁.vm .fetch k.cpu.pc
  -- the machine after the step: the page of the pc may have been used
  have hmmu : (cpu.mmu.currentTable = k₁.machine.mmu.currentTable ∧ cpu.mmu.memory = k₁.machine.mmu.memory ∨
      cpu.mmu.currentTable = (k₁.machine.touch .fetch k.cpu.pc).mmu.currentTable ∧
        cpu.mmu.memory = (k₁.machine.touch .fetch k.cpu.pc).mmu.memory) ∧
      cpu.mmu.vmEnabled = true ∧ cpu.mmu.fault = false := by
    rcases Machine.step_traps hfault hstep htrap with ⟨v, -, rfl | ⟨-, rfl⟩⟩ | ⟨id, -, rfl⟩
    · exact ⟨.inl ⟨rfl, rfl⟩, hon.vm, rfl⟩
    · exact ⟨.inr ⟨rfl, rfl⟩, (MMU.touch_vmEnabled ..).trans hon.vm, rfl⟩
    · exact ⟨.inr ⟨rfl, rfl⟩, (MMU.touch_vmEnabled ..).trans hon.vm, (MMU.touch_fault ..).trans hon.fault⟩
  have hput : SamePages k₁ ((k.incrementInstruction self).withMachine cpu) := by
    rw [← withMachine_clearTrap]
    rcases hmmu.1 with ⟨htable, hmemory⟩ | ⟨htable, hmemory⟩
    · rw [withMachine_of_mmu k₁ k₁.machine htable hmemory, withMachine_self hon₁.table]
      exact .of_eq rfl rfl rfl rfl (fun _ _ => rfl) rfl
    · rw [withMachine_of_mmu k₁ (k₁.machine.touch .fetch k.cpu.pc) htable hmemory, htouched]
      exact (touched_pages k₁ pid rfl _).1.trans (.of_eq rfl rfl rfl rfl (fun _ _ => rfl) rfl)
  refine ⟨hcount.trans (hclear.trans (hput.trans (.of_eq rfl rfl rfl rfl (fun _ _ => rfl) rfl))),
    hcountFiles.trans (hfiles.trans ⟨rfl, fun _ => rfl⟩), ⟨hon.table, hmmu.2.1, hmmu.2.2⟩⟩

end

/-- A memory that process `pid` may see holds instruction `i` at the pc. -/
structure Sees (m : UserMemory) (pid : Pid) (pc : Addr) (i : Instr) (mem : Nat → Byte) : Prop where
  admits : m.Admits pid mem
  code : ∀ j < 4, mem (pc.toNat + j) = byteAt (encode i) j

/-- An iteration without a trap: the instruction at the pc, on a memory that the process may see. -/
theorem Coherent.user (h : Coherent m k) (hon : k.OnCpu pid) (hactive : (k.processList pid).active = true)
    (h0 : k.cpu.regs.read 0 = 0) (hpc : k.cpu.pc.toNat % 4 = 0) (hfetch : fetched k.machine = encode i)
    (hpage : InPage k.machine i) {self : TRef} {cpu : Machine}
    (hstep : (k.incrementInstruction self).machine.step = .ok cpu) (hdone : cpu.hasTrap = false) :
    ∃ mem, Sees m pid k.cpu.pc i mem ∧
      let x : State Nat := { arch k.machine with mem }
      (arch cpu.advancePC).regs = (Rv32im.exec BitVec.toNat i x).regs ∧
        cpu.pc + 4 = (Rv32im.exec BitVec.toNat i x).pc ∧ cpu.regs.read 0 = 0 ∧
        Coherent (UserMemory.exec m pid i x) ((k.incrementInstruction self).withMachine cpu) := by
  let k₁ := (k.incrementInstruction self).clearTrap.touched pid .fetch k.cpu.pc
  have hput := withMachine_step hon hstep
  rw [incrementInstruction_machine, Machine.step_eq hon.fault] at hstep
  split_ifs at hstep with hacc
  · obtain ⟨w, hload, hexec⟩ := bind_eq_ok.1 hstep
    have hw : w = encode i := by
      rw [← hfetch]
      refine (Memory.load_ok (by decide) hload).2.trans (assemble_congr fun j hj => ?_)
      show _ = k.machine.mmu.memory.byte (loc k.machine.mmu (k.cpu.pc + BitVec.ofNat 32 j))
      rw [loc_add (by omega)]
      rfl
    subst hw
    -- the kernel whose machine executes the instruction
    have hcount := (SamePages.of_unthreaded (incrementInstruction_unthreaded k self)).1
    have hclear : SamePages (k.incrementInstruction self) (k.incrementInstruction self).clearTrap :=
      .of_eq rfl rfl rfl rfl (fun _ _ => rfl) rfl
    have hpages : SamePages k k₁ := hcount.trans (hclear.trans (touched_pages _ pid rfl _).1)
    have hon₁ : k₁.OnCpu pid := ⟨hon.table, hon.vm, hon.fault⟩
    have hmachine : k₁.machine = k.machine.clearTrap.touch .fetch k.cpu.pc := by
      have hclear : (k.incrementInstruction self).clearTrap.OnCpu pid := ⟨hon.table, hon.vm, hon.fault⟩
      rw [hclear.touched_machine, ← incrementInstruction_machine k self]
      rfl
    have harch : arch k₁.machine = arch k.machine := by
      rw [hmachine]
      exact arch_touch k.machine.clearTrap .fetch k.cpu.pc
    have hclearAcc : k.machine.clearTrap.mmu.accessible .fetch k.cpu.pc = true := hacc
    have hloc : loc k₁.machine.mmu = loc k.machine.mmu := by
      rw [hmachine]
      exact loc_touch hclearAcc
    have hpage₁ : InPage k₁.machine i := fun ea n haccess => hpage ea n (harch ▸ haccess)
    have hactive₁ : (k₁.processList pid).active = true := (hpages.process pid).1.trans hactive
    have hallowed : k₁.allowed pid .fetch k.cpu.pc = true := by
      rw [← machine_accessible hon₁.table hon₁.vm, hmachine]
      exact (MMU.touch_accessible hacc .fetch k.cpu.pc).trans hacc
    have hcoh₁ := h.samePages hpages
    rw [show (k.machine.clearTrap.touch .fetch k.machine.pc) = k₁.machine from hmachine.symm] at hexec
    obtain ⟨hregs, hnext, hzero, hcoh⟩ :=
      hcoh₁.execute hon₁ hactive₁ h0 (by rw [hmachine]; rfl) hpage₁ hexec hdone
    rw [harch] at hregs hnext hcoh
    refine ⟨k₁.view m pid, ⟨k₁.view_admits m pid, fun j hj => ?_⟩, hregs, hnext, hzero, hput ▸ hcoh⟩
    have hsum : (k.cpu.pc + BitVec.ofNat 32 j).toNat = k.cpu.pc.toNat + j := by
      have hlt := k.cpu.pc.isLt
      rw [BitVec.toNat_add, BitVec.toNat_ofNat]
      omega
    have hview := hcoh₁.view_resident hon₁ hactive₁ hallowed (j := j) (by omega)
    rw [hsum, hloc] at hview
    rw [hview, ← hfetch, fetched, byteAt_assemble _ hj (by decide)]
    rfl
  · cases hstep
    cases hdone

end Kernel

end Rv32umos
