import Rv32umos.Vm.Refinement

/-!
# Accesses that cross a page boundary

`MMU::translate` runs once, for the first byte of an access; `Memory::load` and `Memory::store` run
over all bytes. `AgreesWithBytes` says what an access of several bytes should be: its one-byte
accesses, taken one by one. `access_agrees_iff` says exactly when it is: inside one page, or when
the first byte faults, or when the next page is accessible too and is the next frame of RAM.
`lw_across_pages` is a word read from a frame that the page table does not map.
-/

namespace Rv32umos

open Rv32im Bytes

namespace MMU

/-- `MMU::fetch` with the number of bytes as a parameter, which the source fixes to 4. -/
def fetchBytes (mmu : MMU) (vaddr : Addr) (size : Nat) : Except Halt (Word × MMU) :=
  let (paddr, mmu) := mmu.translate vaddr false true
  if mmu.fault then .ok (0, mmu)
  else do
    let val ← mmu.memory.load paddr size
    .ok (val, mmu)

theorem fetch_eq_fetchBytes (mmu : MMU) (v : Addr) : mmu.fetch v = mmu.fetchBytes v 4 := rfl

/-- An access of any kind: the value read (0 for a store) and the MMU after it. -/
def access (mmu : MMU) (a : Access) (v : Addr) (n : Nat) (value : Word) :
    Except Halt (Word × MMU) :=
  match a with
  | .load => mmu.loadVirtualMemory v n
  | .store => (mmu.storeVirtualMemory v n value).map fun mmu => (0, mmu)
  | .fetch => mmu.fetchBytes v n

/-- The bytes of an access, the lowest first, each by an access of its own. -/
def accessBytes (mmu : MMU) (a : Access) (v : Addr) (value : Word) : Nat → Except Halt MMU
  | 0 => .ok mmu
  | n + 1 => do
    let mmu ← mmu.accessBytes a v value n
    let (_, mmu) ← mmu.access a (v + BitVec.ofNat 32 n) 1 (value >>> (8 * n))
    .ok mmu

/-- A one-byte access to `v` faults. -/
def ByteFaults (mmu : MMU) (a : Access) (v : Addr) : Prop :=
  ∃ r mmu', mmu.access a v 1 0 = .ok (r, mmu') ∧ mmu'.fault = true

/-- The access is its bytes taken one by one: it faults and leaves RAM alone if one of them faults;
otherwise byte `i` of the value read is the byte a one-byte access at `v + i` reads, and RAM is
what the one-byte accesses leave. -/
structure AgreesWithBytes (mmu : MMU) (a : Access) (v : Addr) (n : Nat) (value : Word) : Prop where
  faults : (∃ i < n, mmu.ByteFaults a (v + BitVec.ofNat 32 i)) →
    ∃ r mmu', mmu.access a v n value = .ok (r, mmu') ∧ mmu'.fault = true ∧
      mmu'.memory = mmu.memory
  returns : (∀ i < n, ¬ mmu.ByteFaults a (v + BitVec.ofNat 32 i)) →
    ∃ r mmu' mmu₁, mmu.access a v n value = .ok (r, mmu') ∧ mmu'.fault = false ∧
      mmu.accessBytes a v value n = .ok mmu₁ ∧ mmu'.memory = mmu₁.memory ∧
      (a ≠ .store → ∀ i < n, ∃ mmu₂,
        mmu.access a (v + BitVec.ofNat 32 i) 1 0 = .ok ((byteAt r i).setWidth 32, mmu₂))

/-- The valid entries of the current page table map frames of physical memory. -/
def MapsRam (mmu : MMU) : Prop :=
  ∀ table vpn pte, mmu.currentTable = some table → table.find? vpn = some pte → pte.valid = true →
    pte.ppn.toNat < NUM_FRAMES

/-! ### One access in closed form -/

section
variable {mmu : MMU} {a : Access} {v : Addr} {n : Nat} {value : Word}

theorem access_read (hfault : mmu.fault = false) (ha : a ≠ .store) :
    mmu.access a v n value =
      if mmu.accessible a v then
        (mmu.memory.load (mmu.physical v) n).map fun val => (val, mmu.touch a v)
      else .ok (0, (mmu.raise v).2) := by
  have htr := translate_eq mmu a v
  have hacc : mmu.access a v n value =
      (let (paddr, mmu) := mmu.translate v a.isWrite a.isExec
       if mmu.fault then .ok (0, mmu)
       else do
        let val ← mmu.memory.load paddr n
        .ok (val, mmu)) := by
    cases a <;> first | rfl | exact absurd rfl ha
  rw [hacc, htr]
  by_cases h : mmu.accessible a v = true
  · simp only [if_pos h, touch_fault, hfault, touch_memory]
    cases mmu.memory.load (mmu.physical v) n <;> rfl
  · simp only [if_neg h]
    rfl

theorem access_store (hfault : mmu.fault = false) :
    mmu.access .store v n value =
      if mmu.accessible .store v then
        (mmu.memory.store (mmu.physical v) n value).map fun memory =>
          (0, { mmu.touch .store v with memory })
      else .ok (0, (mmu.raise v).2) := by
  have htr := translate_eq mmu .store v
  simp only [Access.isWrite, Access.isExec] at htr
  simp only [access, storeVirtualMemory, htr]
  split
  · simp only [touch_fault, hfault, touch_memory]
    cases mmu.memory.store (mmu.physical v) n value <;> rfl
  · rfl

theorem access_inaccessible (hfault : mmu.fault = false) (hacc : mmu.accessible a v = false) :
    mmu.access a v n value = .ok (0, (mmu.raise v).2) := by
  by_cases ha : a = .store
  · subst ha
    rw [access_store hfault, hacc]
    rfl
  · rw [access_read hfault ha, hacc]
    rfl

/-- A stale fault flag makes every access fault. -/
theorem access_stale (a : Access) (v : Addr) (n : Nat) (value : Word) (hfault : mmu.fault = true) :
    ∃ r mmu', mmu.access a v n value = .ok (r, mmu') ∧ mmu'.fault = true ∧
      mmu'.memory = mmu.memory := by
  have htr := translate_eq mmu a v
  have hset : (mmu.translate v a.isWrite a.isExec).2.fault = true := by
    rw [htr]
    split_ifs
    · rw [touch_fault, hfault]
    · rfl
  have hmem : (mmu.translate v a.isWrite a.isExec).2.memory = mmu.memory := by
    rw [htr]
    split_ifs
    · rw [touch_memory]
    · rfl
  refine ⟨0, _, ?_, hset, hmem⟩
  cases a with
  | load => exact if_pos hset
  | fetch => exact if_pos hset
  | store =>
    have hstore : mmu.storeVirtualMemory v n value = .ok (mmu.translate v true false).2 :=
      if_pos hset
    rw [access, hstore]
    rfl

theorem physical_lt (hvm : mmu.vmEnabled = true) (hram : mmu.MapsRam)
    (hacc : mmu.accessible a v = true) : (mmu.physical v).toNat < MEMORY_SIZE := by
  simp only [accessible, hvm, Bool.not_true, Bool.false_or, walk] at hacc
  cases htable : mmu.currentTable with
  | none => simp [htable] at hacc
  | some table =>
    cases hpte : table.find? (v >>> 12) with
    | none => simp [htable, hpte] at hacc
    | some pte =>
      simp only [htable, hpte, Option.bind_some, Option.any_some, Bool.and_eq_true] at hacc
      have hlt := hram table (v >>> 12) pte htable hpte hacc.1
      simp only [physical, hvm, if_true, walk, htable, Option.bind_some, hpte, Option.getD_some]
      rw [toNat_frame_or]
      simp only [NUM_FRAMES, MEMORY_SIZE, PHYSICAL_RAM_KB, KERNEL_PAGE_SIZE] at hlt ⊢
      omega

/-- What an access that translation allows, and that fits into RAM, leaves there. -/
def memoryAfter (mmu : MMU) (a : Access) (v : Addr) (n : Nat) (value : Word) : Memory :=
  if a = .store then ⟨overlay mmu.memory.byte (mmu.physical v).toNat n (byteAt value)⟩
  else mmu.memory

/-- The value such an access reads. -/
def valueRead (mmu : MMU) (a : Access) (v : Addr) (n : Nat) : Word :=
  if a = .store then 0
  else assemble (fun i => mmu.memory.byte ((mmu.physical v).toNat + i)) n

theorem access_fits (value : Word) (hfault : mmu.fault = false)
    (hacc : mmu.accessible a v = true) (hn : 0 < n)
    (hfits : (mmu.physical v).toNat + n ≤ MEMORY_SIZE) :
    mmu.access a v n value =
      .ok (mmu.valueRead a v n, { mmu.touch a v with memory := mmu.memoryAfter a v n value }) := by
  by_cases ha : a = .store
  · subst ha
    rw [access_store hfault, if_pos hacc, Memory.store_of_fits _ hn value hfits]
    rfl
  · rw [access_read hfault ha, if_pos hacc, Memory.load_of_fits _ hn hfits, valueRead, memoryAfter,
      if_neg ha, if_neg ha, ← touch_memory mmu a v]
    rfl

theorem access_ok_fits {r : Word × MMU} (hfault : mmu.fault = false)
    (hacc : mmu.accessible a v = true) (hn : 0 < n) (h : mmu.access a v n value = .ok r) :
    (mmu.physical v).toNat + n ≤ MEMORY_SIZE := by
  by_cases ha : a = .store
  · subst ha
    rw [access_store hfault, if_pos hacc] at h
    cases hstore : mmu.memory.store (mmu.physical v) n value with
    | error e => rw [hstore] at h; cases h
    | ok memory => exact (Memory.store_ok hn hstore).1
  · rw [access_read hfault ha, if_pos hacc] at h
    cases hload : mmu.memory.load (mmu.physical v) n with
    | error e => rw [hload] at h; cases h
    | ok val => exact (Memory.load_ok hn hload).1

theorem byteFaults_iff (hvm : mmu.vmEnabled = true) (hram : mmu.MapsRam)
    (hfault : mmu.fault = false) : mmu.ByteFaults a v ↔ mmu.accessible a v = false := by
  rcases hacc : mmu.accessible a v with _ | _
  · simp only [iff_true]
    exact ⟨_, _, access_inaccessible hfault hacc, rfl⟩
  · simp only [Bool.true_eq_false, iff_false]
    rintro ⟨r, mmu', h, hset⟩
    rw [access_fits _ hfault hacc Nat.one_pos (physical_lt hvm hram hacc)] at h
    cases h
    rw [touch_fault, hfault] at hset
    cases hset

/-! ### The bytes one by one -/

theorem byteAt_shift (value : Word) (k : Nat) : byteAt (value >>> (8 * k)) 0 = byteAt value k := by
  apply BitVec.eq_of_getLsbD_eq
  intro i hi
  simp [byteAt, hi]

/-- Equal in all that translation depends on, with no fault recorded. -/
structure SameTranslation (mmu mmu' : MMU) : Prop where
  fault : mmu'.fault = false
  accessible : mmu'.accessible = mmu.accessible
  physical : mmu'.physical = mmu.physical

theorem accessBytes_eq (value : Word) (hvm : mmu.vmEnabled = true) (hram : mmu.MapsRam)
    (hfault : mmu.fault = false)
    (hacc : ∀ i < n, mmu.accessible a (v + BitVec.ofNat 32 i) = true) :
    ∃ mmu', mmu.accessBytes a v value n = .ok mmu' ∧ SameTranslation mmu mmu' ∧
      mmu'.memory.byte =
        if a = .store then storeBytes (loc mmu) v value n mmu.memory.byte
        else mmu.memory.byte := by
  induction n with
  | zero => exact ⟨mmu, rfl, ⟨hfault, rfl, rfl⟩, by split <;> rfl⟩
  | succ n ih =>
    obtain ⟨mmu₁, hrun, hsame, hmem⟩ := ih fun i hi => hacc i (by omega)
    have hacc₁ : mmu₁.accessible a (v + BitVec.ofNat 32 n) = true := by
      rw [hsame.accessible]
      exact hacc n (by omega)
    have hfits : (mmu₁.physical (v + BitVec.ofNat 32 n)).toNat + 1 ≤ MEMORY_SIZE := by
      rw [hsame.physical]
      exact physical_lt hvm hram (hacc n (by omega))
    have hstep := access_fits (value >>> (8 * n)) hsame.fault hacc₁ Nat.one_pos hfits
    refine ⟨{ mmu₁.touch a (v + BitVec.ofNat 32 n) with
        memory := mmu₁.memoryAfter a (v + BitVec.ofNat 32 n) 1 (value >>> (8 * n)) },
      bind_eq_ok.2 ⟨mmu₁, hrun, bind_eq_ok.2 ⟨_, hstep, rfl⟩⟩, ⟨?_, ?_, ?_⟩, ?_⟩
    · exact (touch_fault _ _ _).trans hsame.fault
    · funext b w
      exact (touch_accessible hacc₁ b w).trans (congrFun (congrFun hsame.accessible b) w)
    · funext w
      exact (touch_physical hacc₁ w).trans (congrFun hsame.physical w)
    · show (mmu₁.memoryAfter _ _ _ _).byte = _
      unfold memoryAfter
      split_ifs at hmem ⊢ with ha
      · show overlay mmu₁.memory.byte _ 1 _ = _
        rw [overlay_one, byteAt_shift, hmem, hsame.physical]
        rfl
      · exact hmem

/-! ### When an access agrees with its bytes -/

/-- Every byte of the access is accessible and lies where one translation puts it. -/
def Contiguous (mmu : MMU) (a : Access) (v : Addr) (n : Nat) : Prop :=
  ∀ i < n, mmu.accessible a (v + BitVec.ofNat 32 i) = true ∧
    (mmu.physical (v + BitVec.ofNat 32 i)).toNat = (mmu.physical v).toNat + i

theorem contiguous_of_page (hpage : v.toNat % 4096 + n ≤ 4096)
    (hacc : mmu.accessible a v = true) : mmu.Contiguous a v n := by
  intro i hi
  exact ⟨(accessible_add (by omega) a).trans hacc, physical_add (by omega)⟩

/-- Stores whose bytes lie one after the other overlay one range of RAM. -/
theorem storeBytes_contiguous (h : ∀ i < n, loc mmu (v + BitVec.ofNat 32 i) = loc mmu v + i)
    (mem : Nat → Bytes.Byte) :
    storeBytes (loc mmu) v value n mem = overlay mem (loc mmu v) n (byteAt value) := by
  induction n with
  | zero => rw [overlay_zero]; rfl
  | succ n ih =>
    rw [storeBytes, ih fun i hi => h i (by omega), h n (by omega)]
    exact update_overlay mem (loc mmu v) n (byteAt value)

theorem add_ofNat_zero (v : Addr) : v + BitVec.ofNat 32 0 = v := BitVec.add_zero v

theorem agrees_of_stale (hfault : mmu.fault = true) (hn : 0 < n) :
    mmu.AgreesWithBytes a v n value where
  faults _ := access_stale a v n value hfault
  returns h := by
    obtain ⟨r, mmu', hr, hset, -⟩ :=
      access_stale a (v + BitVec.ofNat 32 0) 1 0 hfault
    exact absurd ⟨r, mmu', hr, hset⟩ (h 0 hn)

theorem agrees_of_contiguous (hvm : mmu.vmEnabled = true) (hram : mmu.MapsRam)
    (hfault : mmu.fault = false) (hn : 0 < n) (hn4 : n ≤ 4) (h : mmu.Contiguous a v n) :
    mmu.AgreesWithBytes a v n value where
  faults := by
    rintro ⟨i, hi, hbyte⟩
    rw [byteFaults_iff hvm hram hfault, (h i hi).1] at hbyte
    cases hbyte
  returns _ := by
    have hacc : mmu.accessible a v = true := add_ofNat_zero v ▸ (h 0 hn).1
    have hfits : (mmu.physical v).toNat + n ≤ MEMORY_SIZE := by
      have hlast := physical_lt hvm hram (h (n - 1) (by omega)).1
      rw [(h (n - 1) (by omega)).2] at hlast
      omega
    obtain ⟨mmu₁, hrun, -, hmem⟩ :=
      accessBytes_eq value hvm hram hfault fun i hi => (h i hi).1
    refine ⟨_, _, mmu₁, access_fits _ hfault hacc hn hfits, (touch_fault _ _ _).trans hfault, hrun,
      ?_, fun ha i hi => ?_⟩
    · show mmu.memoryAfter a v n value = mmu₁.memory
      rw [memoryAfter]
      split_ifs at hmem ⊢ with ha
      · rw [storeBytes_contiguous fun i hi => (h i hi).2] at hmem
        exact congrArg Memory.mk hmem.symm
      · exact congrArg Memory.mk hmem.symm
    · refine ⟨_, (access_fits _ hfault (h i hi).1 Nat.one_pos
        (physical_lt hvm hram (h i hi).1)).trans (congrArg (fun x => Except.ok (x, _)) ?_)⟩
      rw [valueRead, valueRead, if_neg ha, if_neg ha, assemble_one, Nat.add_zero,
        byteAt_assemble _ hi hn4, (h i hi).2]

theorem agrees_of_inaccessible (hvm : mmu.vmEnabled = true) (hram : mmu.MapsRam)
    (hfault : mmu.fault = false) (hn : 0 < n) (hacc : mmu.accessible a v = false) :
    mmu.AgreesWithBytes a v n value where
  faults _ := ⟨0, _, access_inaccessible hfault hacc, rfl, rfl⟩
  returns h := by
    refine absurd ((byteFaults_iff hvm hram hfault).2 ?_) (h 0 hn)
    rw [add_ofNat_zero]
    exact hacc

/-- A byte that stores over zeros have set was stored by one of them. -/
theorem storeBytes_ne_zero {p : Nat}
    (h : storeBytes (loc mmu) v value n (fun _ => 0) p ≠ 0) :
    ∃ j < n, p = loc mmu (v + BitVec.ofNat 32 j) ∧ byteAt value j ≠ 0 := by
  induction n with
  | zero => exact absurd rfl h
  | succ n ih =>
    by_cases hp : p = loc mmu (v + BitVec.ofNat 32 n)
    · subst hp
      rw [storeBytes, Function.update_self] at h
      exact ⟨n, by omega, rfl, h⟩
    · rw [storeBytes, Function.update_of_ne hp] at h
      obtain ⟨j, hj, hjp⟩ := ih h
      exact ⟨j, by omega, hjp⟩

/-- The word whose only nonzero byte is byte `i`. -/
theorem byteAt_oneByte {i j : Nat} (hi : i < 4) (hj : j < 4) :
    byteAt (1#32 <<< (8 * i)) j ≠ 0 ↔ j = i := by
  interval_cases i <;> interval_cases j <;> decide

theorem accessible_of_agrees (hvm : mmu.vmEnabled = true) (hram : mmu.MapsRam)
    (hfault : mmu.fault = false) (hn : 0 < n) (hacc : mmu.accessible a v = true)
    (h : mmu.AgreesWithBytes a v n value) {i : Nat} (hi : i < n) :
    mmu.accessible a (v + BitVec.ofNat 32 i) = true := by
  by_contra hno
  rw [Bool.not_eq_true] at hno
  obtain ⟨r, mmu', hr, hset, -⟩ := h.faults ⟨i, hi, (byteFaults_iff hvm hram hfault).2 hno⟩
  rw [access_fits _ hfault hacc hn (access_ok_fits hfault hacc hn hr)] at hr
  cases hr
  rw [touch_fault, hfault] at hset
  cases hset

theorem no_byteFaults (hvm : mmu.vmEnabled = true) (hram : mmu.MapsRam)
    (hfault : mmu.fault = false)
    (hbytes : ∀ i < n, mmu.accessible a (v + BitVec.ofNat 32 i) = true) (memory : Memory) :
    ∀ i < n, ¬ ByteFaults { mmu with memory } a (v + BitVec.ofNat 32 i) := by
  intro i hi hbyte
  have hvm₀ : ({ mmu with memory } : MMU).vmEnabled = true := hvm
  have hfault₀ : ({ mmu with memory } : MMU).fault = false := hfault
  have hno := (byteFaults_iff hvm₀ hram hfault₀).1 hbyte
  exact absurd ((hbytes i hi).symm.trans hno) Bool.noConfusion

/-- Whatever RAM holds, agreement puts byte `i` where the one translation puts it. -/
theorem physical_of_agrees (hvm : mmu.vmEnabled = true) (hram : mmu.MapsRam)
    (hfault : mmu.fault = false) (hn : 0 < n) (hn4 : n ≤ 4)
    (h : ∀ memory value, AgreesWithBytes { mmu with memory } a v n value)
    (hbytes : ∀ i < n, mmu.accessible a (v + BitVec.ofNat 32 i) = true) {i : Nat} (hi : i < n) :
    (mmu.physical (v + BitVec.ofNat 32 i)).toNat = (mmu.physical v).toNat + i := by
  have hacc : mmu.accessible a v = true := add_ofNat_zero v ▸ hbytes 0 hn
  by_cases ha : a = .store
  · -- stored over zeros, the only nonzero byte must be where the one-byte store puts it
    subst ha
    let mmu₀ : MMU := { mmu with memory := Memory.zero }
    have hvm₀ : mmu₀.vmEnabled = true := hvm
    have hfault₀ : mmu₀.fault = false := hfault
    have hacc₀ : mmu₀.accessible .store v = true := hacc
    let value : Word := 1#32 <<< (8 * i)
    obtain ⟨r, mmu', mmu₁, hr, -, hrun, hmem, -⟩ :=
      (h Memory.zero value).returns (no_byteFaults hvm hram hfault hbytes Memory.zero)
    have hr' := access_fits value hfault₀ hacc₀ hn (access_ok_fits hfault₀ hacc₀ hn hr)
    cases hr'.symm.trans hr
    have hbytes₀ : ∀ j < n, mmu₀.accessible .store (v + BitVec.ofNat 32 j) = true := hbytes
    obtain ⟨mmu₂, hrun', -, hmem'⟩ := accessBytes_eq value hvm₀ hram hfault₀ hbytes₀
    cases hrun'.symm.trans hrun
    have hbyte : storeBytes (loc mmu₀) v value n (fun _ => 0) ((mmu.physical v).toNat + i) ≠ 0 := by
      have hat : overlay (fun _ => 0) (mmu.physical v).toNat n (byteAt value) =
          storeBytes (loc mmu₀) v value n (fun _ => 0) :=
        (congrArg Memory.byte hmem).trans hmem'
      rw [← hat, overlay_in _ _ hi]
      exact (byteAt_oneByte (by omega) (by omega)).2 rfl
    obtain ⟨j, hj, hjp, hjv⟩ := storeBytes_ne_zero hbyte
    rw [(byteAt_oneByte (by omega) (by omega)).1 hjv] at hjp
    exact hjp.symm
  · -- with a single 1 in RAM, where the one-byte access reads, the access must read it too
    let m : Memory := ⟨fun p => if p = (mmu.physical (v + BitVec.ofNat 32 i)).toNat then 1 else 0⟩
    let mmu₀ : MMU := { mmu with memory := m }
    have hfault₀ : mmu₀.fault = false := hfault
    have hacc₀ : mmu₀.accessible a v = true := hacc
    have hbyte₀ : mmu₀.accessible a (v + BitVec.ofNat 32 i) = true := hbytes i hi
    have hlt₀ : (mmu₀.physical (v + BitVec.ofNat 32 i)).toNat < MEMORY_SIZE :=
      physical_lt hvm hram (hbytes i hi)
    obtain ⟨r, mmu', mmu₁, hr, -, -, -, hread⟩ :=
      (h m 0).returns (no_byteFaults hvm hram hfault hbytes m)
    have hr' := access_fits 0 hfault₀ hacc₀ hn (access_ok_fits hfault₀ hacc₀ hn hr)
    cases hr'.symm.trans hr
    obtain ⟨mmu₂, hone⟩ := hread ha i hi
    have hone' := access_fits 0 hfault₀ hbyte₀ Nat.one_pos hlt₀
    have hval := congrArg Prod.fst (Except.ok.inj (hone.symm.trans hone'))
    simp only [valueRead, if_neg ha, assemble_one, Nat.add_zero, byteAt_assemble _ hi hn4] at hval
    have hbyte : m.byte ((mmu.physical v).toNat + i) = 1 := by
      have h8 := congrArg (BitVec.setWidth 8) hval
      simp only [BitVec.setWidth_setWidth_of_le _ (show 8 ≤ 32 by decide), BitVec.setWidth_eq] at h8
      exact h8.trans (if_pos rfl)
    by_contra hne
    have hzero : m.byte ((mmu.physical v).toNat + i) = 0 := if_neg fun heq => hne heq.symm
    rw [hzero] at hbyte
    cases hbyte

end

/-- Exactly when an access of several bytes is its one-byte accesses: a fault flag was left set,
or it stays inside one page, or its first byte faults, or all its bytes are accessible and the
frames of its two pages are adjacent in RAM. -/
theorem access_agrees_iff (mmu : MMU) (a : Access) (v : Addr) (n : Nat)
    (hvm : mmu.vmEnabled = true) (hram : mmu.MapsRam) (hn : n = 1 ∨ n = 2 ∨ n = 4) :
    (∀ memory value, AgreesWithBytes { mmu with memory } a v n value) ↔
      mmu.fault = true ∨ v.toNat % 4096 + n ≤ 4096 ∨ mmu.accessible a v = false ∨
        mmu.Contiguous a v n := by
  have hpos : 0 < n := by omega
  have hn4 : n ≤ 4 := by omega
  constructor
  · intro h
    rcases hfault : mmu.fault with _ | _
    · rcases hacc : mmu.accessible a v with _ | _
      · exact .inr (.inr (.inl rfl))
      · have hbytes : ∀ i < n, mmu.accessible a (v + BitVec.ofNat 32 i) = true :=
          fun i hi => accessible_of_agrees hvm hram hfault hpos hacc (h mmu.memory 0) hi
        exact .inr (.inr (.inr fun i hi =>
          ⟨hbytes i hi, physical_of_agrees hvm hram hfault hpos hn4 h hbytes hi⟩))
    · exact .inl rfl
  · intro h memory value
    by_cases hstale : mmu.fault = true
    · exact agrees_of_stale hstale hpos
    · have hfault : mmu.fault = false := Bool.eq_false_of_not_eq_true hstale
      by_cases hacc : mmu.accessible a v = true
      · rcases h with h | h | h | h
        · exact absurd h hstale
        · exact agrees_of_contiguous hvm hram hfault hpos hn4 (contiguous_of_page h hacc)
        · exact absurd (hacc.symm.trans h) Bool.noConfusion
        · exact agrees_of_contiguous hvm hram hfault hpos hn4 h
      · exact agrees_of_inaccessible hvm hram hfault hpos (Bool.eq_false_of_not_eq_true hacc)

/-- Two pages in frames 3 and 7; every byte of RAM holds the number of its frame. -/
def twoPages : MMU where
  memory := ⟨fun p => BitVec.ofNat 8 (p / 4096)⟩
  currentTable := some ((PageTable.empty.set 0 { ppn := 3, valid := true, canRead := true }).set
    1 { ppn := 7, valid := true, canRead := true })
  vmEnabled := true
  fault := false
  faultAddr := 0

theorem twoPages_mapsRam : twoPages.MapsRam := by
  rintro table vpn pte ⟨⟩ hfind -
  rw [PageTable.find?_set, PageTable.find?_set, PageTable.find?_empty] at hfind
  split_ifs at hfind <;> cases hfind <;> decide

theorem access_agrees_iff_twoPages :
    (∀ memory value, AgreesWithBytes { twoPages with memory } .load 0xFFC 4 value) ↔
      twoPages.fault = true ∨ (0xFFC#32).toNat % 4096 + 4 ≤ 4096 ∨
        twoPages.accessible .load 0xFFC = false ∨ twoPages.Contiguous .load 0xFFC 4 :=
  access_agrees_iff twoPages .load 0xFFC 4 rfl twoPages_mapsRam (by decide)

/-- A word load at `0xFFE` reads two bytes of frame 4, which no entry maps, in place of the first
two bytes of page 1. -/
theorem lw_across_pages :
    ¬ ∀ (mmu : MMU) (a : Access) (v : Addr) (n : Nat) (value : Word), mmu.vmEnabled = true →
      mmu.MapsRam → n = 1 ∨ n = 2 ∨ n = 4 → (a = .fetch → n = 4) →
      mmu.AgreesWithBytes a v n value := by
  intro h
  have hagree := h twoPages .load 0xFFE 4 0 rfl twoPages_mapsRam (by decide) (by decide)
  have hno : ∀ i < 4, ¬ twoPages.ByteFaults .load (0xFFE + BitVec.ofNat 32 i) := by
    intro i hi
    rw [byteFaults_iff rfl twoPages_mapsRam rfl]
    interval_cases i <;> decide
  obtain ⟨r, mmu', -, hr, -, -, -, hread⟩ := hagree.returns hno
  obtain ⟨mmu₂, hone⟩ := hread (by decide) 2 (by decide)
  have hword := congrArg (fun x => x.toOption.map Prod.fst) hr
  have hbyte := congrArg (fun x => x.toOption.map Prod.fst) hone
  have hr4 : r = 0x04040303#32 := Option.some.inj (hword.symm.trans (by decide))
  have h7 : (byteAt r 2).setWidth 32 = 7#32 := Option.some.inj (hbyte.symm.trans (by decide))
  rw [hr4] at h7
  exact absurd h7 (by decide)

end MMU

end Rv32umos
