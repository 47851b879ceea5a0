import Rv32umos.Kernel.Coherence
import Rv32umos.Kernel.Ownership

/-!
# Runs of user memory traffic

`Paging.Step`: the threads of any number of processes load, fetch and store at aligned addresses
through the MMU, page faults are served and the access is tried again later, the scheduler switches
between threads at any point, and processes move their break. In every run from a state in which no
page has been used (`Start`), what a completed load or fetch returns is what flat memories would
return: the bytes stored last, or the initial image (`paging_coherent`).
-/

namespace Rv32umos

open Bytes Transition Kernel

namespace Paging

inductive Event where
  /-- A load of `n` bytes that has returned `val`. -/
  | load (pid : Pid) (v : Addr) (n : Nat) (val : Word)
  | fetch (pid : Pid) (v : Addr) (val : Word)
  | store (pid : Pid) (v : Addr) (n : Nat) (value : Word)
  /-- An access that has faulted; the fault has been served. -/
  | fault (pid : Pid) (v : Addr)
  | switch (t : TRef)
  | sbrk (pid : Pid) (increment : Word)

/-- A naturally aligned access. -/
def Aligned (v : Addr) (n : Nat) : Prop := (n = 1 ∨ n = 2 ∨ n = 4) ∧ v.toNat % n = 0

/-- The current thread is one of process `pid`. -/
def Runs (k : Kernel) (pid : Pid) : Prop :=
  ∃ t, k.getCurrentThread = .ok t ∧ (k.thread t).parent = pid

/-- An access of the current thread, which may have faulted. -/
inductive Attempt (k : Kernel) : Kernel → Prop
  | load {v : Addr} {n : Nat} {val : Word} {k' : Kernel} (haligned : Aligned v n)
    (h : k.loadVirtualMemory v n = .ok (val, k')) : Attempt k k'
  | fetch {v : Addr} {val : Word} {k' : Kernel} (haligned : Aligned v 4)
    (h : k.fetchAt v = .ok (val, k')) : Attempt k k'
  | store {v : Addr} {n : Nat} {value : Word} {k' : Kernel} (haligned : Aligned v n)
    (h : k.storeVirtualMemory v n value = .ok k') : Attempt k k'

inductive Step (k : Kernel) : Event → Kernel → Prop
  | load {pid : Pid} {v : Addr} {n : Nat} {val : Word} {k' : Kernel} (hruns : Runs k pid)
    (haligned : Aligned v n) (h : k.loadVirtualMemory v n = .ok (val, k'))
    (hdone : k'.cpu.trap.type = .None) : Step k (.load pid v n val) k'
  | fetch {pid : Pid} {v : Addr} {val : Word} {k' : Kernel} (hruns : Runs k pid)
    (haligned : Aligned v 4) (h : k.fetchAt v = .ok (val, k'))
    (hdone : k'.cpu.trap.type = .None) : Step k (.fetch pid v val) k'
  | store {pid : Pid} {v : Addr} {n : Nat} {value : Word} {k' : Kernel} (hruns : Runs k pid)
    (haligned : Aligned v n) (h : k.storeVirtualMemory v n value = .ok k')
    (hdone : k'.cpu.trap.type = .None) : Step k (.store pid v n value) k'
  | fault {pid : Pid} {v : Addr} {k₁ k' : Kernel} (hruns : Runs k pid) (hattempt : Attempt k k₁)
    (htrap : k₁.cpu.trap = ⟨.PageFault, v⟩)
    (hserved : k₁.clearTrap.handlePageFault v = .ok (true, k')) : Step k (.fault pid v) k'
  | switch {t : TRef} (hlt : t < k.numThreads) (hready : (k.thread t).state = .READY) :
    Step k (.switch t) (k.contextSwitch t)
  | sbrk {pid : Pid} (hruns : Runs k pid) (increment : Word) :
    Step k (.sbrk pid increment) (k.sbrk pid increment).2

/-- The wiring that the kernel keeps between the machine, the threads and the processes. -/
structure Wired (k : Kernel) : Prop where
  vm : k.cpu.vmEnabled = true
  fault : k.cpu.fault = false
  trap : k.cpu.trap.type = .None
  table : ∀ t, k.currentThreadIndex = some t → k.cpu.currentTable = some (k.thread t).parent
  active : ∀ t < k.numThreads, (k.processList (k.thread t).parent).active = true

/-- A state from which a run may start: no page of an active process has been used. -/
structure Start (k : Kernel) : Prop where
  wired : Wired k
  frames : k.FramesOk
  unused : ∀ pid, (k.processList pid).active = true → ∀ vpn,
    (k.pte pid vpn).valid = false ∧ (k.pte pid vpn).swapped = false
  placed : ∀ pid, (k.processList pid).active = true → WellPlaced (k.processList pid).segments

/-- The user memories before a run: nothing stored. -/
def initialMemory (k : Kernel) : UserMemory where
  stored _ _ := none
  image pid := (k.processList pid).image k.host.files

def Event.apply (m : UserMemory) : Event → UserMemory
  | .store pid v n value => m.store pid v.toNat n (byteAt value)
  | _ => m

/-- The user memories after a run. -/
def memoryAfter (k : Kernel) (es : List Event) : UserMemory := es.foldl Event.apply (initialMemory k)

/-- What a completed read returns is what the user memory holds, wherever that is specified. -/
def Event.Agrees (m : UserMemory) : Event → Prop
  | .load pid v n val => ∀ i < n, ∀ b, m.read pid (v.toNat + i) = some b → byteAt val i = b
  | .fetch pid v val => ∀ i < 4, ∀ b, m.read pid (v.toNat + i) = some b → byteAt val i = b
  | _ => True

variable {m : UserMemory} {k k' : Kernel} {pid : Pid} {v : Addr} {n : Nat}

theorem Aligned.size (h : Aligned v n) : 0 < n ∧ n ≤ 4 := by
  rcases h.1 with rfl | rfl | rfl <;> omega

/-- A naturally aligned access stays inside its page. -/
theorem Aligned.inPage (h : Aligned v n) : v.toNat % 4096 + n ≤ 4096 := by
  obtain ⟨hn, hv⟩ := h
  rcases hn with rfl | rfl | rfl <;> omega

/-! ### Wiring -/

theorem Wired.congr (h : Wired k) (hcpu : k'.cpu = k.cpu) (hthread : k'.thread = k.thread)
    (hnum : k'.numThreads = k.numThreads) (hidx : k'.currentThreadIndex = k.currentThreadIndex)
    (hactive : ∀ pid, (k'.processList pid).active = (k.processList pid).active) : Wired k' where
  vm := hcpu ▸ h.vm
  fault := hcpu ▸ h.fault
  trap := hcpu ▸ h.trap
  table t ht := by
    rw [hcpu, hthread]
    exact h.table t (hidx ▸ ht)
  active t ht := by
    rw [hthread, hactive]
    exact h.active t (hnum ▸ ht)

theorem Wired.of_unpaged (h : Wired k) (heq : k'.unpaged = k.unpaged) : Wired k' := by
  have hcpu : k'.cpu = k.cpu := by
    have hfield := congrArg Kernel.cpu heq
    exact hfield
  have hthread : k'.thread = k.thread := by
    have hfield := congrArg Kernel.thread heq
    exact hfield
  have hnum : k'.numThreads = k.numThreads := by
    have hfield := congrArg Kernel.numThreads heq
    exact hfield
  have hidx : k'.currentThreadIndex = k.currentThreadIndex := by
    have hfield := congrArg Kernel.currentThreadIndex heq
    exact hfield
  exact h.congr hcpu hthread hnum hidx (active_of_unpaged heq)

/-- The process whose thread runs is active, and the MMU works on its page table. -/
theorem Wired.runs (h : Wired k) (hruns : Runs k pid) :
    (k.processList pid).active = true ∧ k.cpu.currentTable = some pid := by
  obtain ⟨t, ht, rfl⟩ := hruns
  obtain ⟨hidx, hlt⟩ := getCurrentThread_eq.1 ht
  exact ⟨h.active t hlt, h.table t hidx⟩

theorem Wired.switch (h : Wired k) (t : TRef) : Wired (k.contextSwitch t) := by
  have hparent : ∀ u, (Function.update k.savedThread t { k.savedThread t with state := .RUNNING }
      u).parent = (k.thread u).parent := by
    intro u
    by_cases hu : u = t
    · rw [hu, Function.update_self]
      exact savedThread_parent k t
    · rw [Function.update_of_ne hu]
      exact savedThread_parent k u
  rw [contextSwitch_eq]
  refine ⟨h.vm, h.fault, h.trap, fun u hu => ?_, fun u hu => ?_⟩
  · cases hu
    dsimp only
    rw [hparent]
    unfold switchedTable
    split
    · rfl
    · rename_i prev hprev
      split
      · rfl
      · rename_i hsame
        rw [h.table prev hprev, not_not.1 hsame]
  · dsimp only
    rw [hparent]
    exact h.active u hu

/-! ### Steps -/

section
variable (h : Wired k) (hruns : Runs k pid)
include h hruns

/-- What an attempted access does: it goes through, and then the entry allows it, or it traps. -/
theorem load_cases {val : Word} (hload : k.loadVirtualMemory v n = .ok (val, k')) :
    (k.allowed pid .load v = true ∧
      k.memory.load ((k.pte pid (v >>> 12)).paddr v) n = .ok val ∧ k' = k.touched pid .load v) ∨
    k' = k.trapped v := by
  rw [loadVirtualMemory_eq (h.runs hruns).2 h.vm h.fault] at hload
  split at hload
  · rename_i hallowed
    cases hmem : k.memory.load ((k.pte pid (v >>> 12)).paddr v) n with
    | error e =>
      rw [hmem] at hload
      cases hload
    | ok w =>
      rw [hmem] at hload
      cases hload
      exact .inl ⟨hallowed, rfl, rfl⟩
  · cases hload
    exact .inr rfl

theorem fetch_cases {val : Word} (hfetch : k.fetchAt v = .ok (val, k')) :
    (k.allowed pid .fetch v = true ∧
      k.memory.load ((k.pte pid (v >>> 12)).paddr v) 4 = .ok val ∧ k' = k.touched pid .fetch v) ∨
    k' = k.trapped v := by
  rw [fetchAt_eq (h.runs hruns).2 h.vm h.fault] at hfetch
  split at hfetch
  · rename_i hallowed
    cases hmem : k.memory.load ((k.pte pid (v >>> 12)).paddr v) 4 with
    | error e =>
      rw [hmem] at hfetch
      cases hfetch
    | ok w =>
      rw [hmem] at hfetch
      cases hfetch
      exact .inl ⟨hallowed, rfl, rfl⟩
  · cases hfetch
    exact .inr rfl

theorem store_cases {value : Word} (hstore : k.storeVirtualMemory v n value = .ok k') :
    (k.allowed pid .store v = true ∧ ∃ memory,
      k.memory.store ((k.pte pid (v >>> 12)).paddr v) n value = .ok memory ∧
      k' = { k.touched pid .store v with memory }) ∨
    k' = k.trapped v := by
  rw [storeVirtualMemory_eq (h.runs hruns).2 h.vm h.fault] at hstore
  split at hstore
  · rename_i hallowed
    cases hmem : k.memory.store ((k.pte pid (v >>> 12)).paddr v) n value with
    | error e =>
      rw [hmem] at hstore
      cases hstore
    | ok memory =>
      rw [hmem] at hstore
      cases hstore
      exact .inl ⟨hallowed, memory, rfl, rfl⟩
  · cases hstore
    exact .inr rfl

end

theorem trapped_not_done (k : Kernel) (v : Addr) : (k.trapped v).cpu.trap.type ≠ .None := by
  show TrapType.PageFault ≠ .None
  decide

/-- A faulting attempt has changed nothing but the trap. -/
theorem attempt_trapped (h : Wired k) (hruns : Runs k pid) (hattempt : Attempt k k')
    (htrap : k'.cpu.trap = ⟨.PageFault, v⟩) : k' = k.trapped v := by
  have hnone : k.cpu.trap.type ≠ .PageFault := by
    rw [h.trap]
    decide
  have hvalue : ∀ w, k' = k.trapped w → k' = k.trapped v := by
    intro w hw
    have htrap' : k'.cpu.trap = ⟨.PageFault, w⟩ := hw ▸ rfl
    have hvw : w = v := congrArg Trap.value (htrap'.symm.trans htrap)
    rw [hw, hvw]
  have huntouched : k'.cpu.trap = k.cpu.trap → False := by
    intro heq
    rw [heq] at htrap
    exact hnone (congrArg Trap.type htrap)
  cases hattempt with
  | load haligned hload =>
    rcases load_cases h hruns hload with ⟨-, -, rfl⟩ | htrapped
    · exact absurd rfl huntouched
    · exact hvalue _ htrapped
  | fetch haligned hfetch =>
    rcases fetch_cases h hruns hfetch with ⟨-, -, rfl⟩ | htrapped
    · exact absurd rfl huntouched
    · exact hvalue _ htrapped
  | store haligned hstore =>
    rcases store_cases h hruns hstore with ⟨-, memory, -, rfl⟩ | htrapped
    · exact absurd rfl huntouched
    · exact hvalue _ htrapped

/-- A served fault keeps the user memories. -/
theorem fault_coherent (h : Wired k) (hcoh : Coherent m k) (hruns : Runs k pid)
    (hserved : (k.trapped v).clearTrap.handlePageFault v = .ok (true, k')) :
    Coherent m k' ∧ Wired k' := by
  obtain ⟨hactive, htable⟩ := h.runs hruns
  obtain ⟨t, ht, hparent⟩ := hruns
  have hcoh₁ : Coherent m (k.trapped v).clearTrap := hcoh.congr rfl (fun _ _ => rfl) rfl rfl rfl
    ⟨rfl, fun _ => ⟨rfl, rfl, rfl⟩⟩
  have hwired₁ : Wired (k.trapped v).clearTrap := ⟨h.vm, rfl, rfl, h.table, h.active⟩
  obtain ⟨current, hcurrent, hserved⟩ := bind_eq_ok.1 hserved
  have hcur : current = t := Except.ok.inj (hcurrent.symm.trans ht)
  obtain ⟨⟨handled, k₂⟩, hserve, hserved⟩ := bind_eq_ok.1 hserved
  have hpid : ((k.trapped v).clearTrap.thread current).parent = pid := by
    rw [hcur]
    exact hparent
  rw [hpid] at hserve
  have hensured := hcoh₁.ensure (pid, v >>> 12) hactive
  rcases servePageFault_cases hcoh₁.frames hserve with ⟨rfl, rfl⟩ | ⟨rfl, hinvalid, hserve⟩
  · -- the fault was not handled, and the process is dead
    obtain ⟨⟨killed, k₃⟩, -, hserved⟩ := bind_eq_ok.1 hserved
    dsimp only at hserved
    split at hserved <;> cases hserved
  · cases hserved
    have hact : (((k.trapped v).clearTrap.setPTE pid (v >>> 12)
        ((k.trapped v).clearTrap.pte pid (v >>> 12))).processList pid).active = true :=
      (active_of_unpaged (unpaged_setPTE _ _ _ _) pid).trans hactive
    have hinv : (((k.trapped v).clearTrap.setPTE pid (v >>> 12)
        ((k.trapped v).clearTrap.pte pid (v >>> 12))).pte pid (v >>> 12)).valid = false := by
      rw [pte_setPTE_self]
      exact hinvalid
    have hunpaged := (hserve.framesOk hensured.frames hact).2
    exact ⟨hensured.served hact hinv rfl hserve,
      hwired₁.of_unpaged (hunpaged.trans (unpaged_setPTE _ _ _ _))⟩

theorem sbrk_coherent (hcoh : Coherent m k) (h : Wired k) (pid : Pid) (increment : Word) :
    Coherent m (k.sbrk pid increment).2 ∧ Wired (k.sbrk pid increment).2 := by
  unfold sbrk
  dsimp only
  split
  · exact ⟨hcoh, h⟩
  · have hprocess : ∀ pid', (k.modifyProcess pid fun p =>
        { p with programBreak := (k.processList pid).programBreak + increment }).processList pid' =
          { k.processList pid' with programBreak := if pid' = pid then
            (k.processList pid).programBreak + increment else (k.processList pid').programBreak } := by
      intro pid'
      by_cases hpid : pid' = pid
      · rw [hpid, modifyProcess_self, if_pos rfl]
      · rw [modifyProcess_ne k _ hpid, if_neg hpid]
    have hsame : SameImages k (k.modifyProcess pid fun p =>
        { p with programBreak := (k.processList pid).programBreak + increment }) := by
      refine ⟨rfl, fun pid' => ?_⟩
      rw [hprocess]
      exact ⟨rfl, rfl, rfl⟩
    have hpte : ∀ pid' vpn, (k.modifyProcess pid fun p =>
        { p with programBreak := (k.processList pid).programBreak + increment }).pte pid' vpn =
          k.pte pid' vpn := by
      intro pid' vpn
      rw [pte, pte, hprocess]
    constructor
    · refine hcoh.congr ?_ hpte ?_ ?_ ?_ hsame <;> rfl
    · exact h.congr rfl rfl rfl rfl fun pid' => (hsame.2 pid').1

/-- The step lemma: the kernel keeps simulating the user memories, and reads agree with them. -/
theorem step_coherent {e : Event} (hcoh : Coherent m k) (h : Wired k) (hstep : Step k e k') :
    Coherent (e.apply m) k' ∧ Wired k' ∧ e.Agrees m := by
  cases hstep with
  | load hruns haligned hload hdone =>
    obtain ⟨hn, hn'⟩ := haligned.size
    rcases load_cases h hruns hload with ⟨hallowed, hmem, rfl⟩ | rfl
    · have hactive := (h.runs hruns).1
      refine ⟨hcoh.touched hactive hallowed rfl, h.of_unpaged (unpaged_setPTE _ _ _ _), ?_⟩
      intro i hi b hb
      exact hcoh.load_agrees hactive hallowed hn hn' haligned.inPage hmem hi hb
    · exact absurd hdone (trapped_not_done k _)
  | fetch hruns haligned hfetch hdone =>
    rcases fetch_cases h hruns hfetch with ⟨hallowed, hmem, rfl⟩ | rfl
    · have hactive := (h.runs hruns).1
      refine ⟨hcoh.touched hactive hallowed rfl, h.of_unpaged (unpaged_setPTE _ _ _ _), ?_⟩
      intro i hi b hb
      exact hcoh.load_agrees hactive hallowed (by decide) le_rfl haligned.inPage hmem hi hb
    · exact absurd hdone (trapped_not_done k _)
  | @store pid v n value _ hruns haligned hstore hdone =>
    rcases store_cases h hruns hstore with ⟨hallowed, memory, hmem, rfl⟩ | rfl
    · have hactive := (h.runs hruns).1
      have hunpaged : ({ k.touched pid .store v with memory } : Kernel).unpaged = k.unpaged :=
        unpaged_setPTE k pid (v >>> 12) ((k.pte pid (v >>> 12)).touch .store)
      exact ⟨hcoh.stored hactive hallowed haligned.size.1 haligned.inPage hmem,
        h.of_unpaged hunpaged, trivial⟩
    · exact absurd hdone (trapped_not_done k _)
  | fault hruns hattempt htrap hserved =>
    rw [attempt_trapped h hruns hattempt htrap] at hserved
    obtain ⟨hcoh', h'⟩ := fault_coherent h hcoh hruns hserved
    exact ⟨hcoh', h', trivial⟩
  | switch hlt hready =>
    refine ⟨?_, h.switch _, trivial⟩
    rw [contextSwitch_eq]
    exact hcoh.congr rfl (fun _ _ => rfl) rfl rfl rfl ⟨rfl, fun _ => ⟨rfl, rfl, rfl⟩⟩
  | sbrk hruns increment =>
    obtain ⟨hcoh', h'⟩ := sbrk_coherent hcoh h _ increment
    exact ⟨hcoh', h', trivial⟩

theorem start_coherent (h : Start k) : Coherent (initialMemory k) k where
  frames := h.frames
  pages o hactive := by
    obtain ⟨hinvalid, hunswapped⟩ := h.unused o.1 hactive o.2
    refine ⟨fun hvalid => ?_, fun _ hswapped => ?_, fun _ _ _ => rfl⟩
    · exact absurd (hvalid.symm.trans hinvalid) (by decide)
    · exact absurd (hswapped.symm.trans hunswapped) (by decide)
  slots := by
    rintro o o' ⟨hactive, -, hswapped⟩ - -
    exact absurd (hswapped.symm.trans (h.unused o.1 hactive o.2).2) (by decide)
  image _ _ := rfl
  placed := h.placed

/-- In every run, at every point of it, a completed load or fetch returns for each byte what was
stored there last, and for a byte of a segment or heap page that nothing was stored to its initial
image. -/
theorem paging_coherent {k₀ : Kernel} {es : List Event} {e : Event} (hstart : Start k₀)
    (hrun : Run Step k₀ es k) (hstep : Step k e k') : e.Agrees (memoryAfter k₀ es) := by
  have hinv : Coherent (memoryAfter k₀ es) k ∧ Wired k := by
    apply hrun.induct fun es k => Coherent (memoryAfter k₀ es) k ∧ Wired k
    · exact ⟨start_coherent hstart, hstart.wired⟩
    · rintro es s e s' ⟨hcoh, hwired⟩ hstep
      obtain ⟨hcoh', hwired', -⟩ := step_coherent hcoh hwired hstep
      unfold memoryAfter at hcoh' ⊢
      rw [List.foldl_append]
      exact ⟨hcoh', hwired'⟩
  exact (step_coherent hinv.1 hinv.2 hstep).2.2

/-- Process 0 with a heap and no segments, and its main thread. -/
def oneProcess : Kernel :=
  let k := init ⟨fun _ => none, ⟨[], [], []⟩⟩
  { k with
    cpu := { k.cpu with vmEnabled := true, currentTable := some 0 }
    processList := Function.update k.processList 0 { Process.new [] with active := true }
    numThreads := 1
    currentThreadIndex := some 0 }

theorem oneProcess_process (pid : Pid) :
    oneProcess.processList pid = { Process.new [] with active := decide (pid = 0) } := by
  unfold oneProcess
  dsimp only
  by_cases hpid : pid = 0
  · rw [hpid, Function.update_self]
    rfl
  · rw [Function.update_of_ne hpid, decide_eq_false hpid]
    rfl

theorem oneProcess_start : Start oneProcess where
  wired := ⟨rfl, rfl, rfl, fun _ _ => rfl, fun _ _ => rfl⟩
  frames := by
    have hframe : oneProcess.pageFrame = (init ⟨fun _ => none, ⟨[], [], []⟩⟩).pageFrame := by
      funext o
      rw [pageFrame_of_inactive (k := init _) rfl]
      apply pageFrame_of_invalid
      rw [pte, oneProcess_process]
      rfl
    rw [FramesOk, hframe]
    exact init_framesOk _
  unused pid _ vpn := by
    rw [pte, oneProcess_process]
    exact ⟨rfl, rfl⟩
  placed pid _ := by
    rw [oneProcess_process]
    refine ⟨fun seg hmem => ?_, fun seg hmem => ?_, .nil⟩
    · cases hmem
    · cases hmem

/-- It grows its heap and stores a word there; the store faults first. -/
theorem paging_coherent_heap : ∃ (k k' : Kernel) (es : List Event),
    Run Step oneProcess es k ∧ Step k (.load 0 HEAP_START 4 0x01020304) k' ∧
    (memoryAfter oneProcess es).read 0 HEAP_START = some 0x04 ∧
    (Event.load 0 HEAP_START 4 0x01020304).Agrees (memoryAfter oneProcess es) := by
  have hdec : returns ((oneProcess.sbrk 0 16).2.storeVirtualMemory HEAP_START 4 0x01020304)
      (fun k₁ => decide (k₁.cpu.trap = ⟨.PageFault, HEAP_START⟩) &&
        returns (k₁.clearTrap.handlePageFault HEAP_START) fun served =>
          decide (served.1 = true ∧ served.2.currentThreadIndex = some 0 ∧
            0 < served.2.numThreads ∧ (served.2.thread 0).parent = 0) &&
          returns (served.2.storeVirtualMemory HEAP_START 4 0x01020304) fun k =>
            decide (k.cpu.trap.type = .None ∧ k.currentThreadIndex = some 0 ∧ 0 < k.numThreads ∧
              (k.thread 0).parent = 0) &&
            returns (k.loadVirtualMemory HEAP_START 4) fun loaded =>
              decide (loaded.1 = 0x01020304 ∧ loaded.2.cpu.trap.type = .None)) = true := by
    decide +kernel
  obtain ⟨k₁, hattempt, hdec⟩ := returns_iff.1 hdec
  rw [Bool.and_eq_true] at hdec
  obtain ⟨htrap, hdec⟩ := hdec
  obtain ⟨⟨handled, k₂⟩, hserved, hdec⟩ := returns_iff.1 hdec
  rw [Bool.and_eq_true] at hdec
  obtain ⟨hcurrent, hdec⟩ := hdec
  obtain ⟨rfl, hindex, hnum, hparent⟩ := of_decide_eq_true hcurrent
  obtain ⟨k, hstore, hdec⟩ := returns_iff.1 hdec
  rw [Bool.and_eq_true] at hdec
  obtain ⟨hstored, hdec⟩ := hdec
  obtain ⟨⟨val, k'⟩, hload, hdec⟩ := returns_iff.1 hdec
  obtain ⟨hdone, hindex', hnum', hparent'⟩ := of_decide_eq_true hstored
  obtain ⟨rfl, hdone'⟩ := of_decide_eq_true hdec
  have haligned : Aligned HEAP_START 4 := ⟨by decide, by decide⟩
  have hruns₀ : Runs oneProcess 0 := ⟨0, rfl, rfl⟩
  have hruns₁ : Runs (oneProcess.sbrk 0 16).2 0 := ⟨0, rfl, rfl⟩
  have hruns₂ : Runs k₂ 0 := ⟨0, getCurrentThread_eq.2 ⟨hindex, hnum⟩, hparent⟩
  have hruns : Runs k 0 := ⟨0, getCurrentThread_eq.2 ⟨hindex', hnum'⟩, hparent'⟩
  have hrun : Run Step oneProcess [.sbrk 0 16, .fault 0 HEAP_START,
      .store 0 HEAP_START 4 0x01020304] k :=
    .snoc (.snoc (.snoc .nil (.sbrk hruns₀ 16))
      (.fault hruns₁ (.store haligned hattempt) (of_decide_eq_true htrap) hserved))
      (.store hruns₂ haligned hstore hdone)
  have hstep : Step k (.load 0 HEAP_START 4 0x01020304) k' := .load hruns haligned hload hdone'
  exact ⟨k, k', _, hrun, hstep, by decide, paging_coherent oneProcess_start hrun hstep⟩

end Paging

end Rv32umos
