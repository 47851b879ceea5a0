import Rv32umos.Kernel.Image
import Rv32umos.Kernel.Pool
import Rv32umos.Kernel.Regions

/-!
# The address space of a process

Where the stacks, the heap and the pages of a process are, in every reachable state (`address_space`).
Below the stacks of the first four threads there is a guard page, which the process never has; below
that of the fifth there is the last page of the heap.
-/

namespace Rv32umos

open Kernel (Event)

/-! ### The map -/

/-- The size of the stack of the `i`-th thread of a process. -/
def stackSize (i : Nat) : Nat := if i = 0 then MAIN_STACK_SIZE else THREAD_STACK_SIZE

def stackTop (i : Nat) : Nat :=
  if i = 0 then STACK_TOP
  else STACK_TOP - MAIN_STACK_SIZE - GUARD_PAGE_SIZE - (i - 1) * (THREAD_STACK_SIZE + GUARD_PAGE_SIZE)

def stackBottom (i : Nat) : Nat := stackTop i - stackSize i

/-- The byte addresses of a page. -/
def pageStart (vpn : Addr) : Nat := vpn.toNat * KERNEL_PAGE_SIZE

namespace Layout

variable {l : Layout} {pid : Pid} {thread : TRef → Thread}

structure Ok (l : Layout) (pid : Pid) (thread : TRef → Thread) : Prop where
  base : l.base = BitVec.ofNat 32 (stackTop l.threads.length)
  room : l.threads.length ≤ MAX_THREADS
  placed : ∀ i t, l.threads[i]? = some t →
    Threads.identity (thread t) = (i, pid, BitVec.ofNat 32 (stackTop i))
  brk : HEAP_START ≤ l.brk.toNat ∧ l.brk.toNat ≤ HEAP_MAX_LIMIT

/-- The page is in a segment, in the heap, or in the stack of a thread. -/
def Covers (l : Layout) (vpn : Addr) : Prop :=
  (∃ seg ∈ l.segments, seg.ownsPage vpn.toNat = true) ∨
  (HEAP_START ≤ pageStart vpn ∧ pageStart vpn < HEAP_MAX_LIMIT) ∨
  ∃ i < l.threads.length, stackBottom i ≤ pageStart vpn ∧ pageStart vpn < stackTop i

theorem Ok.congr (h : l.Ok pid thread) {thread' : TRef → Thread}
    (hsame : ∀ t ∈ l.threads, Threads.identity (thread' t) = Threads.identity (thread t)) :
    l.Ok pid thread' where
  base := h.base
  room := h.room
  placed i t ht := (hsame t (List.mem_of_getElem? ht)).trans (h.placed i t ht)
  brk := h.brk

theorem ok_fresh (pid : Pid) (thread : TRef → Thread) (segments : List Segment) :
    (Layout.fresh segments).Ok pid thread where
  base := rfl
  room := Nat.zero_le _
  placed i t ht := by cases ht
  brk := by
    have hbrk : HEAP_START ≤ (BitVec.ofNat 32 HEAP_START).toNat ∧
        (BitVec.ofNat 32 HEAP_START).toNat ≤ HEAP_MAX_LIMIT := by decide
    exact hbrk

/-- One stack and its guard page below the other. -/
theorem base_push {n : Nat} (hroom : n < MAX_THREADS) :
    BitVec.ofNat 32 (stackTop n) - BitVec.ofNat 32 (stackSize n) - BitVec.ofNat 32 GUARD_PAGE_SIZE =
      BitVec.ofNat 32 (stackTop (n + 1)) := by
  have hlt : n < 5 := hroom
  have hn : n = 0 ∨ n = 1 ∨ n = 2 ∨ n = 3 ∨ n = 4 := by omega
  rcases hn with rfl | rfl | rfl | rfl | rfl <;> decide

theorem Ok.push (h : l.Ok pid thread) (hroom : l.threads.length < MAX_THREADS) {t : TRef}
    (ht : Threads.identity (thread t) = (l.threads.length, pid, l.base)) : (l.push t).Ok pid thread where
  base := by
    have hsize : (if l.threads.isEmpty then MAIN_STACK_SIZE else THREAD_STACK_SIZE) =
        stackSize l.threads.length := by
      unfold stackSize
      simp only [List.isEmpty_iff, List.length_eq_zero_iff]
    have hlength : (l.push t).threads.length = l.threads.length + 1 := List.length_append
    rw [hlength, ← base_push hroom, ← h.base, ← hsize]
    rfl
  room := by
    have hlength : (l.push t).threads.length = l.threads.length + 1 := List.length_append
    omega
  placed i u hu := by
    have hget : (l.threads ++ [t])[i]? = some u := hu
    rcases Nat.lt_or_ge i l.threads.length with hlt | hge
    · rw [List.getElem?_append_left hlt] at hget
      exact h.placed i u hget
    · rw [List.getElem?_append_right hge] at hget
      obtain ⟨hzero, rfl⟩ : i - l.threads.length = 0 ∧ t = u := by
        cases hi : i - l.threads.length with
        | zero =>
          rw [hi] at hget
          exact ⟨rfl, Option.some.inj hget⟩
        | succ n =>
          rw [hi] at hget
          cases hget
      obtain rfl : i = l.threads.length := by omega
      rw [ht, h.base]
  brk := h.brk

theorem Covers.push {vpn : Addr} (h : l.Covers vpn) (t : TRef) : (l.push t).Covers vpn := by
  rcases h with hsegment | hheap | ⟨i, hi, hstack⟩
  · exact .inl hsegment
  · exact .inr (.inl hheap)
  · refine .inr (.inr ⟨i, ?_, hstack⟩)
    have hlength : (l.push t).threads.length = l.threads.length + 1 := List.length_append
    omega

/-- The stacks go downwards, with at least a guard page between two of them, and the last is above the heap. -/
theorem stacks_apart {i j : Nat} (hj : j < MAX_THREADS) :
    HEAP_MAX_LIMIT ≤ stackBottom j ∧ (i < j → stackTop j + GUARD_PAGE_SIZE ≤ stackBottom i) := by
  have hlt : j < 5 := hj
  have hj' : j = 0 ∨ j = 1 ∨ j = 2 ∨ j = 3 ∨ j = 4 := by omega
  refine ⟨?_, fun hij => ?_⟩
  · rcases hj' with rfl | rfl | rfl | rfl | rfl <;> decide
  · have hi : i = 0 ∨ i = 1 ∨ i = 2 ∨ i = 3 := by omega
    rcases hi with rfl | rfl | rfl | rfl <;> rcases hj' with rfl | rfl | rfl | rfl | rfl
    all_goals first | decide | omega

/-- The page below the stack of one of the first four threads, with no segment in it. -/
structure Guard (l : Layout) (vpn : Addr) : Prop where
  below : ∃ i < l.threads.length, i + 1 < MAX_THREADS ∧ pageStart vpn + GUARD_PAGE_SIZE = stackBottom i
  unused : ∀ seg ∈ l.segments, seg.ownsPage vpn.toNat = false

theorem Guard.not_covers {vpn : Addr} (h : l.Guard vpn) (hroom : l.threads.length ≤ MAX_THREADS) :
    ¬ l.Covers vpn := by
  obtain ⟨⟨i, hi, hlast, hbelow⟩, hunused⟩ := h
  have hnext := stacks_apart (i := i) hlast
  have hpositive : 0 < GUARD_PAGE_SIZE := by decide
  have hguard : stackTop (i + 1) ≤ pageStart vpn := by
    have hapart := hnext.2 (Nat.lt_succ_self i)
    omega
  rintro (⟨seg, hmem, howns⟩ | ⟨-, hheap⟩ | ⟨j, hj, hbottom, htop⟩)
  · rw [hunused seg hmem] at howns
    cases howns
  · -- the stack of the next thread is between the guard page and the heap
    have hsize : stackBottom (i + 1) ≤ stackTop (i + 1) := Nat.sub_le _ _
    omega
  · rcases Nat.lt_trichotomy j i with hji | rfl | hij
    · have hapart := (stacks_apart (i := j) (Nat.lt_of_lt_of_le hi hroom)).2 hji
      have hsize : stackBottom i ≤ stackTop i := Nat.sub_le _ _
      omega
    · omega
    · rcases Nat.lt_or_ge (i + 1) j with hskip | hadjacent
      · have hapart := (stacks_apart (i := i + 1) (Nat.lt_of_lt_of_le hj hroom)).2 hskip
        have hsize : stackBottom (i + 1) ≤ stackTop (i + 1) := Nat.sub_le _ _
        omega
      · obtain rfl : j = i + 1 := by omega
        omega

end Layout

namespace Kernel

variable {k k' : Kernel} {pid : Pid}

theorem pageStart_shift (addr : Addr) :
    pageStart (addr >>> 12) = addr.toNat / KERNEL_PAGE_SIZE * KERNEL_PAGE_SIZE := by
  unfold pageStart
  rw [toNat_shiftRight12]

theorem inStack_bounds {addr : Addr} {t : TRef} {i : Nat} (hi : i < MAX_THREADS)
    (ht : Threads.identity (k.thread t) = (i, pid, BitVec.ofNat 32 (stackTop i)))
    (h : k.inStack addr t = true) :
    stackBottom i ≤ pageStart (addr >>> 12) ∧ pageStart (addr >>> 12) < stackTop i := by
  have htid : (k.thread t).tid = i := congrArg (fun id => id.1) ht
  have htop : (k.thread t).stackTop = BitVec.ofNat 32 (stackTop i) := congrArg (fun id => id.2.2) ht
  have hbounds : (BitVec.ofNat 32 (stackTop i) - BitVec.ofNat 32 (stackSize i)).toNat = stackBottom i ∧
      (BitVec.ofNat 32 (stackTop i)).toNat = stackTop i ∧ stackBottom i % KERNEL_PAGE_SIZE = 0 := by
    have hlt : i < 5 := hi
    have hi' : i = 0 ∨ i = 1 ∨ i = 2 ∨ i = 3 ∨ i = 4 := by omega
    rcases hi' with rfl | rfl | rfl | rfl | rfl <;> decide
  obtain ⟨hbottom, htop', haligned⟩ := hbounds
  unfold inStack at h
  rw [htid, htop] at h
  simp only [Bool.and_eq_true, decide_eq_true_eq, ge_iff_le, BitVec.le_def, BitVec.lt_def] at h
  change (BitVec.ofNat 32 (stackTop i) - BitVec.ofNat 32 (stackSize i)).toNat ≤ addr.toNat ∧ _ at h
  rw [hbottom, htop'] at h
  rw [pageStart_shift]
  simp only [KERNEL_PAGE_SIZE] at haligned ⊢
  omega

/-- A page fault is served in the map only. -/
theorem InRegion.covers {addr : Addr} (h : k.InRegion pid addr) (hok : (k.layout pid).Ok pid k.thread) :
    (k.layout pid).Covers (addr >>> 12) := by
  rcases h with hgrows | hsegment | hheap
  · rw [growsStack, Bool.and_eq_true, List.any_eq_true] at hgrows
    obtain ⟨-, t, hmem, hstack⟩ := hgrows
    obtain ⟨i, hi, hget⟩ := List.mem_iff_getElem.1 hmem
    have hplaced := hok.placed i t (List.getElem?_eq_some_iff.2 ⟨hi, hget⟩)
    exact .inr (.inr ⟨i, hi, inStack_bounds (Nat.lt_of_lt_of_le hi hok.room) hplaced hstack⟩)
  · rw [inSegment, Option.isSome_iff_exists] at hsegment
    obtain ⟨seg, hfind⟩ := hsegment
    have hcontains : seg.contains addr = true := by simpa using List.find?_some hfind
    exact .inl ⟨seg, List.mem_of_find?_eq_some hfind, seg.ownsPage_of_contains hcontains⟩
  · refine .inr (.inl ?_)
    have hbrk : addr.toNat < (k.layout pid).brk.toNat := hheap.2
    have hlimit := hok.brk.2
    have hstart := hheap.1
    rw [pageStart_shift]
    simp only [HEAP_START, HEAP_MAX_LIMIT, STACK_REGION_BOTTOM, VIRTUAL_MEMORY_SIZE, VIRTUAL_RAM_MB,
      KERNEL_PAGE_SIZE] at hlimit hstart ⊢
    omega

structure AddressSpace (k : Kernel) (pid : Pid) : Prop where
  layout : (k.layout pid).Ok pid k.thread
  pages : ∀ vpn, k.HasPage (pid, vpn) → (k.layout pid).Covers vpn

theorem LayoutStep.addressSpace (h : LayoutStep k k') (hspace : ∀ pid, k.AddressSpace pid)
    (hsame : ∀ pid, ∀ t ∈ (k.layout pid).threads,
      Threads.identity (k'.thread t) = Threads.identity (k.thread t))
    (hpages : ∀ o, k'.HasPage o → k.HasPage o ∨ ∃ addr : Addr, o.2 = addr >>> 12 ∧ k.InRegion o.1 addr)
    (pid : Pid) : k'.AddressSpace pid := by
  have hold : (k.layout pid).Ok pid k'.thread := (hspace pid).layout.congr (hsame pid)
  have hcovers : ∀ vpn, k'.HasPage (pid, vpn) → (k.layout pid).Covers vpn := by
    intro vpn ho
    rcases hpages (pid, vpn) ho with hpage | ⟨addr, hvpn, hregion⟩
    · exact (hspace pid).pages vpn hpage
    · have hcover := hregion.covers (hspace pid).layout
      rw [← hvpn] at hcover
      exact hcover
  -- the processes that the step leaves alone
  have hrest : k'.layout pid = k.layout pid → k'.AddressSpace pid := fun heq =>
    ⟨heq ▸ hold, heq ▸ hcovers⟩
  have hempty : ∀ {l : Layout}, k'.layout pid = l → l.Ok pid k'.thread → (∀ vpn, k'.pte pid vpn = {}) →
      k'.AddressSpace pid := by
    intro l heq hok hpte
    refine ⟨heq ▸ hok, fun vpn ho => ?_⟩
    unfold HasPage at ho
    rw [hpte] at ho
    rcases ho with hvalid | hswapped
    · cases hvalid
    · cases hswapped
  cases h with
  | same h => exact hrest (congrFun h pid)
  | move pid' brk hbrk h =>
    by_cases heq : pid = pid'
    · subst heq
      have hlayout : k'.layout pid = { k.layout pid with brk } := by rw [h, Function.update_self]
      refine ⟨?_, ?_⟩
      · rw [hlayout]
        exact ⟨hold.base, hold.room, hold.placed, hbrk⟩
      · rw [hlayout]
        exact hcovers
    · exact hrest (by rw [h, Function.update_of_ne heq])
  | thread pid' hroom h hnew =>
    by_cases heq : pid = pid'
    · subst heq
      have hlayout : k'.layout pid = (k.layout pid).push k.numThreads := by rw [h, Function.update_self]
      refine ⟨?_, fun vpn ho => ?_⟩
      · rw [hlayout]
        exact hold.push hroom hnew
      · rw [hlayout]
        exact (hcovers vpn ho).push _
    · exact hrest (by rw [h, Function.update_of_ne heq])
  | fail pid' segments h hpte =>
    by_cases heq : pid = pid'
    · subst heq
      exact hempty (by rw [h, Function.update_self]) (Layout.ok_fresh pid _ segments) hpte
    · exact hrest (by rw [h, Function.update_of_ne heq])
  | load pid' segments h hnew hpte =>
    by_cases heq : pid = pid'
    · subst heq
      have hok := (Layout.ok_fresh pid k'.thread segments).push (Nat.zero_lt_succ _) hnew
      exact hempty (by rw [h, Function.update_self]) hok hpte
    · exact hrest (by rw [h, Function.update_of_ne heq])

/-! ### Every reachable state -/

theorem init_addressSpace (host : Host) (pid : Pid) : (init host).AddressSpace pid := by
  refine ⟨Layout.ok_fresh pid _ [], fun vpn ho => ?_⟩
  rcases ho with hvalid | hswapped
  · cases hvalid
  · cases hswapped

theorem loadELF_thread {filename : Name} {created : Option Pid}
    (h : Loader.loadELF k filename = .ok (created, k')) {t : TRef} (ht : t < k.numThreads) : k'.thread t = k.thread t := by
  rcases Loader.loadELF_cases h with ⟨-, rfl⟩ | ⟨file, pid, pmm, segments, -, -, -, -, ⟨-, rfl⟩ | ⟨-, rfl⟩⟩
  · rfl
  · rfl
  · exact Function.update_of_ne (Nat.ne_of_lt ht) _ _

theorem loadApplications_addressSpace {filenames : List Name} (hfresh : k.threads.Fresh)
    (hspace : ∀ pid, k.AddressSpace pid) (h : k.loadApplications filenames = .ok k') (pid : Pid) :
    k'.AddressSpace pid := by
  induction filenames generalizing k with
  | nil =>
    cases h
    exact hspace pid
  | cons filename rest ih =>
    obtain ⟨⟨created, k₁⟩, hload, h⟩ := bind_eq_ok.1 h
    dsimp only at h
    split_ifs at h with hnone
    have hone : k.loadApplications [filename] = .ok k₁ :=
      bind_eq_ok.2 ⟨(created, k₁), hload, if_neg hnone⟩
    refine ih (loadApplications_fresh hfresh hone) ?_ h
    refine (loadELF_layout hload).addressSpace hspace (fun pid t ht => ?_)
      fun o ho => .inl (loadELF_hasPage hload ho)
    rw [loadELF_thread hload (hfresh.rooted pid t ht).1]

theorem boot_addressSpace {host : Host} {filenames : List Name} (h : boot host filenames = .ok k) (pid : Pid) :
    k.AddressSpace pid := by
  obtain ⟨k₁, hload, h⟩ := bind_eq_ok.1 h
  split_ifs at h
  cases h
  have hspace := loadApplications_addressSpace (init_fresh host) (init_addressSpace host) hload
  have henabled : ∀ pid, ({ k₁ with cpu := { k₁.cpu with vmEnabled := true } } : Kernel).AddressSpace pid :=
    fun pid => ⟨(hspace pid).layout, (hspace pid).pages⟩
  refine (LayoutStep.same (preempt_layout _)).addressSpace henabled (fun _ t _ => preempt_identity _ t)
    (fun o ho => .inl (((preempt_frames _).hasPage o).1 ho)) pid

theorem step_addressSpace {e : Event} (hsound : k.threads.Sound) (hk : k.Tracked) (h : Step k e k')
    (hspace : ∀ pid, k.AddressSpace pid) (pid : Pid) : k'.AddressSpace pid := by
  obtain ⟨line, hplaced⟩ := hsound.placed
  refine (step_layout h).addressSpace hspace (fun pid t ht => ?_) (fun o ho => step_hasPage hsound hk h ho) pid
  exact ((step_threads hsound.fault h).change hplaced (hsound.rooted pid t ht).1).identity_eq

/-- A page fault that is served gives the process the page. -/
theorem step_gives {t : TRef} {addr : Addr} (hk : k.Tracked) (h : Step k (.fault t addr true) k') :
    k'.HasPage ((k.thread t).parent, addr >>> 12) := by
  obtain ⟨k₁, regs, pc, hquiet, hserve⟩ := step_served h
  have hok₁ := (((SameFrames.setContext k _ _).trans (.of_quiet hquiet)).tracked hk).owners
  rcases servePageFault_effect hok₁ hserve with ⟨hno, -⟩ | ⟨-, -, hserves⟩
  · cases hno
  · obtain ⟨k₂, ppn, rest, prp, e, memory, swap, -, hfills, rfl⟩ := hserves
    refine .inl ?_
    rw [pte_setPTE_self]
    exact hfills.valid.1

/-- In every reachable state: the threads of a process, at most five of them, have their stacks one below the
other from the top of memory, with a page between two of them; its break is in the heap region; its pages are
in its segments, in the heap region or in the stack of one of its threads; and the next access to a guard page
is not served. -/
theorem address_space (h : k.Reachable) (pid : Pid) : k.AddressSpace pid ∧
    ∀ (t : TRef) (addr : Addr) (k' : Kernel), (k.thread t).parent = pid → (k.layout pid).Guard (addr >>> 12) →
      ¬ Step k (.fault t addr true) k' := by
  have hspace : ∀ pid, k.AddressSpace pid := by
    obtain ⟨host, filenames, k₀, es, hboot, hrun⟩ := h
    have hboth : k.Reachable ∧ ∀ pid, k.AddressSpace pid := by
      refine hrun.invariant (fun k => k.Reachable ∧ ∀ pid, k.AddressSpace pid)
        ⟨⟨host, filenames, k₀, [], hboot, .nil⟩, boot_addressSpace hboot⟩ ?_
      rintro k e k' ⟨hreach, hspace⟩ hstep
      exact ⟨hreach.snoc hstep,
        step_addressSpace (reachable_sound hreach) (reachable_tracked hreach) hstep hspace⟩
    exact hboth.2
  refine ⟨hspace pid, fun t addr k' hparent hguard hstep => ?_⟩
  subst hparent
  have hno := hguard.not_covers (hspace _).layout.room
  have hgiven := step_gives (reachable_tracked h) hstep
  rcases step_hasPage (reachable_sound h) (reachable_tracked h) hstep hgiven with
    hpage | ⟨addr', hvpn, hregion⟩
  · exact hno ((hspace _).pages _ hpage)
  · have hcovers := hregion.covers (hspace _).layout
    rw [← hvpn] at hcovers
    exact hno hcovers

/-- The first program has its text, its main thread and a guard page. -/
theorem address_space_first_fault : ∃ k₀ k, boot twoPrograms [[0x61], [0x62]] = .ok k₀ ∧
    Step k₀ (.fault 0 84 true) k ∧ k.HasPage (0, 0) ∧ k.AddressSpace 0 ∧
    (k₀.layout 0).Guard (0x2FFFFFC#32 >>> 12) ∧ ∀ k', ¬ Step k₀ (.fault 0 0x2FFFFFC true) k' := by
  have hdec : returns (boot twoPrograms [[0x61], [0x62]]) (fun k₀ =>
      decide ((k₀.layout 0).threads = [0] ∧
        ∀ seg ∈ (k₀.layout 0).segments, seg.ownsPage (0x2FFFFFC#32 >>> 12).toNat = false)) = true := by
    decide +kernel
  obtain ⟨k₀, k, k', hboot, hstep, -, ⟨hparent, -⟩, -⟩ := segfault_run
  obtain ⟨k₁, hboot', hstate⟩ := returns_iff.1 hdec
  obtain rfl := Except.ok.inj (hboot.symm.trans hboot')
  obtain ⟨hthreads, hunused⟩ := of_decide_eq_true hstate
  have hreach : k₀.Reachable := ⟨_, _, k₀, [], hboot, .nil⟩
  have hpage : k.HasPage (0, 0) := by
    have hgives := step_gives (reachable_tracked hreach) hstep
    rw [hparent] at hgives
    exact hgives
  have hguard : (k₀.layout 0).Guard (0x2FFFFFC#32 >>> 12) := by
    refine ⟨⟨0, ?_, by decide, by decide⟩, hunused⟩
    rw [hthreads]
    exact Nat.one_pos
  exact ⟨k₀, k, hboot, hstep, hpage, (address_space (hreach.snoc hstep) 0).1, hguard,
    fun k' => (address_space hreach 0).2 0 _ k' hparent hguard⟩

end Kernel

end Rv32umos
