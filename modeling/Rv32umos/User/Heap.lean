import Rv32umos.Kernel.Run

/-!
# The heap

`sbrk` and `malloc` of `user/lib/syscall.c` on top of `SYS_SBRK`. A run (`HeapStep`) is any sequence
of their calls by threads of one process, with anything else that leaves its break alone in between.
The break never leaves the heap region, a call succeeds exactly when the sum over the integers stays
in it, and the blocks that `malloc` gives out do not overlap (`heap_sound`).
-/

namespace Rv32umos

open Transition

namespace Kernel

/-- `sbrk` of the user library: what `a0` holds after the `ecall`. The other argument registers
hold anything. -/
def userSbrk (k : Kernel) (increment a1 a2 : Word) : Except Halt (Word × Kernel) := do
  let (result, k) ← SyscallHandler.dispatch k ⟨BitVec.ofNat 32 SyscallID.SYS_SBRK, increment, a1, a2⟩
  .ok (result.returnValue, k)

/-- `malloc` of the user library; NULL is 0. -/
def malloc (k : Kernel) (size a1 a2 : Word) : Except Halt (Word × Kernel) :=
  if size.toInt ≤ 0 then .ok (0, k)
  else do
    -- align to 8 bytes for now
    let size := (size + 7) &&& ~~~7
    let (ptr, k) ← k.userSbrk size a1 a2
    .ok (if ptr = -1 then 0 else ptr, k)

inductive HeapCall where
  | sbrk (increment : Word)
  | malloc (size : Word)

def HeapCall.exec (k : Kernel) (a1 a2 : Word) : HeapCall → Except Halt (Word × Kernel)
  | sbrk increment => k.userSbrk increment a1 a2
  | malloc size => k.malloc size a1 a2

/-- The break of a process. -/
def brk (k : Kernel) (pid : Pid) : Nat := (k.processList pid).programBreak.toNat

/-- A call by a thread of process `pid`, with what it returns, or something else that leaves the break
of the process alone. -/
inductive HeapStep (pid : Pid) (k : Kernel) : Option (HeapCall × Word) → Kernel → Prop
  | call {t : TRef} {c : HeapCall} {a1 a2 ret : Word} {k' : Kernel}
    (hcurrent : k.getCurrentThread = .ok t) (hparent : (k.thread t).parent = pid)
    (h : c.exec k a1 a2 = .ok (ret, k')) : HeapStep pid k (some (c, ret)) k'
  | other {k' : Kernel} (h : k'.brk pid = k.brk pid) : HeapStep pid k none k'

/-- The block that a call gives out: where it starts, and the size that was asked for. -/
def block : Option (HeapCall × Word) → Option (Nat × Nat)
  | some (.malloc size, ret) => if ret = 0 then none else some (ret.toNat, size.toNat)
  | _ => none

def blocks (es : List (Option (HeapCall × Word))) : List (Nat × Nat) := es.filterMap block

/-! ### One call -/

/-- The break is in the heap region. -/
def BreakOk (k : Kernel) (pid : Pid) : Prop := HEAP_START ≤ k.brk pid ∧ k.brk pid ≤ HEAP_MAX_LIMIT

/-- The break plus the increment, over the integers, is in the heap region. -/
def Fits (k : Kernel) (pid : Pid) (increment : Int) : Prop :=
  (HEAP_START : Int) ≤ k.brk pid + increment ∧ k.brk pid + increment ≤ (HEAP_MAX_LIMIT : Int)

/-- What a call for `increment` bytes does to the break and returns, or `failed` when it fails. -/
structure Moves (k : Kernel) (pid : Pid) (increment : Int) (failed ret : Word) (k' : Kernel) : Prop where
  success : k.Fits pid increment →
    ret ≠ failed ∧ ret.toNat = k.brk pid ∧ (k'.brk pid : Int) = k.brk pid + increment
  failure : ¬ k.Fits pid increment → ret = failed ∧ k'.brk pid = k.brk pid

variable {k k' : Kernel} {pid : Pid}

/-- A break in the heap region is not one of the values that stand for a failure. -/
theorem BreakOk.ret_ne (hbreak : k.BreakOk pid) {ret failed : Word}
    (hfailed : failed.toNat < HEAP_START ∨ HEAP_MAX_LIMIT < failed.toNat) (hret : ret.toNat = k.brk pid) :
    ret ≠ failed := by
  rintro rfl
  have hlow := hbreak.1
  have hhigh := hbreak.2
  omega

theorem sbrk_moves (hbreak : k.BreakOk pid) (increment : Word) :
    k.Moves pid increment.toInt 0 (k.sbrk pid increment).1 (k.sbrk pid increment).2 := by
  have hsum : ((k.processList pid).programBreak + increment).toNat =
      (k.brk pid + increment.toNat) % 2 ^ 32 := BitVec.toNat_add _ _
  have hlt := increment.isLt
  have hint := BitVec.toInt_eq_toNat_cond increment
  have hrange := hbreak
  unfold BreakOk at hrange
  simp only [HEAP_START, HEAP_MAX_LIMIT, STACK_REGION_BOTTOM, VIRTUAL_MEMORY_SIZE, VIRTUAL_RAM_MB] at hrange
  -- the sum wraps only when it is negative, and then far above the limit
  have hfits : k.Fits pid increment.toInt ↔
      ¬ (((k.processList pid).programBreak + increment).toNat < HEAP_START ∨
        ((k.processList pid).programBreak + increment).toNat > HEAP_MAX_LIMIT) := by
    unfold Fits
    simp only [HEAP_START, HEAP_MAX_LIMIT, STACK_REGION_BOTTOM, VIRTUAL_MEMORY_SIZE, VIRTUAL_RAM_MB]
    rw [hsum, hint]
    split_ifs <;> omega
  unfold Kernel.sbrk
  refine ⟨fun h => ?_, fun h => ?_⟩
  · rw [if_neg (hfits.1 h)]
    refine ⟨hbreak.ret_ne (by decide) rfl, rfl, ?_⟩
    dsimp only
    rw [brk, modifyProcess_self]
    dsimp only
    unfold Fits at h
    simp only [HEAP_START, HEAP_MAX_LIMIT, STACK_REGION_BOTTOM, VIRTUAL_MEMORY_SIZE, VIRTUAL_RAM_MB] at h
    rw [hsum]
    rw [hint] at h ⊢
    split_ifs at h ⊢ <;> omega
  · rw [if_pos (not_not.1 fun hno => h (hfits.2 hno))]
    exact ⟨rfl, rfl⟩

theorem userSbrk_eq {t : TRef} (hcurrent : k.getCurrentThread = .ok t)
    (hparent : (k.thread t).parent = pid) (increment a1 a2 : Word) :
    k.userSbrk increment a1 a2 = .ok
      (if (k.sbrk pid increment).1 = 0 then -1 else (k.sbrk pid increment).1, (k.sbrk pid increment).2) := by
  have hhandle : SyscallHandler.dispatch k ⟨BitVec.ofNat 32 SyscallID.SYS_SBRK, increment, a1, a2⟩ =
      .ok ({ returnValue := if (k.sbrk pid increment).1 = 0 then -1 else (k.sbrk pid increment).1 },
        (k.sbrk pid increment).2) := by
    subst hparent
    exact bind_eq_ok.2 ⟨t, hcurrent, rfl⟩
  exact bind_eq_ok.2 ⟨_, hhandle, rfl⟩

theorem userSbrk_moves {t : TRef} (hcurrent : k.getCurrentThread = .ok t)
    (hparent : (k.thread t).parent = pid) (hbreak : k.BreakOk pid) (increment a1 a2 : Word) :
    ∃ ret k', k.userSbrk increment a1 a2 = .ok (ret, k') ∧ k.Moves pid increment.toInt (-1) ret k' := by
  have hmoves := sbrk_moves hbreak increment
  refine ⟨_, _, userSbrk_eq hcurrent hparent increment a1 a2, fun hfits => ?_, fun hfits => ?_⟩
  · obtain ⟨hne, hret, hbrk⟩ := hmoves.success hfits
    rw [if_neg hne]
    exact ⟨hbreak.ret_ne (by decide) hret, hret, hbrk⟩
  · obtain ⟨hret, hbrk⟩ := hmoves.failure hfits
    rw [if_pos hret]
    exact ⟨rfl, hbrk⟩

/-- The size that `malloc` asks for, without overflow. -/
def roundUp (size : Word) : Nat := (size.toNat + 7) / 8 * 8

theorem clear_low_bits (x : Word) : (x &&& ~~~7).toNat = x.toNat / 8 * 8 := by
  have hmask : ∀ i < 32, (~~~(7 : Word)).getLsbD i = decide (3 ≤ i) := by decide
  have hshift : x &&& ~~~(7 : Word) = (x >>> 3) <<< 3 := by
    apply BitVec.eq_of_getLsbD_eq
    intro i hi
    rw [BitVec.getLsbD_and, hmask i hi, BitVec.getLsbD_shiftLeft, BitVec.getLsbD_ushiftRight]
    by_cases hlow : i < 3
    · simp [hlow]
    · have hhigh : 3 ≤ i := Nat.not_lt.1 hlow
      simp [hi, hlow, hhigh]
  have hlt := x.isLt
  rw [hshift, BitVec.toNat_shiftLeft, BitVec.toNat_ushiftRight, Nat.shiftLeft_eq, Nat.shiftRight_eq_div_pow]
  omega

/-- `malloc` fails when the rounded size does not fit, also when rounding it has wrapped. -/
theorem malloc_moves {t : TRef} {size : Word} (hcurrent : k.getCurrentThread = .ok t)
    (hparent : (k.thread t).parent = pid) (hbreak : k.BreakOk pid) (hsize : 0 < size.toInt) (a1 a2 : Word) :
    ∃ ret k', k.malloc size a1 a2 = .ok (ret, k') ∧ k.Moves pid (roundUp size) 0 ret k' := by
  obtain ⟨ptr, k', hcall, hmoves⟩ :=
    userSbrk_moves hcurrent hparent hbreak ((size + 7) &&& ~~~7) a1 a2
  have hrounded : ((size + 7) &&& ~~~7).toNat = roundUp size := by
    rw [clear_low_bits, BitVec.toNat_add, roundUp]
    rw [BitVec.toInt_eq_toNat_cond] at hsize
    have hlt := size.isLt
    show (size.toNat + 7) % 2 ^ 32 / 8 * 8 = _
    split_ifs at hsize <;> omega
  have hle : roundUp size ≤ 2 ^ 31 := by
    rw [BitVec.toInt_eq_toNat_cond] at hsize
    unfold roundUp
    split_ifs at hsize <;> omega
  have hfits : k.Fits pid ((size + 7) &&& ~~~7).toInt ↔ k.Fits pid (roundUp size) := by
    unfold Fits
    have hrange := hbreak
    unfold BreakOk at hrange
    simp only [HEAP_START, HEAP_MAX_LIMIT, STACK_REGION_BOTTOM, VIRTUAL_MEMORY_SIZE, VIRTUAL_RAM_MB] at hrange ⊢
    rw [BitVec.toInt_eq_toNat_cond, hrounded]
    have hlt := ((size + 7) &&& ~~~7).isLt
    rw [hrounded] at hlt
    split_ifs <;> omega
  refine ⟨if ptr = -1 then 0 else ptr, k', ?_, fun h => ?_, fun h => ?_⟩
  · unfold malloc
    rw [if_neg (by omega)]
    exact bind_eq_ok.2 ⟨_, hcall, rfl⟩
  · obtain ⟨hne, hret, hbrk⟩ := hmoves.success (hfits.2 h)
    rw [if_neg hne]
    refine ⟨hbreak.ret_ne (by decide) hret, hret, ?_⟩
    unfold Fits at h
    have hup := hfits.2 h
    unfold Fits at hup
    simp only [HEAP_START, HEAP_MAX_LIMIT, STACK_REGION_BOTTOM, VIRTUAL_MEMORY_SIZE, VIRTUAL_RAM_MB] at h hup
    rw [hbrk, BitVec.toInt_eq_toNat_cond, hrounded]
    rw [BitVec.toInt_eq_toNat_cond, hrounded] at hup
    split_ifs at hup ⊢ <;> omega
  · obtain ⟨hret, hbrk⟩ := hmoves.failure (mt hfits.1 h)
    rw [if_pos hret]
    exact ⟨rfl, hbrk⟩

/-- What a call does: it moves the break by what it asks for, or fails; `malloc` of nothing fails. -/
def HeapCall.Meets (k : Kernel) (pid : Pid) (ret : Word) (k' : Kernel) : HeapCall → Prop
  | .sbrk increment => k.Moves pid increment.toInt (-1) ret k'
  | .malloc size =>
    if 0 < size.toInt then k.Moves pid (roundUp size) 0 ret k' else ret = 0 ∧ k'.brk pid = k.brk pid

theorem HeapCall.meets {t : TRef} (hcurrent : k.getCurrentThread = .ok t)
    (hparent : (k.thread t).parent = pid) (hbreak : k.BreakOk pid) (c : HeapCall) (a1 a2 : Word) :
    ∃ ret k', c.exec k a1 a2 = .ok (ret, k') ∧ c.Meets k pid ret k' := by
  cases c with
  | sbrk increment => exact userSbrk_moves hcurrent hparent hbreak increment a1 a2
  | malloc size =>
    dsimp only [exec, Meets]
    by_cases hsize : 0 < size.toInt
    · simp only [if_pos hsize]
      exact malloc_moves hcurrent hparent hbreak hsize a1 a2
    · simp only [if_neg hsize]
      refine ⟨0, k, ?_, rfl, rfl⟩
      unfold Kernel.malloc
      rw [if_pos (by omega)]

theorem Moves.breakOk {increment : Int} {failed ret : Word} (h : k.Moves pid increment failed ret k')
    (hbreak : k.BreakOk pid) : k'.BreakOk pid := by
  unfold BreakOk
  by_cases hfits : k.Fits pid increment
  · have hbrk := (h.success hfits).2.2
    unfold Fits at hfits
    omega
  · rw [(h.failure hfits).2]
    exact hbreak

theorem HeapCall.Meets.breakOk {c : HeapCall} {ret : Word} (h : c.Meets k pid ret k')
    (hbreak : k.BreakOk pid) : k'.BreakOk pid := by
  cases c with
  | sbrk increment => exact Moves.breakOk h hbreak
  | malloc size =>
    dsimp only [Meets] at h
    split_ifs at h with hsize
    · exact Moves.breakOk h hbreak
    · unfold BreakOk
      rw [h.2]
      exact hbreak

/-- A step is a call with its outcome, or leaves the break alone. -/
theorem HeapStep.cases {e : Option (HeapCall × Word)} (h : HeapStep pid k e k') (hbreak : k.BreakOk pid) :
    (∃ c ret, e = some (c, ret) ∧ c.Meets k pid ret k') ∨ (e = none ∧ k'.brk pid = k.brk pid) := by
  cases h with
  | @call t c a1 a2 ret _ hcurrent hparent h =>
    obtain ⟨ret', k₁, hexec, hmeets⟩ := c.meets hcurrent hparent hbreak a1 a2
    cases hexec.symm.trans h
    exact .inl ⟨c, ret, rfl, hmeets⟩
  | other h => exact .inr ⟨rfl, h⟩

/-! ### Runs -/

/-- The blocks lie in the heap below `b`, on multiples of 8, in the order of their addresses. -/
structure BlocksOk (bs : List (Nat × Nat)) (b : Nat) : Prop where
  aligned : ∀ x ∈ bs, x.1 % 8 = 0
  inside : ∀ x ∈ bs, HEAP_START ≤ x.1 ∧ x.1 + x.2 ≤ b
  ordered : bs.Pairwise fun x y => x.1 + x.2 ≤ y.1

theorem BlocksOk.push {bs : List (Nat × Nat)} {b b' size : Nat} (h : BlocksOk bs b) (hlow : HEAP_START ≤ b)
    (haligned : b % 8 = 0) (hroom : b + size ≤ b') : BlocksOk (bs ++ [(b, size)]) b' where
  aligned := by
    intro x hx
    rcases List.mem_append.1 hx with hx | hx
    · exact h.aligned x hx
    · rw [List.mem_singleton.1 hx]
      exact haligned
  inside := by
    intro x hx
    rcases List.mem_append.1 hx with hx | hx
    · have hin := h.inside x hx
      omega
    · rw [List.mem_singleton.1 hx]
      exact ⟨hlow, hroom⟩
  ordered := by
    refine List.pairwise_append.2 ⟨h.ordered, List.pairwise_singleton _ _, fun x hx y hy => ?_⟩
    rw [List.mem_singleton.1 hy]
    exact (h.inside x hx).2

/-- All the calls are calls of `malloc`. -/
def OnlyMalloc (es : List (Option (HeapCall × Word))) : Prop :=
  ∀ c ret, some (c, ret) ∈ es → ∃ size, c = .malloc size

theorem blocks_append (es : List (Option (HeapCall × Word))) (e : Option (HeapCall × Word)) :
    blocks (es ++ [e]) = blocks es ++ blocks [e] := List.filterMap_append

/-- A call of `malloc` keeps the blocks in order. -/
theorem malloc_blocks {bs : List (Nat × Nat)} {size ret : Word} (hbreak : k.BreakOk pid)
    (h : (HeapCall.malloc size).Meets k pid ret k') (hok : BlocksOk bs (k.brk pid))
    (haligned : k.brk pid % 8 = 0) :
    BlocksOk (bs ++ blocks [some (.malloc size, ret)]) (k'.brk pid) ∧ k'.brk pid % 8 = 0 := by
  have hunmoved : ret = 0 ∧ k'.brk pid = k.brk pid →
      BlocksOk (bs ++ blocks [some (.malloc size, ret)]) (k'.brk pid) ∧ k'.brk pid % 8 = 0 := by
    rintro ⟨rfl, hbrk⟩
    rw [hbrk, show blocks [some (.malloc size, 0)] = [] from rfl, List.append_nil]
    exact ⟨hok, haligned⟩
  dsimp only [HeapCall.Meets] at h
  split_ifs at h with hsize
  · by_cases hfits : k.Fits pid (roundUp size)
    · obtain ⟨hne, hret, hbrk⟩ := h.success hfits
      have hblock : blocks [some (.malloc size, ret)] = [(k.brk pid, size.toNat)] := by
        have hgiven : block (some (.malloc size, ret)) = some (ret.toNat, size.toNat) := if_neg hne
        rw [← hret]
        exact List.filterMap_cons_some hgiven
      unfold roundUp at hbrk
      rw [hblock]
      exact ⟨hok.push hbreak.1 haligned (by omega), by omega⟩
    · exact hunmoved (h.failure hfits)
  · exact hunmoved h

/-- From a fresh process on, whatever its threads call: the break stays in the heap region; every call
returns, and moves the break, or fails and leaves it, by the sum over the integers; and when only
`malloc` is called the blocks are aligned, disjoint, and below the break. -/
theorem heap_sound {k₀ : Kernel} {es : List (Option (HeapCall × Word))} (hfresh : k₀.brk pid = HEAP_START)
    (hrun : Run (HeapStep pid) k₀ es k) :
    k.BreakOk pid ∧
    (∀ t c a1 a2, k.getCurrentThread = .ok t → (k.thread t).parent = pid →
      ∃ ret k', HeapCall.exec k a1 a2 c = .ok (ret, k') ∧ c.Meets k pid ret k') ∧
    (OnlyMalloc es → BlocksOk (blocks es) (k.brk pid)) := by
  have hinv : k.BreakOk pid ∧ (OnlyMalloc es → BlocksOk (blocks es) (k.brk pid) ∧ k.brk pid % 8 = 0) := by
    refine hrun.induct (fun es k => k.BreakOk pid ∧
      (OnlyMalloc es → BlocksOk (blocks es) (k.brk pid) ∧ k.brk pid % 8 = 0)) ?_ ?_
    · refine ⟨⟨hfresh.ge, hfresh.le.trans (by decide)⟩, fun _ => ⟨⟨nofun, nofun, .nil⟩, ?_⟩⟩
      show k₀.brk pid % 8 = 0
      rw [hfresh]
      decide
    · rintro es k e k' ⟨hbreak, hblocks⟩ hstep
      rw [blocks_append]
      rcases hstep.cases hbreak with ⟨c, ret, rfl, hmeets⟩ | ⟨rfl, hbrk⟩
      · refine ⟨hmeets.breakOk hbreak, fun honly => ?_⟩
        obtain ⟨size, rfl⟩ := honly c ret (List.mem_append_right _ (List.mem_singleton_self _))
        obtain ⟨hok, haligned⟩ := hblocks fun c ret hmem => honly c ret (List.mem_append_left _ hmem)
        exact malloc_blocks hbreak hmeets hok haligned
      · refine ⟨?_, fun honly => ?_⟩
        · unfold BreakOk
          rw [hbrk]
          exact hbreak
        · rw [hbrk, show blocks [none] = [] from rfl, List.append_nil]
          exact hblocks fun c ret hmem => honly c ret (List.mem_append_left _ hmem)
  exact ⟨hinv.1, fun t c a1 a2 hcurrent hparent => c.meets hcurrent hparent hinv.1 a1 a2,
    fun honly => (hinv.2 honly).1⟩

/-- One thread, in process 0. -/
def oneThread : Kernel :=
  { init ⟨fun _ => none, ⟨[], [], []⟩⟩ with numThreads := 1, currentThreadIndex := some 0 }

/-- The main thread of a fresh process asks for 100 bytes. -/
theorem heap_sound_firstBlock : ∃ (k : Kernel) (ret : Word),
    Run (HeapStep 0) oneThread [some (.malloc 100, ret)] k ∧ ret.toNat = HEAP_START ∧ k.BreakOk 0 ∧
    BlocksOk (blocks [some (.malloc 100, ret)]) (k.brk 0) := by
  have hfresh : oneThread.brk 0 = HEAP_START := by decide
  have hcurrent : oneThread.getCurrentThread = .ok 0 := getCurrentThread_eq.2 ⟨rfl, by decide⟩
  have hparent : (oneThread.thread 0).parent = 0 := rfl
  have hbreak : oneThread.BreakOk 0 := by
    unfold BreakOk
    rw [hfresh]
    decide
  have hfits : oneThread.Fits 0 (roundUp 100) := by
    unfold Fits
    rw [hfresh]
    decide
  obtain ⟨ret, k, hexec, hmoves⟩ := malloc_moves hcurrent hparent hbreak (show 0 < (100 : Word).toInt by decide) 0 0
  have hcall : (HeapCall.malloc 100).exec oneThread 0 0 = .ok (ret, k) := hexec
  have hrun : Run (HeapStep 0) oneThread [some (.malloc 100, ret)] k :=
    .snoc .nil (.call hcurrent hparent hcall)
  have hsound := heap_sound hfresh hrun
  have honly : OnlyMalloc [some (.malloc 100, ret)] := by
    intro c ret' hmem
    cases List.mem_singleton.1 hmem
    exact ⟨100, rfl⟩
  refine ⟨k, ret, hrun, ?_, hsound.1, hsound.2.2 honly⟩
  rw [← hfresh]
  exact (hmoves.success hfits).2.1

end Kernel

end Rv32umos
