import Rv32umos.Kernel.PagingFacts

/-!
# What serving a page fault leaves alone

Whatever the state of the frames, a page fault that is served changes what `unpaged` blanks out and
nothing else: no thread, no mutex, no register (`servePageFault_unpaged`).
-/

namespace Rv32umos

namespace Kernel

variable {k k' : Kernel} {pid : Pid} {vpn : Addr}

theorem freeFrame_unpaged {frame : Addr} (h : k.freeFrame frame = .ok k') :
    k'.unpaged = k.unpaged := by
  obtain ⟨pmm, -, h⟩ := bind_eq_ok.1 h
  cases h
  rfl

theorem dropPage_unpaged {paddr : Addr} (h : k.dropPage pid vpn paddr = .ok k') :
    k'.unpaged = k.unpaged :=
  (freeFrame_unpaged h).trans (unpaged_setPTE _ _ _ _)

theorem swapOutPage_unpaged {paddr : Addr} (h : k.swapOutPage pid vpn paddr = .ok k') :
    k'.unpaged = k.unpaged := by
  obtain ⟨buffer, -, h⟩ := bind_eq_ok.1 h
  generalize k.swap.swapOut k.disk buffer = out at h
  rcases out with ⟨_ | slot, swap, disk⟩
  · cases h
  · have hfree := freeFrame_unpaged h
    exact hfree.trans (unpaged_setPTE { k with swap, disk } _ _ _)

theorem evictPage_unpaged (h : k.evictPage = .ok k') : k'.unpaged = k.unpaged := by
  unfold evictPage at h
  dsimp only at h
  split at h
  · cases h
  · split at h
    · cases h
    · split at h
      · have hdrop := dropPage_unpaged h
        exact hdrop
      · have hswap := swapOutPage_unpaged h
        exact hswap

theorem registerFrame_unpaged {paddr : Addr} (h : k.registerFrame pid vpn paddr = .ok k') :
    k'.unpaged = k.unpaged := by
  obtain ⟨pmm, -, h⟩ := bind_eq_ok.1 h
  cases h
  rfl

theorem allocateFrame_unpaged {paddr : Addr} (h : k.allocateFrame pid vpn = .ok (paddr, k')) :
    k'.unpaged = k.unpaged := by
  unfold allocateFrame at h
  split at h
  · obtain ⟨k₁, hregister, h⟩ := bind_eq_ok.1 h
    cases h
    have hunpaged := registerFrame_unpaged hregister
    exact hunpaged
  · obtain ⟨k₁, hevict, h⟩ := bind_eq_ok.1 h
    refine Eq.trans ?_ (evictPage_unpaged hevict)
    split at h
    · obtain ⟨k₂, hregister, h⟩ := bind_eq_ok.1 h
      cases h
      have hunpaged := registerFrame_unpaged hregister
      exact hunpaged
    · cases h

theorem handleSwapIn_unpaged {handled : Bool} (h : k.handleSwapIn pid vpn = .ok (handled, k')) :
    k'.unpaged = k.unpaged := by
  unfold handleSwapIn at h
  dsimp only at h
  split_ifs at h
  · obtain ⟨k₁, hswap, h⟩ := bind_eq_ok.1 h
    cases h
    obtain ⟨⟨paddr, k₂⟩, halloc, hswap⟩ := bind_eq_ok.1 hswap
    obtain ⟨memory, -, hswap⟩ := bind_eq_ok.1 hswap
    cases hswap
    refine (unpaged_setPTE _ _ _ _).trans ?_
    have hunpaged := allocateFrame_unpaged halloc
    exact hunpaged
  · cases h
    rfl

theorem handleStackGrowth_unpaged {addr : Addr} {handled : Bool}
    (h : k.handleStackGrowth pid addr vpn = .ok (handled, k')) : k'.unpaged = k.unpaged := by
  unfold handleStackGrowth at h
  split_ifs at h
  · cases h
    rfl
  · obtain ⟨⟨paddr, k₁⟩, halloc, h⟩ := bind_eq_ok.1 h
    cases h
    refine (unpaged_setPTE _ _ _ _).trans ?_
    have hunpaged := allocateFrame_unpaged halloc
    exact hunpaged
  · cases h
    rfl

theorem handleHeapGrowth_unpaged {addr : Addr} {handled : Bool}
    (h : k.handleHeapGrowth pid addr vpn = .ok (handled, k')) : k'.unpaged = k.unpaged := by
  unfold handleHeapGrowth at h
  split_ifs at h
  · obtain ⟨⟨paddr, k₁⟩, halloc, h⟩ := bind_eq_ok.1 h
    obtain ⟨memory, -, h⟩ := bind_eq_ok.1 h
    cases h
    refine (unpaged_setPTE _ _ _ _).trans ?_
    have hunpaged := allocateFrame_unpaged halloc
    exact hunpaged
  · cases h
    rfl

theorem handleLazyLoading_unpaged {addr : Addr} {handled : Bool}
    (h : k.handleLazyLoading pid addr vpn = .ok (handled, k')) : k'.unpaged = k.unpaged := by
  unfold handleLazyLoading at h
  split at h
  · cases h
    rfl
  · obtain ⟨⟨paddr, k₁⟩, halloc, h⟩ := bind_eq_ok.1 h
    obtain ⟨memory, -, h⟩ := bind_eq_ok.1 h
    cases h
    refine (unpaged_setPTE _ _ _ _).trans ?_
    have hunpaged := allocateFrame_unpaged halloc
    exact hunpaged

theorem servePageFault_unpaged {addr : Addr} {handled : Bool}
    (h : k.servePageFault pid addr = .ok (handled, k')) : k'.unpaged = k.unpaged := by
  unfold servePageFault at h
  dsimp only at h
  refine Eq.trans ?_ (unpaged_setPTE k pid (addr >>> 12) (k.pte pid (addr >>> 12)))
  split_ifs at h
  · cases h
    rfl
  · obtain ⟨⟨swapped, k₁⟩, hswap, h⟩ := bind_eq_ok.1 h
    refine Eq.trans ?_ (handleSwapIn_unpaged hswap)
    dsimp only at h
    split_ifs at h
    · cases h
      rfl
    · obtain ⟨⟨grown, k₂⟩, hstack, h⟩ := bind_eq_ok.1 h
      refine Eq.trans ?_ (handleStackGrowth_unpaged hstack)
      dsimp only at h
      split_ifs at h
      · cases h
        rfl
      · obtain ⟨⟨loaded, k₃⟩, hload, h⟩ := bind_eq_ok.1 h
        refine Eq.trans ?_ (handleLazyLoading_unpaged hload)
        dsimp only at h
        split_ifs at h
        · cases h
          rfl
        · exact handleHeapGrowth_unpaged h

end Kernel

end Rv32umos
