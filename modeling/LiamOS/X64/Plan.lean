import LiamOS.X64.Pmm

/-
  The plans the kernel makes before it builds page tables: `kernel/arch/x86_64/pmm_plan.c` and
  `paging_plan.c`.

  Shifts and masks that cut a bit field out of an address are written as quotients and remainders.

  Key definitions: `PmmPlan`, `pmmPlanInit`, `PagingPlan`, `pagingPlanInit`.
-/

namespace LiamOS.X64

open Word PageTable

----------
-- Page Manager Plan

structure PmmPlan where
  usableRegionCount : Nat
  firstFreePage : Nat
  managedPages : Nat
  managedBytes : Nat
  reservedBelow : Nat
deriving DecidableEq, Repr

def addManagedRange (start stop : Nat) (plan : PmmPlan) : PmmPlan := if stop ≤ start then
    plan
  else
    let pages := (stop - start) / 4096
    if pages = 0 then
      plan
    else
      { plan with
        firstFreePage := if plan.firstFreePage = 0 ∨ start < plan.firstFreePage then
            start
          else
            plan.firstFreePage
        usableRegionCount := u32 (plan.usableRegionCount + 1)
        managedPages := u64 (plan.managedPages + pages)
        managedBytes := u64 (plan.managedBytes + pages * 4096) }

def pmmPlanInit (regions : List MemoryRegion) (layout : MemoryLayout) : PmmPlan :=
  let reservedBelow := alignUp layout.kernelEnd.toNat 4096
  regions.foldl
    (fun plan region =>
      match usableRange reservedBelow region with
      | none => plan
      | some (start, stop) => addManagedRange start stop plan)
    ⟨0, 0, 0, 0, reservedBelow⟩

----------
-- Paging Plan

def kernelVirtualBase : Nat := 0xFFFFFFFF80000000

def directMapBase : Nat := 0xFFFF800000000000

structure PagingPlan where
  identityWindowBytes : Nat
  kernelVirtualStart : Nat
  kernelVirtualEnd : Nat
  kernelVirtualOffset : Nat
  directMapEnd : Nat
  directMapBytes : Nat
  identityPml4Index : Nat
  kernelPml4Index : Nat
  directMapPml4Index : Nat
  identityWindowOk : Bool
  kernelWindowCanonical : Bool
  directMapCanonical : Bool
  pml4SlotsDistinct : Bool
  planOk : Bool
deriving DecidableEq, Repr

def isCanonicalAddress (address : Nat) : Bool :=
  let high := address / 281474976710656
  let sign := address / 140737488355328 % 2
  if sign ≠ 0 then high = 0xFFFF else high = 0

def lastByteForSpan (base bytes : Nat) : Nat := if bytes = 0 then base else u64 (base + bytes - 1)

/- The size of the direct map. -/
def plannedDirectMapBytes (pmmPlan : PmmPlan) : Nat :=
  let managed := u64 (pmmPlan.reservedBelow + pmmPlan.managedBytes)
  if managed < MemoryLayout.bootstrapIdentityMapBytes then
    MemoryLayout.bootstrapIdentityMapBytes
  else
    managed

def pagingPlanInit (layout : MemoryLayout) (pmmPlan : PmmPlan) : PagingPlan :=
  let identityWindowBytes := MemoryLayout.bootstrapIdentityMapBytes
  let kernelVirtualOffset := kernelVirtualBase - MemoryLayout.kernelLoadBase
  let kernelVirtualStart := u64 (layout.kernelStart.toNat + kernelVirtualOffset)
  let kernelVirtualEnd := u64 (layout.kernelEnd.toNat + kernelVirtualOffset)
  let directMapBytes := plannedDirectMapBytes pmmPlan
  let directMapEnd := lastByteForSpan directMapBase directMapBytes
  let identityPml4Index := 0
  let kernelPml4Index := pml4Index kernelVirtualBase
  let directMapPml4Index := pml4Index directMapBase
  let identityWindowOk := decide (MemoryLayout.bootstrapIdentityMapBytes ≤ identityWindowBytes)
  let kernelWindowCanonical :=
    isCanonicalAddress kernelVirtualStart && isCanonicalAddress kernelVirtualEnd
  let directMapCanonical := isCanonicalAddress directMapBase && isCanonicalAddress directMapEnd
  let pml4SlotsDistinct :=
    identityPml4Index != kernelPml4Index && identityPml4Index != directMapPml4Index &&
      kernelPml4Index != directMapPml4Index
  { identityWindowBytes, kernelVirtualStart, kernelVirtualEnd,
    kernelVirtualOffset, directMapEnd, directMapBytes,
    identityPml4Index, kernelPml4Index, directMapPml4Index,
    identityWindowOk, kernelWindowCanonical,
    directMapCanonical, pml4SlotsDistinct
    planOk := identityWindowOk && kernelWindowCanonical && directMapCanonical && pml4SlotsDistinct }

----------
-- Facts Of A Plan

variable (layout : MemoryLayout) (pmmPlan : PmmPlan)

theorem pagingPlanInit_identityWindowBytes :
    (pagingPlanInit layout pmmPlan).identityWindowBytes = 1073741824 := rfl

theorem pagingPlanInit_identityPml4Index : (pagingPlanInit layout pmmPlan).identityPml4Index = 0 :=
  rfl

theorem pagingPlanInit_kernelPml4Index : (pagingPlanInit layout pmmPlan).kernelPml4Index = 511 :=
  rfl

theorem pagingPlanInit_directMapPml4Index :
    (pagingPlanInit layout pmmPlan).directMapPml4Index = 256 := rfl

theorem pagingPlanInit_directMapBytes :
    (pagingPlanInit layout pmmPlan).directMapBytes = plannedDirectMapBytes pmmPlan := rfl

theorem plannedDirectMapBytes_bounds (pmmPlan : PmmPlan) :
    1073741824 ≤ plannedDirectMapBytes pmmPlan ∧
      plannedDirectMapBytes pmmPlan < 18446744073709551616 := by
  have hWidth := u64_lt (pmmPlan.reservedBelow + pmmPlan.managedBytes)
  unfold plannedDirectMapBytes
  generalize u64 (pmmPlan.reservedBelow + pmmPlan.managedBytes) = managed at hWidth ⊢
  have hBound : MemoryLayout.bootstrapIdentityMapBytes = 1073741824 := rfl
  rw [hBound]
  dsimp only
  by_cases hSmall : managed < 1073741824
  · rw [if_pos hSmall]
    omega
  · rw [if_neg hSmall]
    omega

/-
  The direct map is at least as large as the identity window. A plan that is accepted keeps it
  below 256 TiB: its last byte would not be canonical otherwise.
-/
theorem directMapBytes_bounds {layout : MemoryLayout} {pmmPlan : PmmPlan}
    (hOk : (pagingPlanInit layout pmmPlan).planOk = true) :
    1073741824 ≤ plannedDirectMapBytes pmmPlan ∧
      plannedDirectMapBytes pmmPlan ≤ 281474976710656 := by
  obtain ⟨hLow, hWidth⟩ := plannedDirectMapBytes_bounds pmmPlan
  have hEnd :
      isCanonicalAddress (lastByteForSpan directMapBase
        (plannedDirectMapBytes pmmPlan)) = true := by
    simp only [pagingPlanInit, Bool.and_eq_true] at hOk
    exact hOk.1.2.2
  refine ⟨hLow, ?_⟩
  rw [lastByteForSpan, if_neg (by omega)] at hEnd
  generalize plannedDirectMapBytes pmmPlan = bytes at hLow hWidth hEnd ⊢
  by_contra hLarge
  have hWrapped : u64 (directMapBase + bytes - 1) = bytes - 1 - 140737488355328 := by
    unfold u64 directMapBase
    omega
  rw [hWrapped, isCanonicalAddress] at hEnd
  split_ifs at hEnd
  · have hHigh := of_decide_eq_true hEnd
    omega
  · have hHigh := of_decide_eq_true hEnd
    omega

end LiamOS.X64
