import LiamOS.Lib.PageTable
import LiamOS.X64.BootInfo

/-
  The physical page manager of the x86_64 kernel, `kernel/arch/x86_64/pmm.c`, and the memory
  layout of `memory_layout.c`.

  The used part of the page stack is a list with its top first, so the number of free pages is its
  length.

  Key definitions: `MemoryLayout`, `Pmm`, `pmmInit`, `pmmAllocPage`, `pmmFreePage`.
-/

namespace LiamOS.X64

open Word PageTable

variable {page : Nat}

----------
-- Memory Layout

/- The linker's bounds of the kernel image. -/
structure MemoryLayout where
  kernelStart : UInt64
  kernelEnd : UInt64
deriving DecidableEq, Repr

namespace MemoryLayout

def kernelLoadBase : Nat := 0x100000

def bootstrapIdentityMapBytes : Nat := 0x40000000

def kernelSizeBytes (layout : MemoryLayout) : Nat := (layout.kernelEnd - layout.kernelStart).toNat

end MemoryLayout

----------
-- Alignment

def alignDown (value alignment : Nat) : Nat := value &&& not64 (alignment - 1)

def alignUp (value alignment : Nat) : Nat := alignDown (u64 (value + alignment - 1)) alignment

theorem alignDown_page {value : Nat} (hValue : value < 18446744073709551616) :
    alignDown value 4096 = value - value % 4096 :=
  and_not64_low 12 (by decide) hValue

theorem alignUp_page (value : Nat) :
    alignUp value 4096 = u64 (value + 4095) - u64 (value + 4095) % 4096 :=
  alignDown_page (u64_lt _)

theorem alignUp_page_aligned (value : Nat) : PageAligned (alignUp value 4096) := by
  rw [alignUp_page]
  unfold PageAligned
  omega

----------
-- State

structure Pmm where
  initialized : Bool
  stack : List Nat
  trackedPages : Nat
  droppedPages : Nat
  duplicateFreeRejects : Nat
  lowestPage : Nat
  highestPage : Nat
deriving DecidableEq, Repr

variable {pmm : Pmm}

def zeroPmm : Pmm := ⟨false, [], 0, 0, 0, 0, 0⟩

def pmmMaxTrackedPages : Nat := 65536

def trackPage (page : Nat) (pmm : Pmm) : Pmm := if pmmMaxTrackedPages ≤ pmm.trackedPages then
    { pmm with droppedPages := u32 (pmm.droppedPages + 1) }
  else
    { pmm with
      stack := page :: pmm.stack
      trackedPages := pmm.trackedPages + 1
      lowestPage := if pmm.lowestPage = 0 ∨ page < pmm.lowestPage then page else pmm.lowestPage
      highestPage := if pmm.highestPage < page then page else pmm.highestPage }

/- The loop of `track_range`, with the turns it takes. -/
def trackPages : Nat → Nat → Pmm → Pmm
| 0, _, pmm => pmm
| turns + 1, page, pmm => trackPages turns (page + 4096) (trackPage page pmm)

def trackRange (start stop : Nat) (pmm : Pmm) : Pmm := if stop ≤ start ∨ stop - start < 4096 then
    pmm
  else
    trackPages ((stop - start) / 4096) start pmm

def memoryRegionAvailable : UInt32 := 1

/-
  The usable pages of a region above the kernel, as a range of addresses. The plan of the page
  manager and the page manager itself compute it in the same way.
-/
def usableRange (reservedBelow : Nat) (region : MemoryRegion) : Option (Nat × Nat) :=
  if region.type ≠ memoryRegionAvailable then
    none
  else
    let base := region.base.toNat
    let stop := u64 (base + region.length.toNat)
    if stop < base ∨ stop ≤ reservedBelow then
      none
    else
      let start := if base < reservedBelow then reservedBelow else base
      some (alignUp start 4096, alignDown stop 4096)

def trackRegion (reservedBelow : Nat) (pmm : Pmm) (region : MemoryRegion) : Pmm :=
  match usableRange reservedBelow region with
  | none => pmm
  | some (start, stop) => trackRange start stop pmm

def pmmInit (regions : List MemoryRegion) (layout : MemoryLayout) : Pmm :=
  let reservedBelow := alignUp layout.kernelEnd.toNat 4096
  { regions.foldl (trackRegion reservedBelow) zeroPmm with initialized := true }

def pmmInvalidPage : Nat := 0

def pmmAllocPage (pmm : Pmm) : Nat × Pmm := if pmm.initialized = false then (pmmInvalidPage, pmm)
  else
    match pmm.stack with
    | [] => (pmmInvalidPage, pmm)
    | page :: stack => (page, { pmm with stack := stack })

def pmmFreePage (page : Nat) (pmm : Pmm) : Bool × Pmm :=
  if pmm.initialized = false ∨ page = pmmInvalidPage then
    (false, pmm)
  else if page &&& 4095 ≠ 0 then
    (false, pmm)
  else if page < pmm.lowestPage ∨ pmm.highestPage < page then
    (false, pmm)
  else if page ∈ pmm.stack then
    (false, { pmm with duplicateFreeRejects := u32 (pmm.duplicateFreeRejects + 1) })
  else if pmm.trackedPages ≤ pmm.stack.length then
    (false, pmm)
  else
    (true, { pmm with stack := page :: pmm.stack })

----------
-- Tracked Pages

theorem trackPages_aligned {turns : Nat} (hPage : PageAligned page)
    (hStack : ∀ p ∈ pmm.stack, PageAligned p) :
    ∀ p ∈ (trackPages turns page pmm).stack, PageAligned p := by
  induction turns generalizing page pmm with
  | zero => exact hStack
  | succ turns ih =>
    rw [trackPages]
    apply ih
    · unfold PageAligned at hPage ⊢
      omega
    · intro p hp
      rw [trackPage] at hp
      split at hp
      · exact hStack p hp
      · rcases List.mem_cons.mp hp with hEq | hOld
        · rw [hEq]
          exact hPage
        · exact hStack p hOld

theorem usableRange_aligned {reservedBelow start stop : Nat} {region : MemoryRegion}
    (hRange : usableRange reservedBelow region = some (start, stop)) :
    PageAligned start := by
  unfold usableRange at hRange
  split at hRange
  · exact absurd hRange (by simp)
  · dsimp only at hRange
    split at hRange
    · exact absurd hRange (by simp)
    · simp only [Option.some.injEq, Prod.mk.injEq] at hRange
      rw [← hRange.1]
      exact alignUp_page_aligned _

/- Every page of the initial stack is a page address. -/
theorem pmmInit_aligned (regions : List MemoryRegion) (layout : MemoryLayout) :
    ∀ p ∈ (pmmInit regions layout).stack, PageAligned p := by
  have hFold : ∀ (rs : List MemoryRegion) (pmm : Pmm), (∀ p ∈ pmm.stack, PageAligned p) →
        ∀ p ∈ (rs.foldl (trackRegion (alignUp layout.kernelEnd.toNat 4096)) pmm).stack,
          PageAligned p := by
    intro rs
    induction rs with
    | nil => exact fun _ hStack => hStack
    | cons region rs ih =>
      intro pmm hStack
      apply ih
      rw [trackRegion]
      split
      · exact hStack
      · next start stop hRange =>
          rw [trackRange]
          split
          · exact hStack
          · exact trackPages_aligned (usableRange_aligned hRange) hStack
  exact hFold regions zeroPmm (by simp [zeroPmm])

----------
-- Taking And Giving Back Pages

/-
  A page that is handed out leaves the stack; without one the stack stays, or loses the page at
  address zero.
-/
theorem pmmAllocPage_spec (pmm : Pmm) :
    ((pmmAllocPage pmm).1 ≠ 0 → pmm.stack = (pmmAllocPage pmm).1 :: (pmmAllocPage pmm).2.stack) ∧
      ((pmmAllocPage pmm).2.stack.Sublist pmm.stack) := by
  rw [pmmAllocPage]
  split
  · exact ⟨by simp [pmmInvalidPage], List.Sublist.refl _⟩
  · split
    · exact ⟨by simp [pmmInvalidPage], List.Sublist.refl _⟩
    · next page stack hStack =>
        rw [hStack]
        exact ⟨fun _ => rfl, List.sublist_cons_self _ _⟩

/- An allocation from a stack with a page on top. -/
theorem pmmAllocPage_cons {rest : List Nat} (hReady : pmm.initialized = true)
    (hStack : pmm.stack = page :: rest) :
    pmmAllocPage pmm = (page, { pmm with stack := rest }) := by
  unfold pmmAllocPage
  rw [if_neg (by rw [hReady]; decide), hStack]

/- The stack only grows by the page that is given back. -/
theorem pmmFreePage_subperm (page : Nat) (pmm : Pmm) :
    (pmmFreePage page pmm).2.stack.Subperm (page :: pmm.stack) := by
  have hKept : pmm.stack.Subperm (page :: pmm.stack) := (List.sublist_cons_self _ _).subperm
  rw [pmmFreePage]
  split
  · exact hKept
  · split
    · exact hKept
    · split
      · exact hKept
      · split
        · exact hKept
        · split
          · exact hKept
          · exact List.Subperm.refl _

end LiamOS.X64
