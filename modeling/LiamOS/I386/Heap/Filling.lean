import LiamOS.I386.Heap.Growth
import LiamOS.I386.Heap.Live

/-
  A heap filled with small blocks.

  On a machine with enough memory, one call of `kmalloc(1)` after the other makes the block list
  longer by a used block, until the first 4096 blocks are used. From there a request grows the
  heap in vain, and splitting a block in front pushes a live one out of reach.

  Main declarations: `full_list_grows_twice`, `live_pointer_out_of_reach`.
-/

namespace LiamOS.I386

open Word

variable {next v : Nat} {h : Heap PageState} {tail used : List HeapCell}
variable {n page : Nat} {s : PageState} {c : HeapCell}

----------
-- A Machine With Enough Memory

/- 256 pages of memory and nothing mapped. -/
def roomyPages : PageState :=
  { smallPages with
    pmm := { smallPages.pmm with allocationEnd := 0x300000 } }

/-
  The state of the managers while the heap is below `next`:
  the first page and the table for the heap are taken, and
  one page for each page of the heap after the first.
-/
structure StockedPages (s : PageState) (next : Nat) : Prop where
  ready : s.vmm.initialized = true
  directory : s.directory = 0x100000
  table : s.memory 0x100C10 = 0x201003
  stack : s.pmm.freeStack = []
  bump : s.pmm.nextFreePage + 0xC1000000 = next + 0x201000
  stop : s.pmm.allocationEnd = 0x300000

theorem pageDirectoryIndex_heap (hLow : 0xC1000000 ≤ v) (hHigh : v < 0xC1080000) :
    pageDirectoryIndex v = 772 := by
  rw [pageDirectoryIndex, Nat.shiftRight_eq_div_pow, Nat.and_two_pow_sub_one_eq_mod _ 10]
  omega

theorem vmmAddressIsPageAligned_of_page (hAligned : page % 4096 = 0) :
    vmmAddressIsPageAligned page = true := by
  rw [vmmAddressIsPageAligned, pageOffset, Nat.and_two_pow_sub_one_eq_mod _ 12, hAligned]
  rfl

theorem vmmGetOrCreatePageTable_stocked (hStocked : StockedPages s next) (hLow : 0xC1000000 ≤ v)
    (hHigh : v < 0xC1080000) :
    vmmGetOrCreatePageTable v vmmPageWritable s = (0x201000, s) := by
  have hSlot : s.directorySlot v = 0x100C10 := by
    rw [PageState.directorySlot, hStocked.directory, pageDirectoryIndex_heap hLow hHigh]
  unfold vmmGetOrCreatePageTable
  dsimp only
  rw [hSlot, hStocked.table, if_pos (by decide), if_neg (by decide), hStocked.table]
  rfl

/- The heap's next page can be mapped. -/
theorem vmmMapPage_stocked (hStocked : StockedPages s next) (hLow : 0xC1000000 ≤ v)
    (hHigh : v < 0xC1080000) (hVirtual : v % 4096 = 0) (hPage : page % 4096 = 0) :
    (vmmMapPage v page vmmPageWritable s).1 = true ∧
      StockedPages (vmmMapPage v page vmmPageWritable s).2 next := by
  have hAlign : pageAlignDown v = v := pageAlignDown_of_page hVirtual (by omega)
  have hTable := vmmGetOrCreatePageTable_stocked hStocked hLow hHigh
  have hIndex := pageTableIndex_lt v
  unfold vmmMapPage
  rw [if_neg (by rw [hStocked.ready]; decide), if_neg (by decide)]
  dsimp only
  rw [vmmAddressIsPageAligned_of_page hVirtual, vmmAddressIsPageAligned_of_page hPage]
  simp only [Bool.not_true, Bool.or_self, Bool.false_eq_true, if_false]
  rw [hAlign, hTable]
  dsimp only
  rw [if_neg (by decide)]
  refine ⟨rfl, hStocked.ready, hStocked.directory, ?_, hStocked.stack, hStocked.bump, hStocked.stop⟩
  refine Eq.trans ?_ hStocked.table
  exact write_memory_ne s _ (by omega)

theorem pmmAllocPage_stocked (hStocked : StockedPages s next) (hLow : 0xC1000000 ≤ next)
    (hHigh : next < 0xC1080000) :
    pmmAllocPage s.pmm =
      (next - 0xC0DFF000,
        { s.pmm with
          nextFreePage := next - 0xC0DFF000 + 4096
          allocatedPages := u32 (s.pmm.allocatedPages + 1) }) := by
  have hBump := hStocked.bump
  have hNext : s.pmm.nextFreePage = next - 0xC0DFF000 := by omega
  have hWord : u32 (s.pmm.nextFreePage + 4096) = s.pmm.nextFreePage + 4096 := u32_of_lt (by omega)
  have hStop := hStocked.stop
  rw [pmmAllocPage_bump hStocked.stack (by omega) (by omega), hWord, hNext]

/- The loop of a growth by one page. -/
theorem heapGrowLoop_stocked (hStocked : StockedPages h.pages h.stats.nextVirtualPage)
    (hLow : 0xC1000000 ≤ h.stats.nextVirtualPage) (hHigh : h.stats.nextVirtualPage < 0xC1080000)
    (hAligned : h.stats.nextVirtualPage % 4096 = 0) :
    ∃ p s, heapGrowLoop pageServices h.stats 1 (HeapGrowth.start h) =
        .ok ((HeapGrowth.start h).addPage p s) ∧
      StockedPages s (h.stats.nextVirtualPage + 4096) := by
  have hAlloc := pmmAllocPage_stocked hStocked hLow hHigh
  have hTaken : StockedPages { h.pages with pmm := (pmmAllocPage h.pages.pmm).2 }
        (h.stats.nextVirtualPage + 4096) := by
    rw [hAlloc]
    refine ⟨hStocked.ready, hStocked.directory, hStocked.table, hStocked.stack, ?_, hStocked.stop⟩
    show h.stats.nextVirtualPage - 0xC0DFF000 + 4096 + 0xC1000000 = _
    omega
  have hPage : (pmmAllocPage h.pages.pmm).1 ≠ 0 ∧ (pmmAllocPage h.pages.pmm).1 % 4096 = 0 := by
    rw [hAlloc]
    show h.stats.nextVirtualPage - 0xC0DFF000 ≠ 0 ∧
      (h.stats.nextVirtualPage - 0xC0DFF000) % 4096 = 0
    omega
  have hMap := vmmMapPage_stocked hTaken hLow hHigh hAligned hPage.2
  refine ⟨(pmmAllocPage h.pages.pmm).1, _, ?_, hMap.2⟩
  unfold heapGrowLoop
  dsimp only [pageServices, HeapGrowth.start]
  rw [if_neg hPage.1, hMap.1]
  rfl

theorem heapGrow_stocked {cs : List HeapCell} (hRep : HeapRep h cs)
    (hStocked : StockedPages h.pages h.stats.nextVirtualPage) (hHigh : cellsBytes cs < 0x80000) :
    ∃ g grown, heapGrow pageServices h 8 = some (true, grown) ∧ Grown h cs 1 g grown ∧
        StockedPages grown.pages (h.stats.nextVirtualPage + 4096) := by
  have hNext := hRep.next
  have hPages := hRep.pages
  have hOne : heapRequiredPages 8 = 1 := by decide
  have hFits : GrowFits h 8 := by
    rw [GrowFits, hOne]
    omega
  rcases heapGrowLoop_stocked hStocked (by omega) (by omega) (by omega) with ⟨p, s, hLoop, hMore⟩
  rcases heapLinkGrowth_rep hRep pageServices ((GrowthRep.start h).addPage hRep (by omega) p s)
    (by omega) (by omega) with ⟨grown, hLink, hGrown⟩
  refine ⟨_, grown, ?_, hGrown, by rw [hGrown.pages, addPage_pages]; exact hMore⟩
  rw [heapGrow_of_fits hRep pageServices hFits, hOne, hLoop]
  exact hLink

----------
-- Used Cells In Front

/- Used cells of at most 64 bytes, then at most a free one. -/
structure Packed (used tail : List HeapCell) : Prop where
  taken : ∀ d ∈ used, d.used = true
  sizes : ∀ d ∈ used, d.size ≠ 0 ∧ d.size ≤ 64
  tail : tail = [] ∨ ∃ s, tail = [⟨s, false⟩] ∧ 8 ≤ s ∧ s ≤ 4080

theorem Packed.bytes_le (hPacked : Packed used tail) : cellsBytes used ≤ 80 * used.length := by
  have hSizes := hPacked.sizes
  clear hPacked
  induction used with
  | nil => simp
  | cons d used ih =>
    have hFirst := hSizes d (by simp)
    have hRest := ih fun e he => hSizes e (List.mem_cons_of_mem _ he)
    rw [cellsBytes_cons, List.length_cons]
    omega

theorem Packed.sizes_ne_zero (hPacked : Packed used tail) : ∀ d ∈ used ++ tail, d.size ≠ 0 := by
  intro d hd
  rcases List.mem_append.mp hd with hUsed | hTail
  · exact (hPacked.sizes d hUsed).1
  · rcases hPacked.tail with hNone | ⟨s, hEq, hLow, -⟩
    · rw [hNone] at hTail
      exact absurd hTail List.not_mem_nil
    · rw [hEq, List.mem_singleton] at hTail
      rw [hTail]
      exact Nat.ne_of_gt (Nat.lt_of_lt_of_le (by decide) hLow)

theorem Packed.coalesced (hPacked : Packed used tail) (budget : Nat) :
    Coalesced budget (used ++ tail) := by
  have hTaken := hPacked.taken
  have hTail := hPacked.tail
  clear hPacked
  induction used generalizing budget with
  | nil =>
    rcases hTail with rfl | ⟨s, rfl, -⟩
    · cases budget <;> trivial
    · exact Coalesced.single budget _
  | cons d used ih =>
    have hFirst := hTaken d (by simp)
    have hRest := fun b => ih b fun e he => hTaken e (List.mem_cons_of_mem _ he)
    cases budget with
    | zero => trivial
    | succ budget =>
      have hAfter := hRest budget
      rw [List.cons_append]
      generalize used ++ tail = cells at hAfter
      cases cells with
      | nil => trivial
      | cons e cells => exact Or.inr (Or.inr ⟨Or.inl hFirst, hAfter⟩)

/- New pages stand behind used cells. -/
theorem Packed.growCells_eq (hPacked : Packed used []) :
    growCells 1 used = used ++ [freshCell] := by
  have hMore : Packed used [freshCell] :=
    ⟨hPacked.taken, hPacked.sizes, Or.inr ⟨4080, rfl, by omega, by omega⟩⟩
  have hCells := hMore.coalesced heapMaxAuditBlocks
  rw [growCells]
  show mergeAll (used ++ [freshCell]) = _
  generalize used ++ [freshCell] = cells at hCells
  cases cells with
  | nil => rfl
  | cons c cells => exact mergeCells_of_coalesced hCells

/- The search for eight bytes stops at the free cell. -/
theorem packed_split {pre post : List HeapCell} {s : Nat} (hTaken : ∀ d ∈ used, d.used = true)
    (hSplit : used ++ [⟨s, false⟩] = pre ++ c :: post) (hFree : c.used = false) :
    pre = used ∧ c = ⟨s, false⟩ ∧ post = [] := by
  induction used generalizing pre with
  | nil =>
    cases pre with
    | nil =>
      simp only [List.nil_append, List.cons.injEq] at hSplit
      exact ⟨rfl, hSplit.1.symm, hSplit.2.symm⟩
    | cons d pre => simp at hSplit
  | cons d used ih =>
    cases pre with
    | nil =>
      simp only [List.cons_append, List.nil_append, List.cons.injEq] at hSplit
      rw [← hSplit.1, hTaken d (by simp)] at hFree
      exact absurd hFree (by simp)
    | cons e pre =>
      simp only [List.cons_append, List.cons.injEq] at hSplit
      rcases ih (fun x hx =>
          hTaken x (List.mem_cons_of_mem _ hx)) hSplit.2 with
        ⟨hPre, hCell, hPost⟩
      exact ⟨by rw [hPre, hSplit.1], hCell, hPost⟩

/- What taking eight bytes of the free cell leaves. -/
theorem Packed.take {s : Nat} (hPacked : Packed used [⟨s, false⟩]) (hServes : 8 ≤ s) :
    ∃ c tail, used ++ (takeCell 8 ⟨s, false⟩ ++ []) = (used ++ [c]) ++ tail ∧
        Packed (used ++ [c]) tail := by
  have hSmall : s ≤ 4080 := by
    rcases hPacked.tail with hNone | ⟨s', hEq, -, hLe⟩
    · exact absurd hNone (by simp)
    · simp only [List.cons.injEq, HeapCell.mk.injEq, and_true] at hEq
      omega
  refine ⟨⟨splitSize 8 ⟨s, false⟩, true⟩, splitRest 8 ⟨s, false⟩, by simp [takeCell], ?_, ?_, ?_⟩
  · intro d hd
    rcases List.mem_append.mp hd with hOld | hNew
    · exact hPacked.taken d hOld
    · rw [List.mem_singleton.mp hNew]
  · intro d hd
    rcases List.mem_append.mp hd with hOld | hNew
    · exact hPacked.sizes d hOld
    · rw [List.mem_singleton.mp hNew]
      simp only [splitSize]
      split <;> omega
  · simp only [splitRest]
    split
    · exact Or.inl rfl
    · exact Or.inr ⟨s - 8 - 16, rfl, by omega, by omega⟩

----------
-- One Small Request

/- A heap in order with used cells in front. -/
structure Filled (h : Heap PageState) (used tail : List HeapCell) : Prop where
  ready : HeapReady h (used ++ tail)
  initialized : h.stats.initialized = true
  stocked : StockedPages h.pages h.stats.nextVirtualPage
  packed : Packed used tail

theorem Filled.bytes_lt (hFilled : Filled h used tail) (hLength : used.length ≤ 4096) :
    cellsBytes (used ++ tail) < 0x80000 := by
  have hUsed := hFilled.packed.bytes_le
  rw [cellsBytes_append]
  rcases hFilled.packed.tail with hNone | ⟨s, hTail, -, hLe⟩
  · rw [hNone, cellsBytes_nil]
    omega
  · rw [hTail, cellsBytes_cons, cellsBytes_nil]
    simp only
    omega

/- An allocation that takes a block leaves the pages alone. -/
theorem kmallocTake_next (block requested : Nat) :
    (kmallocTake h block requested).stats.nextVirtualPage = h.stats.nextVirtualPage := by
  change (heapSplitBlock h block requested).stats.nextVirtualPage = _
  rw [(heapSplitBlock_rest h block requested).1]

/- `kmalloc(1)` with a free cell behind the used ones. -/
theorem Packed.taken_ends {h' : Heap PageState} {cs' : List HeapCell} {s size p : Nat}
    (hPacked : Packed used [⟨s, false⟩]) (hEight : alignUp size heapAlignment = 8)
    (hInit : h.stats.initialized = true) (hLength : used.length < 4096)
    (hEnds : KmallocEnds pageServices h (used ++ [⟨s, false⟩]) size p h' cs') :
    p = 0xC1000000 + cellsBytes used + 16 ∧ h'.pages = h.pages ∧
      h'.stats.nextVirtualPage = h.stats.nextVirtualPage ∧
      cs' = used ++ (takeCell 8 ⟨s, false⟩ ++ []) := by
  have hServes : 8 ≤ s := by
    rcases hPacked.tail with hNone | ⟨s', hEq, hLe, -⟩
    · exact absurd hNone (by simp)
    · simp only [List.cons.injEq, HeapCell.mk.injEq, and_true] at hEq
      omega
  have hInReach : HeapCell.mk s false ∈ (used ++ [HeapCell.mk s false]).take heapMaxAuditBlocks :=
    mem_take_of_split hLength
  have hServed : ¬ ∀ d ∈ (used ++ [HeapCell.mk s false]).take heapMaxAuditBlocks,
        d.Skipped (alignUp size heapAlignment) := by
    intro hAll
    rcases (hAll _ hInReach).2 with hUsed | hSmall
    · exact absurd hUsed (by simp)
    · rw [hEight] at hSmall
      exact absurd hServes (Nat.not_le.mpr hSmall)
  generalize hCells : used ++ [HeapCell.mk s false] = cells at *
  cases hEnds with
  | refused hRefused =>
    rcases hRefused with hNot | hZero
    · rw [hInit] at hNot
      exact absurd hNot (by simp)
    · rw [hZero] at hEight
      exact absurd hEight (by decide)
  | corrupt pre c post _ _ _ hEmpty =>
    have hMem : c ∈ used ++ [⟨s, false⟩] := by
      rw [hCells]
      simp
    rcases List.mem_append.mp hMem with hOld | hNew
    · exact absurd hEmpty (hPacked.sizes c hOld).1
    · rw [List.mem_singleton.mp hNew] at hEmpty
      simp only at hEmpty
      omega
  | taken pre c post _ _ _ _ _ _ hFree _ =>
    rcases packed_split hPacked.taken hCells hFree with ⟨hPre, hCell, hPost⟩
    rw [hEight, hPre, hCell, hPost]
    exact ⟨rfl, kmallocTake_pages _ _ _, kmallocTake_next _ _, rfl⟩
  | growFailed _ _ hAll => exact absurd hAll hServed
  | grown _ _ _ _ _ hAll => exact absurd hAll hServed

theorem Filled.kmalloc (hFilled : Filled h used tail) (hLength : used.length < 4096) :
    ∃ h' c tail', kmalloc pageServices h 1 = some (0xC1000000 + cellsBytes used + 16, h') ∧
        Filled h' (used ++ [c]) tail' := by
  have hRep := hFilled.ready.rep
  have hInit := hFilled.initialized
  rcases kmalloc_ends pageServices hRep 1 with ⟨p, h', cs', hRun, hEnds⟩
  have hReady' : HeapReady h' cs' := ⟨hEnds.rep hRep, hEnds.coalesced hFilled.ready.coalesced⟩
  have hInit' := hEnds.initialized.trans hInit
  have hOne : alignUp (1 : UInt32).toNat heapAlignment = 8 := by decide
  rcases hFilled.packed.tail with hNone | ⟨s, hTail, hServes, -⟩
  · -- every block is used: the heap grows by a page first
    have hPacked := hFilled.packed
    rw [hNone] at hPacked
    rw [hNone, List.append_nil] at hRep hEnds
    have hUsedBytes := hPacked.bytes_le
    rcases heapGrow_stocked hRep hFilled.stocked (by omega) with ⟨g, grown, hGrow, hGrown, hStocked⟩
    have hNext := hRep.next
    have hNext' := hGrown.rep.next
    have hMore : Packed used [⟨4080, false⟩] :=
      ⟨hPacked.taken, hPacked.sizes, Or.inr ⟨4080, rfl, by omega, by omega⟩⟩
    have hFresh := hPacked.growCells_eq
    rw [hFresh, cellsBytes_append, freshCell, cellsBytes_cons, cellsBytes_nil] at hNext'
    cases hEnds with
    | refused hRefused =>
      rcases hRefused with hNot | hZero
      · rw [hInit] at hNot
        exact absurd hNot (by simp)
      · exact absurd hZero (by decide)
    | corrupt pre c post _ _ _ hEmpty => exact absurd hEmpty (hPacked.sizes c (by simp)).1
    | taken pre c post _ _ _ _ _ _ hFree _ =>
      rw [hPacked.taken c (by simp)] at hFree
      exact absurd hFree (by simp)
    | growFailed failed _ _ hFailed =>
      rw [hOne, hGrow] at hFailed
      exact absurd hFailed (by simp)
    | grown g' grown' _ _ _ _ hGrow' _ _ hGrown' hRest =>
      rw [hOne, hGrow] at hGrow'
      simp only [Option.some.injEq, Prod.mk.injEq, true_and] at hGrow'
      rw [← hGrow', hOne, show heapRequiredPages 8 = 1 by
        decide, hFresh] at hRest
      rcases hMore.taken_ends (by decide) (hGrown.initialized.trans hInit) hLength hRest with
        ⟨hPointer, hPages, hSame, hCells⟩
      rcases hMore.take (by omega) with ⟨c, tail', hSplit, hPacked'⟩
      rw [hCells, hSplit] at hReady'
      rw [hPointer] at hRun
      refine ⟨h', c, tail', hRun, hReady', hInit', ?_, hPacked'⟩
      rw [hPages, hSame, hNext']
      rw [hNext] at hStocked
      rw [show 0xC1000000 + (cellsBytes used + (16 + 4080 +
        0)) = 0xC1000000 + cellsBytes used + 4096 by omega]
      exact hStocked
  · have hPacked := hFilled.packed
    rw [hTail] at hPacked hEnds
    rcases hPacked.taken_ends hOne hInit hLength hEnds with ⟨hPointer, hPages, hSame, hCells⟩
    rcases hPacked.take hServes with ⟨c, tail', hSplit, hPacked'⟩
    rw [hCells, hSplit] at hReady'
    rw [hPointer] at hRun
    refine ⟨h', c, tail', hRun, hReady', hInit', ?_, hPacked'⟩
    rw [hPages, hSame]
    exact hFilled.stocked

----------
-- The Machine After Boot

theorem heapInitialize_filled :
    ∃ h, heapInitialize pageServices (bssHeap roomyPages) = some h ∧ Filled h [] [freshCell] := by
  have hFigures : (heapInitialize pageServices (bssHeap roomyPages)).map
          (fun h =>
            ((h.stats.initialized, h.pages.vmm.initialized,
              h.pages.directory, h.pages.memory 0x100C10), h.pages.pmm.freeStack,
              h.pages.pmm.nextFreePage, h.stats.nextVirtualPage, h.pages.pmm.allocationEnd)) =
        some ((true, true, 0x100000, 0x201003), [], 0x202000, 0xC1001000, 0x300000) := by
    decide +kernel
  rcases Option.map_eq_some_iff.mp hFigures with ⟨h, hInit, hValues⟩
  simp only [Prod.mk.injEq] at hValues
  rcases hValues with ⟨⟨hReady, hVmm, hDirectory, hTable⟩, hStack, hBump, hNext, hStop⟩
  rcases heapInitialize_rep pageServices (bssHeap roomyPages) with ⟨h', hRun, hCells, -⟩
  rw [hInit] at hRun
  rw [← Option.some.inj hRun] at hCells
  refine ⟨h, hInit, ?_, hReady, ?_, ?_⟩
  · rcases hCells with ⟨-, hNot⟩ | ⟨hRep, -⟩
    · rw [hReady] at hNot
      exact absurd hNot (by simp)
    · exact ⟨hRep, trivial⟩
  · exact ⟨hVmm, hDirectory, hTable, hStack, by rw [hBump, hNext], hStop⟩
  · exact ⟨by simp, by simp, Or.inr ⟨4080, rfl, by omega, by omega⟩⟩

----------
-- A Full List Grows In Vain

theorem Filled.run (hFilled : Filled h used tail) (hLength : used.length + n ≤ 4096) :
    ∃ h' used' tail',
      Transition.run (heapStep pageServices) h (List.replicate n (.kmalloc 1)) = some h' ∧
      Filled h' used' tail' ∧
      used'.length = used.length + n := by
  induction n generalizing h used tail with
  | zero => exact ⟨h, used, tail, rfl, hFilled, rfl⟩
  | succ n ih =>
    rcases hFilled.kmalloc (by omega) with ⟨h₁, c, tail₁, hCall, hFilled₁⟩
    rcases ih hFilled₁ (by rw [List.length_append, List.length_singleton]; omega) with
      ⟨h', used', tail', hRun, hFilled', hLength'⟩
    refine ⟨h', used', tail', ?_, hFilled', ?_⟩
    · rw [List.replicate_succ, Transition.run]
      simp only [heapStep, hCall, Option.map_some]
      exact hRun
    · rw [hLength', List.length_append, List.length_singleton]
      omega

/- With 4096 used blocks in front a small request is in vain. -/
theorem Filled.growsInVain (hFilled : Filled h used tail) (hLength : used.length = 4096) :
    GrowsInVain pageServices h (cellAddresses 0xC1000000 (used ++ tail)) 1 := by
  have hRep := hFilled.ready.rep
  have hFront : (used ++ tail).take heapMaxAuditBlocks = used := by
    rw [heapMaxAuditBlocks, ← hLength, List.take_left]
  have hOne : alignUp (1 : UInt32).toNat heapAlignment = 8 := by decide
  have hFar := hFilled.packed.tail
  refine ⟨hFilled.initialized, by decide, ?_, ?_, Or.inr ?_⟩
  · have hEnds :=
      kmallocSearch_cells hRep.range hRep.cells hRep.fit (alignUp (1 : UInt32).toNat heapAlignment)
        heapMaxAuditBlocks
    rw [← hRep.head] at hEnds
    generalize kmallocSearch h _ _ _ = outcome at hEnds
    cases hEnds with
    | found pre c post hSplit hBudget _ _ hFree _ =>
      have hMem : c ∈ used := by
        rw [← hFront, hSplit]
        exact mem_take_of_split hBudget
      rw [hFilled.packed.taken c hMem] at hFree
      exact absurd hFree (by simp)
    | corrupt pre c post hSplit hBudget _ hEmpty =>
      have hMem : c ∈ used := by
        rw [← hFront, hSplit]
        exact mem_take_of_split hBudget
      exact absurd hEmpty (hFilled.packed.sizes c hMem).1
    | exhausted => rfl
  · rw [hOne]
    rcases heapGrow_stocked hRep hFilled.stocked (hFilled.bytes_lt hLength.le) with
      ⟨g, grown, hGrow, -⟩
    exact ⟨grown, hGrow⟩
  · rw [length_cellAddresses, hRep.cells.last_used]
    rcases hFar with hNone | ⟨s, hTail, -⟩
    · refine Or.inr ⟨by rw [hNone, List.append_nil, hLength]; rfl, ?_⟩
      rw [hNone, List.append_nil]
      cases hEnd : used.getLast? with
      | none =>
        rw [List.getLast?_eq_none_iff] at hEnd
        rw [hEnd] at hLength
        exact absurd hLength (by simp)
      | some d => exact ⟨d, rfl, hFilled.packed.taken d (List.mem_of_getLast? hEnd)⟩
    · refine Or.inl ?_
      rw [hTail, List.length_append, List.length_singleton, hLength, heapMaxAuditBlocks]
      omega

/-
  After 4096 calls of `kmalloc(1)` on the roomy machine the next one does not get by with one
  growth.
-/
theorem full_list_grows_twice : ∃ h₀ h, heapInitialize pageServices (bssHeap roomyPages) = some h₀ ∧
        Transition.run (heapStep pageServices) h₀ (List.replicate 4096 (.kmalloc 1)) = some h ∧
        ¬ OneGrowth pageServices h 1 := by
  rcases heapInitialize_filled with ⟨h₀, hInit, hFilled₀⟩
  rcases hFilled₀.run (n := 4096) (by simp) with ⟨h, used, tail, hRun, hFilled, hLength⟩
  refine ⟨h₀, h, hInit, hRun, ?_⟩
  have hVain := hFilled.growsInVain (by simpa using hLength)
  have hList := hFilled.ready.tiled.listed
  rw [oneGrowth_iff_of_ready pageServices hFilled.ready hList (by decide) (by decide)]
  exact not_not.mpr hVain

----------
-- A Live Block Pushed Out Of Reach

/- A block of 64 bytes at the head of the list. -/
theorem Filled.first (hFilled : Filled h [] [freshCell]) :
    ∃ h', I386.kmalloc pageServices h 64 = some (0xC1000010, h') ∧
        Filled h' [⟨64, true⟩] [⟨4000, false⟩] := by
  have hRep := hFilled.ready.rep
  rcases kmalloc_ends pageServices hRep 64 with ⟨p, h', cs', hRun, hEnds⟩
  have hReady' : HeapReady h' cs' := ⟨hEnds.rep hRep, hEnds.coalesced hFilled.ready.coalesced⟩
  have hInit' := hEnds.initialized.trans hFilled.initialized
  have hPacked : Packed [⟨64, true⟩] [⟨4000, false⟩] :=
    ⟨by simp, by simp, Or.inr ⟨4000, rfl, by omega, by omega⟩⟩
  have hServed : ¬ ∀ d ∈ [freshCell].take heapMaxAuditBlocks,
        d.Skipped (alignUp (64 : UInt32).toNat heapAlignment) := by
    intro hAll
    have hSkip := hAll freshCell (by simp [heapMaxAuditBlocks])
    exact absurd hSkip.2 (by decide)
  generalize hCells : [] ++ [freshCell] = cells at hEnds
  cases hEnds with
  | refused hRefused =>
    rcases hRefused with hNot | hZero
    · rw [hFilled.initialized] at hNot
      exact absurd hNot (by simp)
    · exact absurd hZero (by decide)
  | corrupt pre c post _ _ _ hEmpty =>
    have hMem : c ∈ [] ++ [freshCell] := by
      rw [hCells]
      simp
    rw [List.nil_append, List.mem_singleton] at hMem
    rw [hMem] at hEmpty
    exact absurd hEmpty (by decide)
  | taken pre c post _ _ _ _ _ _ hFree _ =>
    have hNone : ∀ d ∈ ([] : List HeapCell), d.used = true := by simp
    rcases packed_split hNone hCells hFree with ⟨hPre, hCell, hPost⟩
    subst hPre hCell hPost
    refine ⟨_, hRun, hReady', hInit', ?_, hPacked⟩
    rw [kmallocTake_pages, kmallocTake_next]
    exact hFilled.stocked
  | growFailed _ _ hAll => exact absurd hAll (by rw [← hCells]; exact hServed)
  | grown _ _ _ _ _ hAll => exact absurd hAll (by rw [← hCells]; exact hServed)

/- Small requests by a client. -/
theorem Filled.client {boot : Heap PageState} {returned live : List UInt32}
    (hClient : ClientRun pageServices boot h returned live) (hFilled : Filled h used tail)
    (hLength : used.length + n ≤ 4096) :
    ∃ h' more tail' returned' live',
      ClientRun pageServices boot h' returned' live' ∧ Filled h' (used ++ more) tail' ∧
        more.length = n ∧
        returned ⊆ returned' := by
  induction n generalizing h used tail returned live with
  | zero =>
    refine ⟨h, [], tail, returned, live, hClient, ?_, rfl, List.Subset.refl _⟩
    rw [List.append_nil]
    exact hFilled
  | succ n ih =>
    rcases hFilled.kmalloc (by omega) with ⟨h₁, c, tail₁, hCall, hFilled₁⟩
    have hBytes := hFilled.packed.bytes_le
    have hWord :
        (UInt32.ofNat
          (0xC1000000 + cellsBytes used + 16)).toNat = 0xC1000000 + cellsBytes used + 16 :=
      UInt32.toNat_ofNat_of_lt' (by
        show _ < 4294967296
        omega)
    have hSome : UInt32.ofNat (0xC1000000 + cellsBytes used + 16) ≠ 0 := by
      intro hZero
      rw [hZero] at hWord
      exact absurd hWord (by
        show (0 : Nat) ≠ _
        omega)
    rw [← hWord] at hCall
    have hClient₁ := hClient.kmallocSome 1 (by decide) (by decide) _ hSome hCall
    rcases ih hClient₁ hFilled₁ (by rw [List.length_append, List.length_singleton]; omega) with
      ⟨h', more, tail', returned', live', hClient', hFilled', hMore, hKept⟩
    refine ⟨h', c :: more, tail', returned', live', hClient',
      ?_, by rw [List.length_cons, hMore], ?_⟩
    · rw [List.append_assoc, List.singleton_append] at hFilled'
      exact hFilled'
    · exact fun x hx => hKept (List.mem_cons_of_mem _ hx)

/- The first block is freed and nothing merges with it. -/
theorem Filled.freeFirst {more : List HeapCell}
    (hFilled : Filled h (⟨64, true⟩ :: c :: more) tail) :
    ∃ h', kfree h 0xC1000010 = some h' ∧ HeapReady h' (⟨64, false⟩ :: (c :: more ++ tail)) ∧
        h'.stats.initialized = true := by
  have hRep : HeapRep h ([] ++ ⟨64, true⟩ :: (c :: more ++ tail)) := hFilled.ready.rep
  have hPacked := hFilled.packed
  have hFind : heapFindBlockForPointer h (0xC1000010 : UInt32).toNat = 0xC1000000 + cellsBytes [] :=
    heapFindBlockForPointer_mid hRep hFilled.initialized hPacked.sizes_ne_zero
  rcases kfree_found hRep rfl hFind with ⟨h', hRun, hFreed⟩
  have hRest : Packed (c :: more) tail :=
    ⟨fun d hd => hPacked.taken d (List.mem_cons_of_mem _ hd),
      fun d hd => hPacked.sizes d (List.mem_cons_of_mem _ hd), hPacked.tail⟩
  have hCells : Coalesced heapMaxAuditBlocks (⟨64, false⟩ :: (c :: more ++ tail)) :=
    Or.inr (Or.inr ⟨Or.inr (hPacked.taken c (by simp)), hRest.coalesced 4095⟩)
  have hSame : freeCell [] ⟨64, true⟩ (c :: more ++ tail) = ⟨64, false⟩ :: (c :: more ++ tail) :=
    mergeCells_of_coalesced hCells
  refine ⟨h', hRun, ⟨?_, hCells⟩, hFreed.initialized.trans hFilled.initialized⟩
  rw [← hSame]
  exact hFreed.rep

/- A small request splits the free block at the head. -/
theorem kmalloc_splits_first {rest : List HeapCell} (hReady : HeapReady h (⟨64, false⟩ :: rest))
    (hInit : h.stats.initialized = true) :
    ∃ h', kmalloc pageServices h 1 = some (0xC1000010, h') ∧
        HeapRep h' (⟨8, true⟩ :: ⟨40, false⟩ :: rest) ∧
        h'.stats.initialized = true := by
  have hRep := hReady.rep
  rcases kmalloc_ends pageServices hRep 1 with ⟨p, h', cs', hRun, hEnds⟩
  have hRep' := hEnds.rep hRep
  have hInit' := hEnds.initialized.trans hInit
  have hNotSkipped :
      ¬ (⟨64, false⟩ : HeapCell).Skipped (alignUp (1 : UInt32).toNat heapAlignment) := by
    rintro ⟨-, hBad⟩
    exact absurd hBad (by decide)
  have hServed : ¬ ∀ d ∈ (HeapCell.mk 64 false :: rest).take heapMaxAuditBlocks,
        d.Skipped (alignUp (1 : UInt32).toNat heapAlignment) := by
    intro hAll
    have hHead :
        HeapCell.mk 64 false ∈ ([] ++ HeapCell.mk 64 false :: rest).take heapMaxAuditBlocks :=
      mem_take_of_split (by decide)
    exact hNotSkipped (hAll _ hHead)
  have hFirst : ∀ {pre : List HeapCell} {c : HeapCell} {post : List HeapCell},
        HeapCell.mk 64 false :: rest = pre ++ c :: post →
        (∀ d ∈ pre, d.Skipped (alignUp (1 : UInt32).toNat heapAlignment)) →
        pre = [] ∧ c = ⟨64, false⟩ ∧ post = rest := by
    intro pre c post hSplit hPre
    cases pre with
    | nil =>
      simp only [List.nil_append, List.cons.injEq] at hSplit
      exact ⟨rfl, hSplit.1.symm, hSplit.2.symm⟩
    | cons d pre =>
      simp only [List.cons_append, List.cons.injEq] at hSplit
      exact absurd (hPre d (by simp)) (by rw [← hSplit.1]; exact hNotSkipped)
  generalize hCells : HeapCell.mk 64 false :: rest = cells at *
  cases hEnds with
  | refused hRefused =>
    rcases hRefused with hNot | hZero
    · rw [hInit] at hNot
      exact absurd hNot (by simp)
    · exact absurd hZero (by decide)
  | corrupt pre c post _ _ hPre hEmpty =>
    rw [(hFirst rfl hPre).2.1] at hEmpty
    exact absurd hEmpty (by decide)
  | taken pre c post _ _ _ _ hPre _ _ _ =>
    rcases hFirst rfl hPre with ⟨hNil, hCell, hPost⟩
    subst hNil hCell hPost
    exact ⟨_, hRun, hRep', hInit'⟩
  | growFailed _ _ hAll => exact absurd hAll hServed
  | grown _ _ _ _ _ hAll => exact absurd hAll hServed

/-
  A block of 64 bytes, 4095 small ones, then the first block is freed and taken again by a small
  request: the last block is live and the heap does not know its pointer any more.
-/
theorem live_pointer_out_of_reach :
    ∃ h returned live p, ClientRun pageServices (bssHeap roomyPages) h returned live ∧ p ∈ live ∧
        heapValidatePointer h p = false := by
  rcases heapInitialize_filled with ⟨h₀, hInit, hFilled₀⟩
  rcases hFilled₀.first with ⟨h₁, hCall₁, hFilled₁⟩
  have hClient₁ :=
    (ClientRun.start hInit).kmallocSome 64 (by decide) (by decide) 0xC1000010 (by decide) hCall₁
  rcases hFilled₁.client hClient₁ (n := 4094) (by simp) with
    ⟨h₂, more, tail₂, returned, live, hClient₂, hFilled₂, hMore, hKept⟩
  rcases hFilled₂.kmalloc (by simp [hMore]) with ⟨h₃, c, tail₃, hCall₃, hFilled₃⟩
  have hBytes := hFilled₂.packed.bytes_le
  rw [List.length_append, hMore, List.length_singleton] at hBytes
  generalize hAddress : 0xC1000000 + cellsBytes ([⟨64, true⟩] ++ more) + 16 = a at hCall₃
  have hHigh : a < 4294967296 := by omega
  have hLow : 0xC1000010 < a := by
    rw [← hAddress, cellsBytes_append, cellsBytes_cons]
    omega
  have hWord : (UInt32.ofNat a).toNat = a := UInt32.toNat_ofNat_of_lt' hHigh
  have hOther : UInt32.ofNat a ≠ 0xC1000010 := by
    intro hEq
    rw [hEq] at hWord
    exact absurd hWord (Nat.ne_of_lt hLow)
  have hSome : UInt32.ofNat a ≠ 0 := by
    intro hEq
    rw [hEq] at hWord
    exact absurd hWord (Nat.ne_of_lt (by
      show 0 < a
      omega))
  have hClient₃ :=
    hClient₂.kmallocSome 1 (by decide) (by decide) _ hSome (by rw [hWord]; exact hCall₃)
  have hShape : ∃ d ds, more ++ [c] = d :: ds := by
    cases more with
    | nil => simp at hMore
    | cons d ds => exact ⟨d, ds ++ [c], rfl⟩
  rcases hShape with ⟨d, ds, hShape⟩
  rw [List.append_assoc, hShape, List.singleton_append] at hFilled₃
  rcases hFilled₃.freeFirst with ⟨h₄, hCall₄, hReady₄, hInit₄⟩
  have hClient₄ := hClient₃.kfree 0xC1000010 (List.mem_cons_of_mem _ (hKept (by simp))) hCall₄
  rcases kmalloc_splits_first hReady₄ hInit₄ with ⟨h₅, hCall₅, hRep₅, hInit₅⟩
  have hClient₅ := hClient₄.kmallocSome 1 (by decide) (by decide) 0xC1000010 (by decide) hCall₅
  refine ⟨h₅, _, _, UInt32.ofNat a, hClient₅, ?_, ?_⟩
  · simp [hOther]
  · have hSplit : (⟨8, true⟩ : HeapCell) :: ⟨40, false⟩ :: (d :: ds ++ tail₃) =
          (⟨8, true⟩ :: ⟨40, false⟩ :: more) ++ c :: tail₃ := by
      rw [← hShape]
      simp
    have hSizes : ∀ e ∈ (⟨8, true⟩ :: ⟨40, false⟩ :: more) ++ c :: tail₃, e.size ≠ 0 := by
      rw [← hSplit]
      intro e he
      rcases List.mem_cons.mp he with hEight | hRest
      · rw [hEight]
        decide
      · rcases List.mem_cons.mp hRest with hForty | hOld
        · rw [hForty]
          decide
        · exact hFilled₃.packed.sizes_ne_zero e (List.mem_cons_of_mem _ hOld)
    rw [hSplit] at hRep₅
    have hFind := heapFindBlockForPointer_mid hRep₅ hInit₅ hSizes
    have hPointer : 0xC1000000 + cellsBytes (⟨8, true⟩ :: ⟨40, false⟩ :: more) + 16 = a := by
      rw [← hAddress]
      simp only [List.singleton_append, cellsBytes_cons]
      omega
    rw [hPointer, if_neg (by simp [hMore, heapMaxAuditBlocks])] at hFind
    rw [heapValidatePointer, hWord, hFind]
    rfl

end LiamOS.I386
