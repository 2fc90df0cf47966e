import LiamOS.I386.Heap.Cells

/-
  The heap's operations on its cells.

  `HeapRep h cs` says that the heap `h` holds the cells `cs` from the start of its range to
  `next_virtual_page`. Each operation of the source is shown to end and to act on the cells as an
  operation on lists: taking a cell splits it, freeing one clears its flag and merges, growth
  appends fresh pages and merges.

  Main declarations: `kmallocTake_rep`, `heapMergeFreeBlocks_rep`, `heapGrow_rep`.
-/

namespace LiamOS.I386

open Word

variable {σ : Type}
variable {h : Heap σ} {cs post pre : List HeapCell} {blocks : Nat → HeapBlock} {a k requested : Nat}
variable {c : HeapCell} {g : HeapGrowth σ}
variable {h' : Heap σ}

----------
-- Representation

/- The heap holds exactly these cells. -/
structure HeapRep (h : Heap σ) (cs : List HeapCell) : Prop where
  range : h.HasRange
  head : h.head = cellsPointer 0xC1000000 cs
  cells : CellsAt h.blocks 0 0xC1000000 cs
  fit : CellsFit 0xC1000000 cs
  next : h.stats.nextVirtualPage = 0xC1000000 + cellsBytes cs
  pages : 4096 * h.stats.totalPages = cellsBytes cs
  bytes : h.stats.totalBytes = cellsBytes cs

/- The statistics that place the heap in memory. -/
structure HeapStats.SameLayout (s t : HeapStats) : Prop where
  virtualStart : t.virtualStart = s.virtualStart
  virtualEnd : t.virtualEnd = s.virtualEnd
  nextVirtualPage : t.nextVirtualPage = s.nextVirtualPage
  totalPages : t.totalPages = s.totalPages
  totalBytes : t.totalBytes = s.totalBytes

theorem HeapRep.congr {cs' : List HeapCell} (hRep : HeapRep h cs)
    (hStats : h.stats.SameLayout h'.stats) (hHead : h'.head = cellsPointer 0xC1000000 cs')
    (hCells : CellsAt h'.blocks 0 0xC1000000 cs') (hBytes : cellsBytes cs' = cellsBytes cs)
    (hSizes : ∀ c ∈ cs', c.size % 8 = 0) :
    HeapRep h' cs' := by
  have hEnd := hRep.fit.end_le
  refine ⟨⟨?_, ?_⟩, hHead, hCells, ⟨le_refl _, by omega, by norm_num, hSizes⟩, ?_, ?_, ?_⟩
  · rw [hStats.virtualStart, hRep.range.1]
  · rw [hStats.virtualEnd, hRep.range.2]
  · rw [hStats.nextVirtualPage, hRep.next, hBytes]
  · rw [hStats.totalPages, hRep.pages, hBytes]
  · rw [hStats.totalBytes, hRep.bytes, hBytes]

/- Statistics outside the layout do not matter. -/
theorem HeapRep.withStats (hRep : HeapRep h cs) (hStats : h.stats.SameLayout h'.stats)
    (hHead : h'.head = h.head) (hBlocks : h'.blocks = h.blocks) :
    HeapRep h' cs := by
  refine hRep.congr hStats ?_ ?_ rfl hRep.fit.sizes
  · rw [hHead, hRep.head]
  · rw [hBlocks]
    exact hRep.cells

theorem heapRecalculateStats_rep (hRep : HeapRep h cs) : HeapRep (heapRecalculateStats h) cs :=
  hRep.withStats ⟨rfl, rfl, rfl, rfl, rfl⟩ rfl rfl

theorem HeapRep.length_le (hRep : HeapRep h cs) : cs.length ≤ 1048576 := by
  have hEnd := hRep.fit.end_le
  have hLength := length_le_cellsBytes cs
  omega

/- The byte sums of the statistics are those of the cells. -/
structure HeapCounted (h : Heap σ) (cs : List HeapCell) : Prop where
  used : h.stats.usedBytes = (tallyCells heapMaxAuditBlocks cs HeapTally.zero).usedBytes
  free : h.stats.freeBytes = (tallyCells heapMaxAuditBlocks cs HeapTally.zero).freeBytes

theorem heapRecalculateStats_counted (hRep : HeapRep h cs) :
    HeapCounted (heapRecalculateStats h) cs := by
  have hWalk :=
    heapRecalculateLoop_cells hRep.range hRep.cells hRep.fit heapMaxAuditBlocks HeapTally.zero
  rw [← hRep.head] at hWalk
  exact ⟨by rw [← hWalk]; rfl, by rw [← hWalk]; rfl⟩

----------
-- Replacing Cells

/- Two adjacent runs, the second possibly empty. -/
theorem cellsAt_append_pointer {xs ys : List HeapCell} :
    CellsAt blocks 0 a (xs ++ ys) ↔ CellsAt blocks (cellsPointer (a + cellsBytes xs) ys) a xs ∧
        CellsAt blocks 0 (a + cellsBytes xs) ys := by
  by_cases hRest : ys = []
  · subst hRest
    simp [CellsAt]
  · rw [cellsAt_append hRest, cellsPointer, if_neg hRest]

/- Rewriting the headers of a middle run in place. -/
theorem CellsAt.replace {blocks' : Nat → HeapBlock} (mid mid' : List HeapCell)
    (hCells : CellsAt blocks 0 a (pre ++ (mid ++ post))) (hMid : mid ≠ []) (hMid' : mid' ≠ [])
    (hBytes : cellsBytes mid' = cellsBytes mid)
    (hNew : CellsAt blocks' (cellsPointer (a + cellsBytes pre + cellsBytes mid) post)
        (a + cellsBytes pre) mid')
    (hOutside : ∀ x,
        x < a + cellsBytes pre ∨ a + cellsBytes pre + cellsBytes mid ≤ x → blocks' x = blocks x) :
    CellsAt blocks' 0 a (pre ++ (mid' ++ post)) := by
  rw [cellsAt_append (by simp [hMid]), cellsAt_append_pointer] at hCells
  rw [cellsAt_append (by simp [hMid']), cellsAt_append_pointer, hBytes]
  rcases hCells with ⟨hPre, -, hPost⟩
  refine ⟨hPre.congr ?_, hNew, hPost.congr ?_⟩
  · intro x _ hHigh
    exact hOutside x (Or.inl hHigh)
  · intro x hLow _
    exact hOutside x (Or.inr hLow)

/- The header of a cell in the middle of a run. -/
theorem CellsAt.header_mid (hCells : CellsAt blocks 0 a (pre ++ c :: post)) :
    blocks (a + cellsBytes pre) = c.header (cellsPointer (a + cellsBytes pre + 16 + c.size) post) :=
  ((cellsAt_append (by simp)).mp hCells).2.1

theorem CellsFit.mid (hFit : CellsFit a (pre ++ post)) : CellsFit (a + cellsBytes pre) post := by
  induction pre generalizing a with
  | nil => simpa using hFit
  | cons c cs ih =>
    have hTail := ih hFit.tail
    rw [cellsBytes_cons]
    have hAddress : a + (16 + c.size + cellsBytes cs) = a + 16 + c.size + cellsBytes cs := by omega
    rw [hAddress]
    exact hTail

/- The sizes of cells that replace one of the list. -/
theorem HeapRep.sizes_replace (hRep : HeapRep h (pre ++ c :: post)) (mid : List HeapCell)
    (hMid : ∀ d ∈ mid, d.size % 8 = 0) :
    ∀ d ∈ pre ++ (mid ++ post), d.size % 8 = 0 := by
  intro d hd
  simp only [List.mem_append] at hd
  rcases hd with hPre | hMem | hPost
  · exact hRep.fit.sizes d (by simp [hPre])
  · exact hMid d hMem
  · exact hRep.fit.sizes d (by simp [hPost])

/- Storing the header of one cell with another flag. -/
theorem HeapRep.setUsed (hRep : HeapRep h (pre ++ c :: post)) (used : Bool) : HeapRep
      (h.setBlock (0xC1000000 + cellsBytes pre)
        { h.blocks (0xC1000000 + cellsBytes pre) with used := used })
      (pre ++ ([{ size := c.size, used := used }] ++ post)) := by
  refine hRep.congr ⟨rfl, rfl, rfl, rfl, rfl⟩ ?_ ?_ ?_ ?_
  · rw [setBlock_head, hRep.head]
    simp [cellsPointer]
  · refine CellsAt.replace [c] [{ size := c.size, used := used }]
      (by simpa using hRep.cells) (by simp) (by simp) rfl ?_
      ?_
    · refine ⟨?_, trivial⟩
      simp [Heap.setBlock, hRep.cells.header_mid, HeapCell.header, Nat.add_assoc]
    · intro x hx
      have hNe : x ≠ 0xC1000000 + cellsBytes pre := by
        simp only [cellsBytes_cons] at hx
        omega
      simp only [Heap.setBlock, if_neg hNe]
  · simp
  · refine hRep.sizes_replace [{ size := c.size, used := used }] ?_
    intro d hd
    rw [List.mem_singleton.mp hd]
    exact hRep.fit.sizes c (by simp)

----------
-- Taking A Cell

/- What `heap_split_block` leaves behind a taken cell. -/
def splitRest (requested : Nat) (c : HeapCell) : List HeapCell := if c.size ≤ requested + 32 then []
  else
    [{ size := c.size - requested - 16, used := false }]

/- The payload size a taken cell is left with. -/
def splitSize (requested : Nat) (c : HeapCell) : Nat :=
  if c.size ≤ requested + 32 then c.size else requested

/- A cell taken by an allocation and what is split off. -/
def takeCell (requested : Nat) (c : HeapCell) : List HeapCell :=
  { size := splitSize requested c, used := true } ::
    splitRest requested c

theorem cellsBytes_takeCell (requested : Nat) (c : HeapCell) :
    cellsBytes (takeCell requested c) = 16 + c.size := by
  unfold takeCell splitSize splitRest
  by_cases hWhole : c.size ≤ requested + 32
  · simp [hWhole]
  · simp only [hWhole, if_false, cellsBytes_cons, cellsBytes_nil]
    omega

theorem splitSize_ge (hServes : requested ≤ c.size) : requested ≤ splitSize requested c := by
  unfold splitSize
  split <;> omega

section

variable (hRep : HeapRep h (pre ++ c :: post)) (hSize : c.size ≠ 0) (hServes : requested ≤ c.size)
variable (hAligned : requested % 8 = 0)
include hRep hSize hServes hAligned

theorem heapSplitBlock_rep :
    HeapRep (heapSplitBlock h (0xC1000000 + cellsBytes pre) requested)
      (pre ++ { size := splitSize requested c, used := c.used } ::
          (splitRest requested c ++ post)) := by
  have hCell := hRep.cells.header_mid
  have hFit := hRep.fit.mid
  have hEnd := hFit.end_le
  simp only [cellsBytes_cons] at hEnd
  have hSane : heapBlockHeaderIsSane h (0xC1000000 + cellsBytes pre) = true := by
    rw [heapBlockHeaderIsSane_cell hRep.range ((cellsAt_append (by simp)).mp hRep.cells).2 hFit]
    simpa using hSize
  have hLimit : u32 (requested + heapHeaderSize + heapMinSplitSize) = requested + 32 := by
    rw [heapHeaderSize_eq, u32_of_lt]
    · simp [heapMinSplitSize]
    · simp only [heapMinSplitSize]
      omega
  by_cases hWhole : c.size ≤ requested + 32
  · have hKept : heapSplitBlock h (0xC1000000 + cellsBytes pre) requested = h := by
      simp only [heapSplitBlock, hSane, hLimit, hCell, HeapCell.header, hWhole]
      simp
    rw [hKept]
    simpa [splitSize, splitRest, hWhole] using hRep
  · have hcAligned := hRep.fit.sizes c (by simp)
    have hRemaining : sub32 (sub32 c.size requested) heapHeaderSize = c.size - requested - 16 := by
      rw [heapHeaderSize_eq, sub32_of_le (y := requested) (by omega) (by omega),
        sub32_of_le (by omega) (by omega)]
    have hNew : u32 (0xC1000000 + cellsBytes pre + heapHeaderSize + requested) =
          0xC1000000 + cellsBytes pre + 16 + requested := by
      rw [heapHeaderSize_eq, u32_of_lt (by omega)]
    have hNe : 0xC1000000 + cellsBytes pre ≠ 0xC1000000 + cellsBytes pre + 16 + requested := by
      omega
    have hSplit : heapSplitBlock h (0xC1000000 + cellsBytes pre) requested =
          (h.setBlock (0xC1000000 + cellsBytes pre + 16 + requested)
            (HeapCell.header ⟨c.size - requested - 16, false⟩
              (cellsPointer (0xC1000000 + cellsBytes pre + 16 + c.size) post))).setBlock
            (0xC1000000 + cellsBytes pre)
            (HeapCell.header ⟨requested, c.used⟩
              (0xC1000000 + cellsBytes pre + 16 + requested)) := by
      simp only [heapSplitBlock, hSane, hLimit, hCell, hNew, hRemaining, HeapCell.header, hWhole,
        heapInitializeBlock, Heap.setBlock, if_neg hNe]
      simp
      funext x
      by_cases hx : x = 0xC1000000 + cellsBytes pre
      · simp [hx]
      · simp only [if_neg hx]
        split <;> rfl
    rw [hSplit, splitSize, splitRest, if_neg hWhole, if_neg hWhole]
    refine hRep.congr ⟨rfl, rfl, rfl, rfl, rfl⟩ ?_ ?_ ?_ ?_
    · rw [setBlock_head, setBlock_head, hRep.head]
      simp [cellsPointer]
    · refine CellsAt.replace [c] [⟨requested, c.used⟩, ⟨c.size - requested - 16, false⟩]
        (by simpa using hRep.cells) (by simp) (by simp)
        (by simp; omega) ?_ ?_
      · have hStop : 0xC1000000 + cellsBytes pre + cellsBytes [c] =
              0xC1000000 + cellsBytes pre + 16 + c.size := by
          simp
          omega
        rw [hStop]
        refine ⟨?_, ?_, trivial⟩
        · simp [Heap.setBlock]
        · simp [Heap.setBlock, hNe.symm]
      · intro x hx
        simp only [cellsBytes_cons, cellsBytes_nil] at hx
        have hFirst : x ≠ 0xC1000000 + cellsBytes pre := by omega
        have hSecond : x ≠ 0xC1000000 + cellsBytes pre + 16 + requested := by omega
        simp only [Heap.setBlock, if_neg hFirst, if_neg hSecond]
    · simp
      omega
    · refine hRep.sizes_replace [⟨requested, c.used⟩, ⟨c.size - requested - 16, false⟩] ?_
      intro d hd
      simp only [List.mem_cons, List.not_mem_nil, or_false] at hd
      rcases hd with hEq | hEq
      · rw [hEq]
        exact hAligned
      · rw [hEq]
        simp only
        omega

/- Taking a cell acts on the list and recounts it. -/
theorem kmallocTake_rep :
    HeapRep (kmallocTake h (0xC1000000 + cellsBytes pre) requested)
        (pre ++ (takeCell requested c ++ post)) ∧
      HeapCounted (kmallocTake h (0xC1000000 + cellsBytes pre) requested)
        (pre ++ (takeCell requested c ++ post)) := by
  have hSplit := heapSplitBlock_rep hRep hSize hServes hAligned
  have hTaken := hSplit.setUsed true
  exact ⟨heapRecalculateStats_rep hTaken, heapRecalculateStats_counted hTaken⟩

end

----------
-- Merging

/- The merge pass over the whole list. -/
def mergeAll : List HeapCell → List HeapCell
| [] => []
| c :: cs => mergeCells heapMaxAuditBlocks c cs

@[simp] theorem cellsBytes_mergeAll (cs : List HeapCell) :
    cellsBytes (mergeAll cs) = cellsBytes cs := by
  cases cs with
  | nil => rfl
  | cons c cs => exact cellsBytes_mergeCells _ c cs

/- Merging keeps what merged sizes inherit. -/
theorem mergeCells_forall {P : Nat → Prop} (hMerge : ∀ x y, P x → P y → P (x + 16 + y))
    (budget : Nat) (c : HeapCell) (cs : List HeapCell) (hSizes : ∀ d ∈ c :: cs, P d.size) :
    ∀ d ∈ mergeCells budget c cs, P d.size := by
  fun_induction mergeCells budget c cs with
  | case1 => exact hSizes
  | case2 => exact hSizes
  | case3 => exact hSizes
  | case4 budget c d cs hBoth hFree ih =>
    apply ih
    intro e he
    rcases List.mem_cons.mp he with hEq | hMem
    · rw [hEq]
      exact hMerge _ _ (hSizes c (by simp)) (hSizes d (by simp))
    · exact hSizes e (by simp [hMem])
  | case5 budget c d cs hBoth hFree ih =>
    intro e he
    rcases List.mem_cons.mp he with hEq | hMem
    · exact hSizes e (by simp [hEq])
    · exact ih (fun f hf => hSizes f (List.mem_cons_of_mem _ hf)) e hMem

theorem heapMergeFreeBlocks_rep (hRep : HeapRep h cs) :
    ∃ blocks, heapMergeFreeBlocks h = some { h with blocks := blocks } ∧
        HeapRep { h with blocks := blocks } (mergeAll cs) := by
  cases cs with
  | nil =>
    have hHead : h.head = 0 := hRep.head
    refine ⟨h.blocks, ?_, hRep⟩
    rw [heapMergeFreeBlocks, heapWalkTurns, heapMergeLoop, if_pos hHead]
  | cons c cs =>
    have hLength := hRep.length_le
    simp only [List.length_cons] at hLength
    rcases heapMergeLoop_cells hRep.range hRep.cells hRep.fit
        (show cs.length < heapWalkTurns by
          rw [heapWalkTurns]
          omega) 0 with
      ⟨blocks, hRun, hCells, -⟩
    have hHead : h.head = 0xC1000000 := hRep.head
    have hSome : mergeAll (c :: cs) ≠ [] := mergeCells_ne_nil _ c cs
    refine ⟨blocks, ?_, ?_⟩
    · rw [heapMergeFreeBlocks, ← hRun, hHead]
    · refine hRep.congr ⟨rfl, rfl, rfl, rfl, rfl⟩ ?_ hCells (cellsBytes_mergeAll (c :: cs))
        (mergeCells_forall (P := fun n => n % 8 = 0) (fun x y hx hy => by omega) _ c cs
          hRep.fit.sizes)
      rw [cellsPointer, if_neg hSome]
      exact hHead

----------
-- Growth

/- A page just added to the heap. -/
def freshCell : HeapCell := { size := 4080, used := false }

/- Growth by a number of pages. -/
def growCells (pages : Nat) (cs : List HeapCell) : List HeapCell :=
  mergeAll (cs ++ List.replicate pages freshCell)

@[simp] theorem cellsBytes_replicate_freshCell (k : Nat) :
    cellsBytes (List.replicate k freshCell) = 4096 * k := by
  induction k with
  | zero => rfl
  | succ k ih =>
    rw [List.replicate_succ, cellsBytes_cons, ih]
    simp only [freshCell]
    omega

/-
  The state of the growth loop after `k` pages of a heap `h`: the headers below the old end are
  untouched and the new pages are linked among themselves.
-/
structure GrowthRep (h : Heap σ) (k : Nat) (g : HeapGrowth σ) : Prop where
  head : g.heap.head = h.head
  stats : g.heap.stats =
      { h.stats with
        nextVirtualPage := h.stats.nextVirtualPage + 4096 * k
        totalPages := h.stats.totalPages + k
        totalBytes := h.stats.totalBytes + 4096 * k }
  below : ∀ x, x < h.stats.nextVirtualPage → g.heap.blocks x = h.blocks x
  cells : CellsAt g.heap.blocks 0 h.stats.nextVirtualPage (List.replicate k freshCell)
  first : g.firstNewBlock = cellsPointer h.stats.nextVirtualPage (List.replicate k freshCell)
  previous : g.previousNewBlock = if k = 0 then 0 else h.stats.nextVirtualPage + 4096 * (k - 1)

/- The heap a growth starts from. -/
def HeapGrowth.start (h : Heap σ) : HeapGrowth σ :=
  { heap := h
    mapped := []
    firstNewBlock := 0
    previousNewBlock := 0 }

theorem GrowthRep.start (h : Heap σ) : GrowthRep h 0 (HeapGrowth.start h) := by
  refine ⟨rfl, ?_, fun x _ => rfl, trivial, rfl, rfl⟩
  simp [HeapGrowth.start]

theorem GrowthRep.addPage (hRep : HeapRep h cs) (hGrowth : GrowthRep h k g)
    (hRoom : h.stats.nextVirtualPage + 4096 * (k + 1) ≤ 0xC2000000) (physicalPage : Nat)
    (pages : σ) :
    GrowthRep h (k + 1) (g.addPage physicalPage pages) := by
  have hNext := hRep.next
  have hPages := hRep.pages
  have hBytes := hRep.bytes
  have hVirtual : g.heap.stats.nextVirtualPage = h.stats.nextVirtualPage + 4096 * k := by
    rw [hGrowth.stats]
  have hSize : sub32 pmmPageSize 16 = 4080 := by decide
  have hStats : (g.addPage physicalPage pages).heap.stats =
        { h.stats with
          nextVirtualPage := h.stats.nextVirtualPage + 4096 * (k + 1)
          totalPages := h.stats.totalPages + (k + 1)
          totalBytes := h.stats.totalBytes + 4096 * (k + 1) } := by
    have hPage : u32 (h.stats.nextVirtualPage + 4096 * k + 4096) =
          h.stats.nextVirtualPage + 4096 * (k + 1) := by
      rw [u32_of_lt (by omega)]
      omega
    have hCount : u32 (h.stats.totalPages + k + 1) = h.stats.totalPages + (k + 1) := by
      rw [u32_of_lt (by omega)]
      omega
    have hTotal :
        u32 (h.stats.totalBytes + 4096 * k + 4096) = h.stats.totalBytes + 4096 * (k + 1) := by
      rw [u32_of_lt (by omega)]
      omega
    unfold HeapGrowth.addPage
    dsimp only
    split <;>
      simp [heapInitializeBlock, hGrowth.stats, pmmPageSize, hPage, hCount, hTotal]
  cases k with
  | zero =>
    have hPrevious : g.previousNewBlock = 0 := hGrowth.previous
    have hFirst : g.firstNewBlock = 0 := hGrowth.first
    simp only [Nat.mul_zero, Nat.add_zero] at hVirtual
    refine ⟨?_, hStats, ?_, ?_, ?_, ?_⟩
    · simpa [HeapGrowth.addPage, hPrevious, heapInitializeBlock] using hGrowth.head
    · intro x hx
      have hNe : x ≠ h.stats.nextVirtualPage := by omega
      simpa [HeapGrowth.addPage, hPrevious, heapInitializeBlock, Heap.setBlock, hVirtual, hNe]
        using hGrowth.below x hx
    · refine ⟨?_, trivial⟩
      simp [HeapGrowth.addPage, hPrevious, hVirtual, hSize,
        heapInitializeBlock, Heap.setBlock, freshCell, HeapCell.header]
    · simp [HeapGrowth.addPage, hFirst, hVirtual]
    · simp [HeapGrowth.addPage, hVirtual]
  | succ j =>
    have hPrevious : g.previousNewBlock = h.stats.nextVirtualPage + 4096 * j := hGrowth.previous
    have hPreviousZero : g.previousNewBlock ≠ 0 := by omega
    have hFirst : g.firstNewBlock = h.stats.nextVirtualPage := hGrowth.first
    have hFirstZero : g.firstNewBlock ≠ 0 := by omega
    have hApart : g.previousNewBlock ≠ g.heap.stats.nextVirtualPage := by omega
    have hLinked : (g.addPage physicalPage pages).heap.blocks =
          ((g.heap.setBlock g.heap.stats.nextVirtualPage
            (freshCell.header 0)).setBlock g.previousNewBlock
              { (g.heap.setBlock g.heap.stats.nextVirtualPage
                  (freshCell.header 0)).blocks g.previousNewBlock with
                next := g.heap.stats.nextVirtualPage }).blocks := by
      simp [HeapGrowth.addPage, hPreviousZero, heapInitializeBlock, Heap.setBlock, freshCell,
        HeapCell.header, hSize]
    refine ⟨?_, hStats, ?_, ?_, ?_, ?_⟩
    · simpa [HeapGrowth.addPage, hPreviousZero, heapInitializeBlock] using hGrowth.head
    · intro x hx
      have hNe : x ≠ g.heap.stats.nextVirtualPage := by omega
      have hNe' : x ≠ g.previousNewBlock := by omega
      rw [hLinked]
      simpa [Heap.setBlock, hNe, hNe'] using hGrowth.below x hx
    · have hBehind : h.stats.nextVirtualPage + cellsBytes (List.replicate (j + 1) freshCell) ≤
            g.heap.stats.nextVirtualPage := by
        rw [cellsBytes_replicate_freshCell, hVirtual]
      have hOld := hGrowth.cells.setBlock (Or.inr hBehind) (freshCell.header 0)
      rw [List.replicate_succ'] at hOld
      have hRelinked := hOld.relink g.heap.stats.nextVirtualPage
      rw [cellsBytes_replicate_freshCell, ← hPrevious, ← hLinked] at hRelinked
      rw [List.replicate_succ', cellsAt_append (by simp),
        cellsBytes_replicate_freshCell, ← hVirtual,
        List.replicate_succ']
      refine ⟨hRelinked, ?_, trivial⟩
      rw [hLinked]
      simp [Heap.setBlock, hApart.symm]
    · rw [hFirst] at hFirstZero
      simp [HeapGrowth.addPage, hFirst, hFirstZero, List.replicate_succ]
    · simp [HeapGrowth.addPage, hVirtual]

/- A failed growth counts the failure and nothing else. -/
structure GrowFailed (h failed : Heap σ) : Prop where
  head : failed.head = h.head
  below : ∀ x, x < h.stats.nextVirtualPage → failed.blocks x = h.blocks x
  stats : failed.stats = h.countFailedGrow.stats

theorem GrowthRep.rollback (hGrowth : GrowthRep h k g) (svc : PageServices σ) (pages : σ) :
    GrowFailed h
      (heapRollbackGrowth svc { g.heap with pages := pages } g.mapped h.stats).countFailedGrow := by
  refine ⟨hGrowth.head, hGrowth.below, ?_⟩
  simp [heapRollbackGrowth, Heap.countFailedGrow, hGrowth.stats]

/-
  One turn of the growth loop: no page is left, the page taken cannot be mapped, or it is mapped.
-/
inductive GrowTurn (svc : PageServices σ) (g : HeapGrowth σ) : Except σ (Nat × σ) → Prop
  | exhausted (hNone : (svc.pmmAllocPage g.heap.pages).1 = 0) :
      GrowTurn svc g (.error (svc.pmmAllocPage g.heap.pages).2)
  | refused
      {s : σ}
      (hSome : (svc.pmmAllocPage g.heap.pages).1 ≠ 0)
      (hMap : svc.vmmMapPage g.heap.stats.nextVirtualPage (svc.pmmAllocPage g.heap.pages).1
        vmmPageWritable (svc.pmmAllocPage g.heap.pages).2 = (false, s)) :
      GrowTurn svc g (.error (svc.pmmFreePage (svc.pmmAllocPage g.heap.pages).1 s))
  | mapped
      {s : σ}
      (hSome : (svc.pmmAllocPage g.heap.pages).1 ≠ 0)
      (hMap : svc.vmmMapPage g.heap.stats.nextVirtualPage (svc.pmmAllocPage g.heap.pages).1
        vmmPageWritable (svc.pmmAllocPage g.heap.pages).2 = (true, s)) :
      GrowTurn svc g (.ok ((svc.pmmAllocPage g.heap.pages).1, s))

theorem heapGrowLoop_turn (svc : PageServices σ) (original : HeapStats) (n : Nat)
    (g : HeapGrowth σ) :
    (∃ s, GrowTurn svc g (.error s) ∧ heapGrowLoop svc original (n + 1) g =
        .error (heapRollbackGrowth svc { g.heap with pages := s }
          g.mapped original).countFailedGrow) ∨
      ∃ p s, GrowTurn svc g (.ok (p, s)) ∧
        heapGrowLoop svc original (n + 1) g = heapGrowLoop svc original n (g.addPage p s) := by
  by_cases hNone : (svc.pmmAllocPage g.heap.pages).1 = 0
  · exact Or.inl ⟨_, .exhausted hNone, by simp [heapGrowLoop, hNone]⟩
  rcases hMap : svc.vmmMapPage g.heap.stats.nextVirtualPage (svc.pmmAllocPage g.heap.pages).1
    vmmPageWritable (svc.pmmAllocPage g.heap.pages).2 with ⟨done, s⟩
  cases done with
  | false => exact Or.inl ⟨_, .refused hNone hMap, by simp [heapGrowLoop, hNone, hMap]⟩
  | true => exact Or.inr ⟨_, s, .mapped hNone hMap, by simp [heapGrowLoop, hNone, hMap]⟩

/-
  What every turn of a growth by `n` pages keeps, and what a turn that fails leaves of the
  managers.
-/
structure GrowInvariant (svc : PageServices σ) (h : Heap σ) (n : Nat)
    (Inv : Nat → HeapGrowth σ → Prop) (Failed : σ → Prop) : Prop where
  start : Inv 0 (HeapGrowth.start h)
  fails : ∀ k g s, k < n → GrowthRep h k g → Inv k g → GrowTurn svc g (.error s) →
    Failed (heapUnmapPages svc g.mapped s)
  keeps : ∀ k g p s, k < n → GrowthRep h k g → Inv k g → GrowTurn svc g (.ok (p, s)) →
    Inv (k + 1) (g.addPage p s)

section GrowInvariant

variable {svc : PageServices σ} {n : Nat} {Inv : Nat → HeapGrowth σ → Prop} {Failed : σ → Prop}

theorem GrowInvariant.loop (hInv : GrowInvariant svc h n Inv Failed) (hRep : HeapRep h cs)
    (hRoom : h.stats.nextVirtualPage + 4096 * n ≤ 0xC2000000) :
    (∃ failed, heapGrowLoop svc h.stats n (HeapGrowth.start h) = .error failed ∧
        GrowFailed h failed ∧ Failed failed.pages) ∨
      ∃ g, heapGrowLoop svc h.stats n (HeapGrowth.start h) = .ok g ∧ GrowthRep h n g ∧ Inv n g := by
  -- `m` pages are left after `k`
  have hRest : ∀ m k g, k + m = n → GrowthRep h k g → Inv k g →
      (∃ failed, heapGrowLoop svc h.stats m g = .error failed ∧
          GrowFailed h failed ∧ Failed failed.pages) ∨
        ∃ g', heapGrowLoop svc h.stats m g = .ok g' ∧ GrowthRep h n g' ∧ Inv n g' := by
    intro m
    induction m with
    | zero =>
      intro k g hk hGrowth hHere
      obtain rfl : k = n := hk
      exact Or.inr ⟨g, rfl, hGrowth, hHere⟩
    | succ m ih =>
      intro k g hk hGrowth hHere
      rcases heapGrowLoop_turn svc h.stats m g with ⟨s, hTurn, hLoop⟩ | ⟨p, s, hTurn, hLoop⟩
      · rw [hLoop]
        exact Or.inl ⟨_, rfl, hGrowth.rollback svc s,
          hInv.fails k g s (by omega) hGrowth hHere hTurn⟩
      · rw [hLoop]
        exact ih (k + 1) _ (by omega) (hGrowth.addPage hRep (by omega) p s)
          (hInv.keeps k g p s (by omega) hGrowth hHere hTurn)
  exact hRest n 0 _ (Nat.zero_add n) (GrowthRep.start h) hInv.start

end GrowInvariant

/- The heap once the new pages hang on the old list. -/
theorem GrowthRep.linked (hRep : HeapRep h cs) (hGrowth : GrowthRep h k g) (hSome : k ≠ 0)
    (hRoom : h.stats.nextVirtualPage + 4096 * k ≤ 0xC2000000) (linked : Heap σ)
    (hStats : g.heap.stats.SameLayout linked.stats) (hHead : linked.head = 0xC1000000)
    (hCells : CellsAt linked.blocks 0 0xC1000000 (cs ++ List.replicate k freshCell)) :
    HeapRep linked (cs ++ List.replicate k freshCell) := by
  have hNext := hRep.next
  have hFresh : List.replicate k freshCell ≠ [] := by simpa using hSome
  have hBytes : cellsBytes (cs ++ List.replicate k freshCell) = cellsBytes cs + 4096 * k := by simp
  refine ⟨⟨?_, ?_⟩, ?_, hCells, ⟨le_refl _, ?_, by norm_num, ?_⟩, ?_, ?_, ?_⟩
  · rw [hStats.virtualStart, hGrowth.stats]
    exact hRep.range.1
  · rw [hStats.virtualEnd, hGrowth.stats]
    exact hRep.range.2
  · rw [hHead, cellsPointer, if_neg (by simp [hSome])]
  · rw [hBytes]
    omega
  · intro c hc
    rcases List.mem_append.mp hc with hOld | hNew
    · exact hRep.fit.sizes c hOld
    · rw [List.eq_of_mem_replicate hNew]
      rfl
  · rw [hStats.nextVirtualPage, hGrowth.stats, hBytes]
    simp only
    omega
  · have hPages := hRep.pages
    rw [hStats.totalPages, hGrowth.stats, hBytes]
    simp only
    omega
  · have hTotal := hRep.bytes
    rw [hStats.totalBytes, hGrowth.stats, hBytes]
    simp only
    omega

/- What a successful growth leaves. -/
structure Grown (h : Heap σ) (cs : List HeapCell) (k : Nat) (g : HeapGrowth σ)
    (grown : Heap σ) : Prop where
  rep : HeapRep grown (growCells k cs)
  counted : HeapCounted grown (growCells k cs)
  initialized : grown.stats.initialized = h.stats.initialized
  pages : grown.pages = g.heap.pages

theorem heapLinkGrowth_rep (hRep : HeapRep h cs) (svc : PageServices σ) (hGrowth : GrowthRep h k g)
    (hSome : k ≠ 0) (hRoom : h.stats.nextVirtualPage + 4096 * k ≤ 0xC2000000) :
    ∃ grown, heapLinkGrowth svc h.stats g = some (true, grown) ∧ Grown h cs k g grown := by
  have hNext := hRep.next
  have hFresh : List.replicate k freshCell ≠ [] := by simpa using hSome
  have hFirst : g.firstNewBlock = h.stats.nextVirtualPage := by
    rw [hGrowth.first, cellsPointer, if_neg hFresh]
  have hFinish : ∀ joined : Heap σ, joined.stats = g.heap.stats → joined.pages = g.heap.pages →
        joined.head = 0xC1000000 →
        CellsAt joined.blocks 0 0xC1000000 (cs ++ List.replicate k freshCell) →
        ∃ merged,
          heapMergeFreeBlocks
              { joined with
                stats := { joined.stats with growCount := u32 (joined.stats.growCount + 1) } } =
              some merged ∧
            Grown h cs k g (heapRecalculateStats merged) := by
    intro joined hStats hPages hHead hCells
    have hJoined := hGrowth.linked hRep hSome hRoom
        { joined with
          stats := { joined.stats with growCount := u32 (joined.stats.growCount + 1) } }
        (by rw [hStats]; exact ⟨rfl, rfl, rfl, rfl, rfl⟩)
        hHead hCells
    rcases heapMergeFreeBlocks_rep hJoined with ⟨blocks, hMerge, hMerged⟩
    refine ⟨_, hMerge, heapRecalculateStats_rep hMerged,
      heapRecalculateStats_counted hMerged, ?_, hPages⟩
    change joined.stats.initialized = _
    rw [hStats, hGrowth.stats]
  have hHeadEq : g.heap.head = cellsPointer 0xC1000000 cs := by rw [hGrowth.head, hRep.head]
  unfold heapLinkGrowth
  dsimp only
  rcases List.eq_nil_or_concat' cs with hNil | ⟨pre, c, hLast⟩
  · subst hNil
    have hEmpty : g.heap.head = 0 := hHeadEq
    obtain ⟨_, hMerge, hGrown⟩ := hFinish { g.heap with head := g.firstNewBlock } rfl rfl
        (by simp [hFirst, hNext]) (by simpa [hNext] using hGrowth.cells)
    rw [if_pos hEmpty, hMerge]
    exact ⟨_, rfl, hGrown⟩
  · have hFull : g.heap.head = 0xC1000000 := by rw [hHeadEq, hLast, cellsPointer, if_neg (by simp)]
    have hLength := hRep.length_le
    have hOld : CellsAt g.heap.blocks 0 0xC1000000 (pre ++ [c]) := by
      rw [← hLast]
      apply hRep.cells.congr
      intro x _ hHigh
      exact hGrowth.below x (by omega)
    have hFind : heapFindLastBlock g.heap = some (0xC1000000 + cellsBytes pre) := by
      rw [heapFindLastBlock, hFull, if_neg (by norm_num)]
      refine heapFindLastLoop_cells (by norm_num) hOld ?_
      rw [hLast] at hLength
      simp only [List.length_append, List.length_singleton] at hLength
      rw [heapWalkTurns]
      omega
    rw [if_neg (by rw [hFull]; norm_num), hFind]
    dsimp only
    rw [if_neg (by omega), hFirst]
    have hBytes : 0xC1000000 + cellsBytes (pre ++ [c]) = h.stats.nextVirtualPage := by
      rw [← hLast, hNext]
    obtain ⟨_, hMerge, hGrown⟩ :=
      hFinish (g.heap.setBlock (0xC1000000 + cellsBytes pre)
        { g.heap.blocks (0xC1000000 + cellsBytes pre) with next := h.stats.nextVirtualPage })
        rfl rfl hFull (by
          rw [hLast, cellsAt_append hFresh, hBytes]
          refine ⟨hOld.relink _, hGrowth.cells.setBlock (Or.inl ?_) _⟩
          simp only [cellsBytes_append, cellsBytes_cons, cellsBytes_nil] at hBytes
          omega)
    rw [hMerge]
    exact ⟨_, rfl, hGrown⟩

theorem heapRequiredPages_pos (m : Nat) : heapRequiredPages m ≠ 0 := by
  unfold heapRequiredPages
  dsimp only
  split <;> omega

theorem heapVirtualRangeHasSpace_iff (hRep : HeapRep h cs) (hMax : k ≤ 16) :
    heapVirtualRangeHasSpace h k = true ↔ h.stats.nextVirtualPage + 4096 * k ≤ 0xC2000000 := by
  have hNext := hRep.next
  have hEnd := hRep.fit.end_le
  have hLast : sub32 (u32 (h.stats.nextVirtualPage + u32 (k * pmmPageSize))) 1 =
        h.stats.nextVirtualPage + 4096 * k - 1 := by
    rw [pmmPageSize, u32_of_lt (x := k * 4096) (by omega), u32_of_lt (by omega),
      sub32_of_le (by omega) (by omega)]
    omega
  unfold heapVirtualRangeHasSpace
  rw [hLast, hRep.range.1, hRep.range.2, if_neg (by omega)]
  by_cases hFits : h.stats.nextVirtualPage + 4096 * k ≤ 0xC2000000
  · rw [if_neg (by omega)]
    exact ⟨fun _ => hFits, fun _ => rfl⟩
  · rw [if_pos (by omega)]
    exact ⟨fun hFalse => absurd hFalse (by simp), fun hTrue => absurd hTrue hFits⟩

/- Few enough pages, and room for them in the heap's range. -/
def GrowFits (h : Heap σ) (m : Nat) : Prop :=
  heapRequiredPages m ≤ 16 ∧ h.stats.nextVirtualPage + 4096 * heapRequiredPages m ≤ 0xC2000000

theorem heapGrow_of_not_fits (hRep : HeapRep h cs) (svc : PageServices σ) {m : Nat}
    (hNot : ¬ GrowFits h m) : heapGrow svc h m = some (false, h.countFailedGrow) := by
  by_cases hMany : heapMaxGrowPages < heapRequiredPages m
  · simp [heapGrow, hMany]
  · have hSpace := heapVirtualRangeHasSpace_iff hRep (Nat.not_lt.mp hMany)
    simp [heapGrow, hMany, mt hSpace.mp fun hRoom => hNot ⟨Nat.not_lt.mp hMany, hRoom⟩]

theorem heapGrow_of_fits (hRep : HeapRep h cs) (svc : PageServices σ) {m : Nat}
    (hFits : GrowFits h m) :
    heapGrow svc h m =
      match heapGrowLoop svc h.stats (heapRequiredPages m) (HeapGrowth.start h) with
      | .error failed => some (false, failed)
      | .ok g => heapLinkGrowth svc h.stats g := by
  have hMany : ¬ heapMaxGrowPages < heapRequiredPages m := Nat.not_lt.mpr hFits.1
  have hTrue := (heapVirtualRangeHasSpace_iff hRep hFits.1).mpr hFits.2
  have hSpace : ¬ (!heapVirtualRangeHasSpace h (heapRequiredPages m)) = true := by simp [hTrue]
  exact (if_neg hMany).trans (if_neg hSpace)

/-
  A growth fails before it takes a page or in its page loop, and succeeds with as many fresh pages
  as were required.
-/
theorem heapGrow_rule {svc : PageServices σ} {Inv : Nat → HeapGrowth σ → Prop} {Failed : σ → Prop}
    (hRep : HeapRep h cs) {m : Nat}
    (hInv : GrowFits h m → GrowInvariant svc h (heapRequiredPages m) Inv Failed) :
    (∃ failed, heapGrow svc h m = some (false, failed) ∧ GrowFailed h failed ∧
        (¬ GrowFits h m ∧ failed.pages = h.pages ∨ GrowFits h m ∧ Failed failed.pages)) ∨
      ∃ g grown, heapGrow svc h m = some (true, grown) ∧
        heapGrowLoop svc h.stats (heapRequiredPages m) (HeapGrowth.start h) = .ok g ∧
        GrowFits h m ∧ Grown h cs (heapRequiredPages m) g grown ∧ Inv (heapRequiredPages m) g := by
  by_cases hFits : GrowFits h m
  · rw [heapGrow_of_fits hRep svc hFits]
    rcases (hInv hFits).loop hRep hFits.2 with
      ⟨failed, hLoop, hFailed, hPages⟩ | ⟨g, hLoop, hGrowth, hHere⟩
    · rw [hLoop]
      exact Or.inl ⟨failed, rfl, hFailed, Or.inr ⟨hFits, hPages⟩⟩
    · rw [hLoop]
      rcases heapLinkGrowth_rep hRep svc hGrowth (heapRequiredPages_pos m) hFits.2 with
        ⟨grown, hLink, hGrown⟩
      exact Or.inr ⟨g, grown, hLink, rfl, hFits, hGrown, hHere⟩
  · exact Or.inl ⟨_, heapGrow_of_not_fits hRep svc hFits, ⟨rfl, fun x _ => rfl, rfl⟩,
      Or.inl ⟨hFits, rfl⟩⟩

theorem heapGrow_rep (hRep : HeapRep h cs) (svc : PageServices σ) (m : Nat) :
    (∃ failed, heapGrow svc h m = some (false, failed) ∧ GrowFailed h failed) ∨
      ∃ g grown, heapGrow svc h m = some (true, grown) ∧
        heapGrowLoop svc h.stats (heapRequiredPages m) (HeapGrowth.start h) = .ok g ∧
        GrowFits h m ∧ Grown h cs (heapRequiredPages m) g grown := by
  have hInv : GrowInvariant svc h (heapRequiredPages m) (fun _ _ => True) (fun _ => True) :=
    ⟨trivial, fun _ _ _ _ _ _ _ => trivial, fun _ _ _ _ _ _ _ _ => trivial⟩
  rcases heapGrow_rule hRep fun _ => hInv with
    ⟨failed, hGrow, hFailed, -⟩ | ⟨g, grown, hGrow, hLoop, hFits, hGrown, -⟩
  · exact Or.inl ⟨failed, hGrow, hFailed⟩
  · exact Or.inr ⟨g, grown, hGrow, hLoop, hFits, hGrown⟩

/- After a failed growth the heap holds the same cells. -/
theorem GrowFailed.rep {failed : Heap σ} (hFailed : GrowFailed h failed) (hRep : HeapRep h cs) :
    HeapRep failed cs := by
  refine hRep.congr ?_ ?_ ?_ rfl hRep.fit.sizes
  · rw [hFailed.stats]
    exact ⟨rfl, rfl, rfl, rfl, rfl⟩
  · rw [hFailed.head, hRep.head]
  · apply hRep.cells.congr
    intro x _ hHigh
    have hNext := hRep.next
    exact hFailed.below x (by omega)

end LiamOS.I386
