import LiamOS.I386.Heap.Refinement
import LiamOS.Lib.Transition

/-
  The calls of the heap: `heap_initialize`, `kmalloc` and `kfree` on a heap that holds a list of
  cells.

  Every call is shown to end. `KmallocEnds` says how a call of `kmalloc` ends, one case for each
  return of the source and one for the retry after a growth; what holds of every allocation is an
  induction on it.

  Main declarations: `kmalloc_ends`, `kfree_rep`, `heapInitialize_rep`.
-/

namespace LiamOS.I386

open Word

variable {σ : Type}
variable {h h' : Heap σ} {cs cs' : List HeapCell} {svc : PageServices σ} {p size : Nat}
variable {turns : Nat}

----------
-- Allocation

/-
  `KmallocEnds svc h cs size p h' cs'`: on a heap `h` with the cells `cs` the request returns `p`
  and leaves `h'` with the cells `cs'`.
-/
inductive KmallocEnds (svc : PageServices σ) :
    Heap σ → List HeapCell → Nat → Nat → Heap σ → List HeapCell → Prop
  | refused
      {h : Heap σ}
      {cs : List HeapCell}
      {size : Nat}
      (hRefused : h.stats.initialized = false ∨ size = 0) :
      KmallocEnds svc h cs size 0 h.countFailedAllocation cs
  | corrupt
      {h : Heap σ}
      {size : Nat}
      (pre : List HeapCell)
      (c : HeapCell)
      (post : List HeapCell)
      (hSearch : kmallocSearch h (alignUp size heapAlignment) heapMaxAuditBlocks h.head = .corrupt)
      (hBudget : pre.length < heapMaxAuditBlocks)
      (hPre : ∀ d ∈ pre, d.Skipped (alignUp size heapAlignment))
      (hSize : c.size = 0) :
      KmallocEnds svc h (pre ++ c :: post) size 0 h.countFailedAllocation (pre ++ c :: post)
  | taken
      {h : Heap σ}
      {size : Nat}
      (pre : List HeapCell)
      (c : HeapCell)
      (post : List HeapCell)
      (hInitialized : h.stats.initialized = true)
      (hRequest : size ≠ 0)
      (hSearch : kmallocSearch h (alignUp size heapAlignment) heapMaxAuditBlocks h.head =
          .found (0xC1000000 + cellsBytes pre))
      (hBudget : pre.length < heapMaxAuditBlocks)
      (hPre : ∀ d ∈ pre, d.Skipped (alignUp size heapAlignment))
      (hSize : c.size ≠ 0)
      (hFree : c.used = false)
      (hServes : alignUp size heapAlignment ≤ c.size) :
      KmallocEnds svc h (pre ++ c :: post) size (0xC1000000 + cellsBytes pre + 16)
        (kmallocTake h (0xC1000000 + cellsBytes pre) (alignUp size heapAlignment))
        (pre ++ (takeCell (alignUp size heapAlignment) c ++ post))
  | growFailed
      {h : Heap σ}
      {cs : List HeapCell}
      {size : Nat}
      (failed : Heap σ)
      (hSearch :
        kmallocSearch h (alignUp size heapAlignment) heapMaxAuditBlocks h.head = .exhausted)
      (hSkipped : ∀ d ∈ cs.take heapMaxAuditBlocks, d.Skipped (alignUp size heapAlignment))
      (hGrow : heapGrow svc h (alignUp size heapAlignment) = some (false, failed))
      (hFailed : GrowFailed h failed) :
      KmallocEnds svc h cs size 0 failed.countFailedAllocation cs
  | grown
      {h : Heap σ}
      {cs : List HeapCell}
      {size p : Nat}
      {h' : Heap σ}
      {cs' : List HeapCell}
      (g : HeapGrowth σ)
      (grown : Heap σ)
      (hInitialized : h.stats.initialized = true)
      (hRequest : size ≠ 0)
      (hSearch :
        kmallocSearch h (alignUp size heapAlignment) heapMaxAuditBlocks h.head = .exhausted)
      (hSkipped : ∀ d ∈ cs.take heapMaxAuditBlocks, d.Skipped (alignUp size heapAlignment))
      (hGrow : heapGrow svc h (alignUp size heapAlignment) = some (true, grown))
      (hLoop : heapGrowLoop svc h.stats (heapRequiredPages (alignUp size heapAlignment))
            (HeapGrowth.start h) =
          .ok g)
      (hMax : heapRequiredPages (alignUp size heapAlignment) ≤ 16)
      (hGrown : Grown h cs (heapRequiredPages (alignUp size heapAlignment)) g grown)
      (hRest : KmallocEnds svc grown (growCells (heapRequiredPages (alignUp size heapAlignment)) cs)
          (alignUp size heapAlignment) p h' cs') :
      KmallocEnds svc h cs size p h' cs'

theorem alignUp_eight_mod (size : Nat) : alignUp size heapAlignment % 8 = 0 := by
  rw [alignUp_eight]
  omega

/- An allocation ends within one turn per free page. -/
theorem kmallocLoop_ends (svc : PageServices σ) (hRep : HeapRep h cs)
    (hTurns : 0xC2000000 < h.stats.nextVirtualPage + 4096 * turns) (size : Nat) :
    ∃ p h' cs',
      kmallocLoop svc turns h size = some (p, h') ∧ KmallocEnds svc h cs size p h' cs' := by
  induction turns generalizing h cs size with
  | zero =>
    have hEnd := hRep.fit.end_le
    have hNext := hRep.next
    omega
  | succ turns ih =>
    by_cases hRefused : h.stats.initialized = false ∨ size = 0
    · refine ⟨0, _, cs, ?_, .refused hRefused⟩
      rw [kmallocLoop, if_pos hRefused]
    have hReady : h.stats.initialized = true := by simpa using (not_or.mp hRefused).1
    have hRequest : size ≠ 0 := (not_or.mp hRefused).2
    have hSearch := kmallocSearch_cells hRep.range hRep.cells hRep.fit
        (alignUp size heapAlignment) heapMaxAuditBlocks
    rw [← hRep.head] at hSearch
    rw [kmallocLoop, if_neg hRefused]
    dsimp only
    generalize hOutcome : kmallocSearch h (alignUp size heapAlignment)
          heapMaxAuditBlocks h.head = outcome at hSearch ⊢
    cases hSearch with
    | found pre c post hSplit hBudget hPre hSize hFree
        hServes =>
        subst hSplit
        have hEnd := hRep.fit.mid.end_le
        simp only [cellsBytes_cons] at hEnd
        refine ⟨_, _, _, ?_,
          .taken pre c post hReady hRequest hOutcome hBudget hPre hSize hFree hServes⟩
        dsimp only
        rw [heapHeaderSize_eq, u32_of_lt (by omega)]
    | corrupt pre c post hSplit hBudget hPre hSize =>
      subst hSplit
      exact ⟨_, _, _, rfl, .corrupt pre c post hOutcome hBudget hPre hSize⟩
    | exhausted hAll =>
      rcases heapGrow_rep hRep svc (alignUp size heapAlignment) with
        ⟨failed, hGrow, hFailed⟩ | ⟨g, grown, hGrow, hLoop, ⟨hMax, hRoom⟩, hGrown⟩
      · refine ⟨_, _, _, ?_, .growFailed failed hOutcome hAll hGrow hFailed⟩
        dsimp only
        rw [hGrow]
      · have hPos := heapRequiredPages_pos (alignUp size heapAlignment)
        have hNext := hRep.next
        have hNext' := hGrown.rep.next
        rw [growCells, cellsBytes_mergeAll, cellsBytes_append,
          cellsBytes_replicate_freshCell] at hNext'
        rcases ih hGrown.rep (by omega) (alignUp size heapAlignment) with ⟨p, h', cs', hRun, hEnds⟩
        refine ⟨p, h', cs', ?_,
          .grown g grown hReady hRequest hOutcome hAll hGrow hLoop hMax hGrown hEnds⟩
        dsimp only
        rw [hGrow]
        exact hRun

theorem kmalloc_ends (svc : PageServices σ) (hRep : HeapRep h cs) (size : UInt32) :
    ∃ p h' cs', kmalloc svc h size = some (p, h') ∧ KmallocEnds svc h cs size.toNat p h' cs' := by
  refine kmallocLoop_ends svc hRep ?_ size.toNat
  have hNext := hRep.next
  rw [kmallocTurns]
  omega

/- An allocation leaves a heap of cells. -/
theorem KmallocEnds.rep (hEnds : KmallocEnds svc h cs size p h' cs') (hRep : HeapRep h cs) :
    HeapRep h' cs' := by
  induction hEnds with
  | refused => exact hRep.withStats ⟨rfl, rfl, rfl, rfl, rfl⟩ rfl rfl
  | corrupt => exact hRep.withStats ⟨rfl, rfl, rfl, rfl, rfl⟩ rfl rfl
  | taken pre c post _ _ _ _ _ hSize _ hServes =>
    exact (kmallocTake_rep hRep hSize hServes (alignUp_eight_mod _)).1
  | growFailed failed _ _ _ hFailed =>
    exact (hFailed.rep hRep).withStats ⟨rfl, rfl, rfl, rfl, rfl⟩ rfl rfl
  | grown g grown _ _ _ _ _ _ _ hGrown _ ih => exact ih hGrown.rep

theorem KmallocEnds.bytes_le (hEnds : KmallocEnds svc h cs size p h' cs') :
    cellsBytes cs ≤ cellsBytes cs' := by
  induction hEnds with
  | refused => exact le_refl _
  | corrupt => exact le_refl _
  | taken pre c post =>
    simp only [cellsBytes_append, cellsBytes_takeCell, cellsBytes_cons]
    omega
  | growFailed => exact le_refl _
  | grown _ _ _ _ _ _ _ _ _ _ _ ih =>
    rw [growCells, cellsBytes_mergeAll, cellsBytes_append] at ih
    omega

/- Splitting writes block headers only. -/
theorem heapSplitBlock_rest (h : Heap σ) (block requested : Nat) :
    (heapSplitBlock h block requested).stats = h.stats ∧
      (heapSplitBlock h block requested).pages = h.pages := by
  unfold heapSplitBlock
  split
  · exact ⟨rfl, rfl⟩
  · split
    · exact ⟨rfl, rfl⟩
    · simp [heapInitializeBlock]

theorem kmallocTake_initialized (h : Heap σ) (block requested : Nat) :
    (kmallocTake h block requested).stats.initialized = h.stats.initialized := by
  change (heapSplitBlock h block requested).stats.initialized = h.stats.initialized
  rw [(heapSplitBlock_rest h block requested).1]

theorem kmallocTake_pages (h : Heap σ) (block requested : Nat) :
    (kmallocTake h block requested).pages = h.pages :=
  (heapSplitBlock_rest h block requested).2

theorem KmallocEnds.initialized (hEnds : KmallocEnds svc h cs size p h' cs') :
    h'.stats.initialized = h.stats.initialized := by
  induction hEnds with
  | refused => rfl
  | corrupt => rfl
  | taken => exact kmallocTake_initialized _ _ _
  | growFailed failed _ _ _ hFailed =>
    simp [Heap.countFailedAllocation, hFailed.stats, Heap.countFailedGrow]
  | grown g grown _ _ _ _ _ _ _ hGrown _ ih => rw [ih, hGrown.initialized]

----------
-- Release

/- The cells after the cell between `pre` and `post` is freed. -/
def freeCell (pre : List HeapCell) (c : HeapCell) (post : List HeapCell) : List HeapCell :=
  mergeAll (pre ++ { size := c.size, used := false } :: post)

/- How the cells change when a pointer is freed. -/
inductive KfreeEnds : List HeapCell → List HeapCell → Prop
  | ignored
      {cs : List HeapCell} :
      KfreeEnds cs cs
  | freed
      (pre : List HeapCell)
      (c : HeapCell)
      (post : List HeapCell)
      (hUsed : c.used = true) :
      KfreeEnds (pre ++ c :: post) (freeCell pre c post)

theorem heapFindBlockForPointer_cells (hRep : HeapRep h cs) (pointer : Nat) :
    heapFindBlockForPointer h pointer = 0 ∨ ∃ pre c post,
        cs = pre ++ c :: post ∧ heapFindBlockForPointer h pointer = 0xC1000000 + cellsBytes pre ∧
          pointer = 0xC1000000 + cellsBytes pre + 16 := by
  have hLoop := heapFindBlockLoop_cells hRep.range hRep.cells hRep.fit pointer heapMaxAuditBlocks
  rw [← hRep.head] at hLoop
  unfold heapFindBlockForPointer
  split
  · exact Or.inl rfl
  · split
    · exact Or.inl rfl
    · rcases hLoop with hNone | ⟨pre, c, post, hSplit, -, hFound, hPointer⟩
      · exact Or.inl hNone
      · exact Or.inr ⟨pre, c, post, hSplit, hFound, hPointer⟩

/- What freeing the cell between `pre` and `post` leaves. -/
structure CellFreed (h : Heap σ) (pre : List HeapCell) (c : HeapCell) (post : List HeapCell)
    (h' : Heap σ) : Prop where
  rep : HeapRep h' (freeCell pre c post)
  initialized : h'.stats.initialized = h.stats.initialized
  pages : h'.pages = h.pages
  successes : h'.stats.successfulFreeCount = u32 (h.stats.successfulFreeCount + 1)
  failures : h'.stats.invalidFreeCount = h.stats.invalidFreeCount
  flag : (h'.blocks (0xC1000000 + cellsBytes pre)).used = false

/- The merge pass changes no flag. -/
theorem heapMergeLoop_used {block visited : Nat}
    (hRun : heapMergeLoop turns h block visited = some h') (a : Nat) :
    (h'.blocks a).used = (h.blocks a).used := by
  fun_induction heapMergeLoop turns h block visited with
  | case1 => exact absurd hRun (by simp)
  | case2 => rw [Option.some.inj hRun]
  | case3 => rw [Option.some.inj hRun]
  | case4 => rw [Option.some.inj hRun]
  | case5 => rw [Option.some.inj hRun]
  | case6 turns h block visited _ _ _ _ _ ih =>
    rw [ih hRun]
    simp only [Heap.setBlock]
    split
    · next hEq => rw [hEq]
    · rfl
  | case7 turns h block visited _ _ _ _ _ ih => exact ih hRun

/- A used block that is found is freed. -/
theorem kfree_found {pre post : List HeapCell} {c : HeapCell} (hRep : HeapRep h (pre ++ c :: post))
    (hUsed : c.used = true) {pointer : UInt32}
    (hFound : heapFindBlockForPointer h pointer.toNat = 0xC1000000 + cellsBytes pre) :
    ∃ h', kfree h pointer = some h' ∧ CellFreed h pre c post h' := by
  have hHeader := hRep.cells.header_mid
  have hBlock : 0xC1000000 + cellsBytes pre ≠ 0 := by omega
  have hNull : pointer ≠ 0 := by
    intro hZero
    rw [hZero] at hFound
    exact hBlock (hFound.symm.trans rfl)
  have hFreed : HeapRep
        { h.setBlock (0xC1000000 + cellsBytes pre)
            { h.blocks
                (0xC1000000 + cellsBytes pre) with
              used := false } with
          stats := { h.stats with successfulFreeCount := u32 (h.stats.successfulFreeCount + 1) } }
        (pre ++ { size := c.size, used := false } :: post) :=
    (hRep.setUsed false).withStats ⟨rfl, rfl, rfl, rfl, rfl⟩ rfl rfl
  rcases heapMergeFreeBlocks_rep hFreed with ⟨blocks, hMerge, hMerged⟩
  have hFlag : (h.blocks (0xC1000000 + cellsBytes pre)).used = true := by
    rw [hHeader]
    exact hUsed
  refine ⟨_, ?_, ⟨heapRecalculateStats_rep hMerged, rfl, rfl, rfl, rfl, ?_⟩⟩
  · simp only [kfree, hNull, hFound, hBlock, hFlag, if_false, setBlock_stats, hMerge]
    simp
  · have hSame := heapMergeLoop_used hMerge (0xC1000000 + cellsBytes pre)
    refine hSame.trans ?_
    simp [Heap.setBlock]

theorem kfree_cells (hRep : HeapRep h cs) (pointer : UInt32) :
    (∃ h', kfree h pointer = some h' ∧ HeapRep h' cs ∧ h'.stats.initialized = h.stats.initialized ∧
          h'.pages = h.pages) ∨
      ∃ pre c post h',
        cs = pre ++ c :: post ∧ c.used = true ∧ pointer.toNat = 0xC1000000 + cellsBytes pre + 16 ∧
          kfree h pointer = some h' ∧
          CellFreed h pre c post h' := by
  by_cases hNull : pointer = 0
  · exact Or.inl ⟨h, by simp [kfree, hNull], hRep, rfl, rfl⟩
  rcases heapFindBlockForPointer_cells hRep pointer.toNat with
    hNone | ⟨pre, c, post, hSplit, hFound, hPointer⟩
  · refine Or.inl ⟨{ h with
        stats := { h.stats with invalidFreeCount := u32 (h.stats.invalidFreeCount + 1) } },
      ?_, hRep.withStats ⟨rfl, rfl, rfl, rfl, rfl⟩ rfl rfl, rfl, rfl⟩
    simp [kfree, hNull, hNone]
  · subst hSplit
    cases hUsed : c.used with
    | false =>
      have hHeader := hRep.cells.header_mid
      have hBlock : 0xC1000000 + cellsBytes pre ≠ 0 := by omega
      refine Or.inl ⟨{ h with
          stats := { h.stats with doubleFreeCount := u32 (h.stats.doubleFreeCount + 1) } },
        ?_, hRep.withStats ⟨rfl, rfl, rfl, rfl, rfl⟩ rfl rfl, rfl, rfl⟩
      simp [kfree, hNull, hFound, hHeader, HeapCell.header, hUsed]
    | true =>
      rcases kfree_found hRep hUsed hFound with ⟨h', hRun, hFreed⟩
      exact Or.inr ⟨pre, c, post, h', rfl, hUsed, hPointer, hRun, hFreed⟩

theorem kfree_rep (hRep : HeapRep h cs) (pointer : UInt32) :
    ∃ h' cs', kfree h pointer = some h' ∧ KfreeEnds cs cs' ∧ HeapRep h' cs' ∧
        h'.stats.initialized = h.stats.initialized ∧
        h'.pages = h.pages := by
  rcases kfree_cells hRep pointer with
    ⟨h', hRun, hRep', hInit, hPages⟩ | ⟨pre, c, post, h', hSplit, hUsed, -, hRun, hFreed⟩
  · exact ⟨h', cs, hRun, .ignored, hRep', hInit, hPages⟩
  · subst hSplit
    exact ⟨h', _, hRun, .freed pre c post hUsed, hFreed.rep, hFreed.initialized, hFreed.pages⟩

----------
-- Initialization

theorem heapReset_rep (h : Heap σ) : HeapRep (heapReset h) [] :=
  ⟨⟨rfl, rfl⟩, rfl, trivial, ⟨le_refl _, by simp, by norm_num, by simp⟩, rfl, rfl, rfl⟩

/-
  After initialization the heap is one fresh page, or the empty list when the first growth failed.
-/
theorem heapInitialize_rep (svc : PageServices σ) (h : Heap σ) :
    ∃ h', heapInitialize svc h = some h' ∧
        ((HeapRep h' [] ∧ h'.stats.initialized = false) ∨
          (HeapRep h' [freshCell] ∧ h'.stats.initialized = true)) ∧
        ∃ m ok grown, heapGrow svc (heapReset h) m = some (ok, grown) ∧ h'.pages = grown.pages := by
  have hReset := heapReset_rep h
  have hPages :
      heapRequiredPages (sub32 (u32 (heapInitialPages * pmmPageSize)) heapHeaderSize) = 1 := by
    decide
  unfold heapInitialize
  rcases heapGrow_rep hReset svc (sub32 (u32 (heapInitialPages * pmmPageSize)) heapHeaderSize) with
    ⟨failed, hGrow, hFailed⟩ | ⟨g, grown, hGrow, -, -, hGrown⟩
  · rw [hGrow]
    refine ⟨failed, rfl, Or.inl ⟨hFailed.rep hReset, ?_⟩, _, false, failed, hGrow, rfl⟩
    rw [hFailed.stats]
    rfl
  · rw [hGrow]
    refine ⟨_, rfl, Or.inr ⟨?_, rfl⟩, _, true, grown, hGrow, rfl⟩
    have hCells := hGrown.rep
    rw [hPages] at hCells
    exact heapRecalculateStats_rep (hCells.withStats ⟨rfl, rfl, rfl, rfl, rfl⟩ rfl rfl)

----------
-- Runs

/- The static variables before `heap_initialize`. -/
def bssHeap (pages : σ) : Heap σ :=
  { head := 0
    blocks := fun _ =>
      { magic := 0, size := 0, used := false, next := 0 }
    stats :=
      { initialized := false
        virtualStart := 0
        virtualEnd := 0
        nextVirtualPage := 0
        totalPages := 0
        totalBytes := 0
        usedBytes := 0
        freeBytes := 0
        allocationCount := 0
        freeBlockCount := 0
        growCount := 0
        failedGrowCount := 0
        failedAllocationCount := 0
        successfulFreeCount := 0
        invalidFreeCount := 0
        doubleFreeCount := 0 }
    auditInfo :=
      { auditsRun := 0
        issuesFound := 0
        blocksSeen := 0
        usedBlocks := 0
        freeBlocks := 0
        invalidMagicBlocks := 0
        outOfRangeBlocks := 0
        misalignedBlocks := 0
        invalidSizeBlocks := 0
        invalidNextLinks := 0
        unmappedHeapPages := 0
        calculatedUsedBytes := 0
        calculatedFreeBytes := 0
        calculatedTotalPayloadBytes := 0 }
    pages := pages }

/- A call by a client of the heap. -/
inductive HeapOp where
  | kmalloc (size : UInt32)
  | kfree (pointer : UInt32)

def heapStep (svc : PageServices σ) (h : Heap σ) : HeapOp → Option (Heap σ)
| .kmalloc size => (kmalloc svc h size).map Prod.snd
| .kfree pointer => kfree h pointer

end LiamOS.I386
