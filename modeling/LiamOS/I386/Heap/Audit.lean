import LiamOS.I386.Heap.Refinement

/-
  The heap audit on a heap of cells: it reports no issue exactly when the heap is initialized, its
  list has at most 4096 cells with nonempty payloads, its pages are mapped and its statistics are
  the sums over the cells.

  Main declarations: `heapAuditBlocks_cells`, `heapAuditPages_mapped`, `heapAudit_zero_iff`.
-/

namespace LiamOS.I386

open Word

variable {σ : Type}
variable {h : Heap σ} {cs : List HeapCell} {info : HeapAuditInfo}
variable {a budget : Nat} {t : HeapTally}

----------
-- Block Walk

/- The block walk of the audit on cells. -/
def auditCells : Nat → List HeapCell → HeapAuditInfo → HeapAuditInfo
| _, [], info => info
| 0, _ :: _, info => info.recordInvalidNext
| budget + 1, c :: cs, info =>
    let seen := { info with blocksSeen := u32 (info.blocksSeen + 1) }
    if c.size = 0 then
      seen.recordInvalidSize
    else
      auditCells budget cs (seen.countBlock (c.header 0))

theorem heapAuditBlocks_cells (hRange : h.HasRange) {previous : Nat}
    (hCells : CellsAt h.blocks 0 a cs) (hFit : CellsFit a cs) (hPrevious : previous < a)
    (budget : Nat) (info : HeapAuditInfo) :
    heapAuditBlocks h budget (cellsPointer a cs) previous info = auditCells budget cs info := by
  induction cs generalizing a previous budget info with
  | nil =>
    cases budget with
    | zero => simp [heapAuditBlocks, auditCells]
    | succ budget => simp [heapAuditBlocks, auditCells]
  | cons c cs ih =>
    have hStart := hFit.start_le
    have hEnd := hFit.end_le
    simp only [cellsBytes_cons] at hEnd
    have hZero : a ≠ 0 := by omega
    cases budget with
    | zero => simp [heapAuditBlocks, auditCells, hZero]
    | succ budget =>
      have hInRange : heapAddressInRange h a = true := by
        simp [heapAddressInRange, hRange.1, hRange.2]
        omega
      have hAligned : heapAddressIsAligned a = true := (heapAddressIsAligned_iff a).mpr hFit.aligned
      have hMagic : (h.blocks a).magic = heapBlockMagic := by
        rw [hCells.1]
        rfl
      have hSize : (h.blocks a).size = c.size := by
        rw [hCells.1]
        rfl
      by_cases hEmpty : c.size = 0
      · simp [heapAuditBlocks, auditCells, hZero, hInRange, hAligned, hMagic, hSize, hEmpty]
      have hLast : heapBlockLastByte h a = a + 16 + c.size - 1 := by
        rw [heapBlockLastByte, hSize, heapHeaderSize_eq, u32_of_lt (by omega),
          sub32_of_le (by omega) (by omega)]
      have hInside : ¬ h.stats.virtualEnd < heapBlockLastByte h a := by
        rw [hLast, hRange.2]
        omega
      have hOrder : ¬ (previous ≠ 0 ∧ a ≤ previous) := by omega
      have hStep := ih hCells.2 hFit.tail (show a < a + 16 + c.size by omega) budget
          (HeapAuditInfo.countBlock { info with blocksSeen := u32 (info.blocksSeen + 1) }
            (c.header 0))
      rw [← hCells.next_eq] at hStep
      rw [cellsPointer_cons, heapAuditBlocks, auditCells,
        if_neg hZero, hInRange, hAligned, hMagic, hSize,
        if_neg hEmpty]
      simp only [Bool.not_true, Bool.false_eq_true, if_false, ne_eq, not_true_eq_false, hEmpty,
        hInside, or_self, hOrder]
      rw [← hStep, hCells.1]
      rfl

@[simp] theorem countBlock_issuesFound (info : HeapAuditInfo) (block : HeapBlock) :
    (info.countBlock block).issuesFound = info.issuesFound := by
  unfold HeapAuditInfo.countBlock
  split <;> rfl

/- The audit sums a block as the statistics do. -/
theorem countBlock_sums (info : HeapAuditInfo) (c : HeapCell)
    (hUsed : info.calculatedUsedBytes = t.usedBytes)
    (hFree : info.calculatedFreeBytes = t.freeBytes) :
    (info.countBlock (c.header 0)).calculatedUsedBytes = (t.add c.size c.used).usedBytes ∧
      (info.countBlock (c.header 0)).calculatedFreeBytes = (t.add c.size c.used).freeBytes := by
  unfold HeapAuditInfo.countBlock HeapTally.add
  cases hFlag : c.used with
  | true => simp [HeapCell.header, hFlag, hUsed, hFree]
  | false => simp [HeapCell.header, hFlag, hUsed, hFree]

/- Clean cells raise no issue and are summed up. -/
theorem auditCells_clean (hSizes : ∀ c ∈ cs, c.size ≠ 0) (hLength : cs.length ≤ budget)
    (hUsed : info.calculatedUsedBytes = t.usedBytes)
    (hFree : info.calculatedFreeBytes = t.freeBytes) :
    (auditCells budget cs info).issuesFound = info.issuesFound ∧
      (auditCells budget cs info).calculatedUsedBytes = (tallyCells budget cs t).usedBytes ∧
      (auditCells budget cs info).calculatedFreeBytes = (tallyCells budget cs t).freeBytes := by
  induction cs generalizing budget info t with
  | nil =>
    cases budget with
    | zero => exact ⟨rfl, hUsed, hFree⟩
    | succ budget => exact ⟨rfl, hUsed, hFree⟩
  | cons c cs ih =>
    cases budget with
    | zero => simp at hLength
    | succ budget =>
      have hSize := hSizes c (by simp)
      have hSums := countBlock_sums { info with blocksSeen := u32 (info.blocksSeen + 1) }
          c hUsed hFree
      have hRest := ih
          (fun d hd =>
            hSizes d (List.mem_cons_of_mem _ hd))
          (show cs.length ≤ budget by simpa using hLength)
          hSums.1 hSums.2
      rw [countBlock_issuesFound] at hRest
      simpa only [auditCells, tallyCells, hSize, if_false] using hRest

/- Cells that are not clean raise one issue. -/
theorem auditCells_dirty (hDirty : ¬ ((∀ c ∈ cs, c.size ≠ 0) ∧ cs.length ≤ budget)) :
    (auditCells budget cs info).issuesFound = u32 (info.issuesFound + 1) := by
  induction cs generalizing budget info with
  | nil => simp at hDirty
  | cons c cs ih =>
    cases budget with
    | zero => rfl
    | succ budget =>
      by_cases hSize : c.size = 0
      · simp only [auditCells, hSize, if_true]
        rfl
      · simp only [auditCells, hSize, if_false]
        rw [ih, countBlock_issuesFound]
        rintro ⟨hSizes, hLength⟩
        apply hDirty
        refine ⟨?_, by simpa using hLength⟩
        intro d hd
        rcases List.mem_cons.mp hd with hEq | hMem
        · rw [hEq]
          exact hSize
        · exact hSizes d hMem

----------
-- Page Walk

/- The page walk counts the unmapped pages. -/
theorem heapAuditPages_mapped (svc : PageServices σ) (n : Nat) {turns : Nat}
    (hNext : h.stats.nextVirtualPage = a + 4096 * n) (hWord : a + 4096 * n < 4294967296)
    (hTurns : n < turns) (hIssues : info.issuesFound + n < 4294967296) :
    ∃ info', heapAuditPages svc h turns a info = some info' ∧
        info'.calculatedUsedBytes = info.calculatedUsedBytes ∧
        info'.calculatedFreeBytes = info.calculatedFreeBytes ∧
        info.issuesFound ≤ info'.issuesFound ∧
        info'.issuesFound ≤ info.issuesFound + n ∧
        (info'.issuesFound = info.issuesFound ↔
          ∀ j, j < n → svc.vmmIsMapped (a + 4096 * j) h.pages = true) := by
  induction n generalizing a turns info with
  | zero =>
    cases turns with
    | zero => omega
    | succ turns =>
      refine ⟨info, ?_, rfl, rfl, le_refl _, le_refl _, by simp⟩
      rw [heapAuditPages, if_neg (by omega)]
  | succ n ih =>
    cases turns with
    | zero => omega
    | succ turns =>
      have hPage : a + 4096 ≤ a + 4096 * (n + 1) := by omega
      have hStep : u32 (a + pmmPageSize) = a + 4096 := u32_of_lt (Nat.lt_of_le_of_lt hPage hWord)
      rw [heapAuditPages, if_pos (by omega), hStep]
      cases hHere : svc.vmmIsMapped a h.pages with
      | true =>
        rcases ih (show h.stats.nextVirtualPage = a + 4096 + 4096 * n by omega)
            (by omega) (show n < turns by omega)
            (show info.issuesFound + n < 4294967296 by
              omega) with
          ⟨info', hRun, hUsed, hFree, hLow, hHigh, hAll⟩
        refine ⟨info', by simpa using hRun, hUsed, hFree, hLow, by omega, ?_⟩
        rw [hAll]
        constructor
        · intro hRest j hj
          cases j with
          | zero => simpa using hHere
          | succ j =>
            have hMapped := hRest j (by omega)
            rwa [show a + 4096 + 4096 * j = a + 4096 * (j + 1) by omega] at hMapped
        · intro hEvery j hj
          have hMapped := hEvery (j + 1) (by omega)
          rwa [show a + 4096 * (j + 1) = a + 4096 + 4096 * j by omega] at hMapped
      | false =>
        have hCount : info.recordUnmapped.issuesFound = info.issuesFound + 1 := by
          change u32 (info.issuesFound + 1) = _
          exact u32_of_lt (by omega)
        rcases ih (show h.stats.nextVirtualPage = a + 4096 + 4096 * n by omega)
            (by omega) (show n < turns by omega)
            (show info.recordUnmapped.issuesFound + n < 4294967296 by rw [hCount]; omega) with
          ⟨info', hRun, hUsed, hFree, hLow, hHigh, -⟩
        rw [hCount] at hLow hHigh
        refine ⟨info', by simpa using hRun, hUsed, hFree, by omega, by omega, ?_⟩
        constructor
        · intro hSame
          omega
        · intro hEvery
          have hMapped := hEvery 0 (by omega)
          simp [hHere] at hMapped

----------
-- Audit

/- What the audit checks, on cells. -/
structure AuditClean (svc : PageServices σ) (h : Heap σ) (cs : List HeapCell) : Prop where
  initialized : h.stats.initialized = true
  sizes : ∀ c ∈ cs, c.size ≠ 0
  length : cs.length ≤ heapMaxAuditBlocks
  mapped : ∀ j, 4096 * j < cellsBytes cs → svc.vmmIsMapped (0xC1000000 + 4096 * j) h.pages = true
  counted : HeapCounted h cs

/- The issues the comparisons of the sums add. -/
theorem heapAudit_finish {svc : PageServices σ} {paged : HeapAuditInfo}
    (hInit : h.stats.initialized = true)
    (hPaged : heapAuditPages svc h heapWalkTurns h.stats.virtualStart
          (heapAuditBlocks h heapMaxAuditBlocks h.head 0 (heapClearAuditSnapshot
              { h.auditInfo with auditsRun := u32 (h.auditInfo.auditsRun + 1) })) = some paged)
    (hIssues : paged.issuesFound + 2 < 4294967296) :
    ∃ count audited, heapAudit svc h = some (count, audited) ∧
        (count = 0 ↔ paged.issuesFound = 0 ∧ paged.calculatedUsedBytes = h.stats.usedBytes ∧
            paged.calculatedFreeBytes = h.stats.freeBytes) := by
  have hOne : paged.recordIssue.issuesFound = paged.issuesFound + 1 := by
    change u32 (paged.issuesFound + 1) = _
    exact u32_of_lt (by omega)
  have hTwo : paged.recordIssue.recordIssue.issuesFound = paged.issuesFound + 2 := by
    change u32 (paged.recordIssue.issuesFound + 1) = _
    rw [hOne, u32_of_lt (by omega)]
  unfold heapAudit
  rw [if_neg (by simp [hInit])]
  simp only [hPaged]
  by_cases hUsed : paged.calculatedUsedBytes = h.stats.usedBytes
  · by_cases hFree : paged.calculatedFreeBytes = h.stats.freeBytes
    · refine ⟨_, _, rfl, ?_⟩
      simp [hUsed, hFree]
    · refine ⟨_, _, rfl, ?_⟩
      simp [hUsed, hFree, hOne]
  · by_cases hFree : paged.calculatedFreeBytes = h.stats.freeBytes
    · have hFree' : paged.recordIssue.calculatedFreeBytes = h.stats.freeBytes := hFree
      refine ⟨_, _, rfl, ?_⟩
      simp [hUsed, hFree', hOne]
    · have hFree' : paged.recordIssue.calculatedFreeBytes ≠ h.stats.freeBytes := hFree
      refine ⟨_, _, rfl, ?_⟩
      simp [hUsed, hFree', hTwo]

theorem heapAudit_zero_iff (svc : PageServices σ) (hRep : HeapRep h cs) :
    (∃ audited, heapAudit svc h = some (0, audited)) ↔ AuditClean svc h cs := by
  cases hInit : h.stats.initialized with
  | false =>
    constructor
    · rintro ⟨audited, hAudit⟩
      simp [heapAudit, hInit, HeapAuditInfo.recordOutOfRange,
        HeapAuditInfo.recordIssue, heapClearAuditSnapshot, u32] at hAudit
    · intro hClean
      rw [hClean.initialized] at hInit
      exact absurd hInit (by simp)
  | true =>
    have hPages := hRep.pages
    have hNext := hRep.next
    have hEnd := hRep.fit.end_le
    generalize hStart : heapClearAuditSnapshot
        { h.auditInfo with auditsRun := u32 (h.auditInfo.auditsRun + 1) } =
        start
    have hZero : start.issuesFound = 0 := by
      rw [← hStart]
      rfl
    have hUsedZero : start.calculatedUsedBytes = HeapTally.zero.usedBytes := by
      rw [← hStart]
      rfl
    have hFreeZero : start.calculatedFreeBytes = HeapTally.zero.freeBytes := by
      rw [← hStart]
      rfl
    have hWalk : heapAuditBlocks h heapMaxAuditBlocks h.head 0 start =
          auditCells heapMaxAuditBlocks cs start := by
      rw [hRep.head]
      exact heapAuditBlocks_cells hRep.range hRep.cells hRep.fit (by norm_num) _ _
    have hFew : (auditCells heapMaxAuditBlocks cs start).issuesFound ≤ 1 ∧
        ((auditCells heapMaxAuditBlocks cs start).issuesFound = 0 ↔
          (∀ c ∈ cs, c.size ≠ 0) ∧ cs.length ≤ heapMaxAuditBlocks) := by
      by_cases hClean : (∀ c ∈ cs, c.size ≠ 0) ∧ cs.length ≤ heapMaxAuditBlocks
      · have hSums := auditCells_clean hClean.1 hClean.2 hUsedZero hFreeZero
        rw [hSums.1, hZero]
        exact ⟨by omega, fun _ => hClean, fun _ => rfl⟩
      · rw [auditCells_dirty hClean, hZero]
        exact ⟨by decide, fun hNone => absurd hNone (by decide), fun hYes => absurd hYes hClean⟩
    rcases heapAuditPages_mapped svc h.stats.totalPages
        (show h.stats.nextVirtualPage = 0xC1000000 + 4096 * h.stats.totalPages by omega)
        (by omega)
        (show h.stats.totalPages < heapWalkTurns by
          rw [heapWalkTurns]; omega)
        (show (auditCells heapMaxAuditBlocks cs
          start).issuesFound + h.stats.totalPages < 4294967296 by omega) with
      ⟨paged, hPaged, hUsed, hFree, hLow, hHigh, hMapped⟩
    rw [← hWalk, ← hRep.range.1, ← hStart] at hPaged
    rcases heapAudit_finish hInit hPaged (by omega) with ⟨count, audited, hAudit, hCount⟩
    have hNone : (∃ audited, heapAudit svc h = some (0, audited)) ↔ count = 0 := by
      constructor
      · rintro ⟨audited', hAudit'⟩
        rw [hAudit] at hAudit'
        simp only [Option.some.injEq, Prod.mk.injEq] at hAudit'
        exact hAudit'.1
      · intro hEq
        exact ⟨audited, by rw [hAudit, hEq]⟩
    rw [hNone, hCount, hUsed, hFree]
    constructor
    · rintro ⟨hIssues, hUsedEq, hFreeEq⟩
      have hCellsZero : (auditCells heapMaxAuditBlocks cs start).issuesFound = 0 := by omega
      have hClean := hFew.2.mp hCellsZero
      have hSums := auditCells_clean hClean.1 hClean.2 hUsedZero hFreeZero
      refine ⟨hInit, hClean.1, hClean.2, ?_,
        ⟨by rw [← hUsedEq, hSums.2.1], by rw [← hFreeEq, hSums.2.2]⟩⟩
      intro j hj
      exact (hMapped.mp (by omega)) j (by omega)
    · intro hClean
      have hSums := auditCells_clean hClean.sizes hClean.length hUsedZero hFreeZero
      refine ⟨?_, by rw [hSums.2.1, hClean.counted.used], by rw [hSums.2.2, hClean.counted.free]⟩
      have hAll := hMapped.mpr (fun j hj => hClean.mapped j (by omega))
      rw [hAll, hSums.1, hZero]

end LiamOS.I386
