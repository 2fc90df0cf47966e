import LiamOS.I386.Heap.Model

/-
  The heap as a sequence of cells.

  Abstractly the heap is a list of cells, each a payload size and a used flag, laid end to end
  from the start of the heap's range with a header before every payload. `CellsAt` says that the
  block headers in memory spell out such a list, and the walk lemmas below say what each loop of
  the source computes on memory that does.

  Key definitions: `HeapCell`, `cellsBytes`, `CellsAt`, `CellsFit`, `mergeCells`.
-/

namespace LiamOS.I386

open Word

variable {σ : Type}
variable {blocks : Nat → HeapBlock} {a stop : Nat} {cs : List HeapCell} {h : Heap σ} {c : HeapCell}
variable {turns : Nat}

----------
-- Header Arithmetic

@[simp] theorem heapHeaderSize_eq : heapHeaderSize = 16 := by
  decide

theorem alignUp_eight (value : Nat) :
    alignUp value heapAlignment = u32 (value + 7) - u32 (value + 7) % 8 := by
  have hMask := and_not32_low (x := u32 (value + 7)) 3 (by omega) (u32_lt _)
  simpa [alignUp, heapAlignment] using hMask

theorem alignUp_page (value : Nat) :
    alignUp value pmmPageSize = u32 (value + 4095) - u32 (value + 4095) % 4096 := by
  have hMask := and_not32_low (x := u32 (value + 4095)) 12 (by omega) (u32_lt _)
  simpa [alignUp, pmmPageSize] using hMask

theorem heapAddressIsAligned_iff (address : Nat) :
    heapAddressIsAligned address = true ↔ address % 8 = 0 := by
  have hMask := Nat.and_two_pow_sub_one_eq_mod address 3
  simp only [heapAddressIsAligned, heapAlignment, beq_iff_eq]
  norm_num at hMask ⊢
  rw [hMask]

----------
-- Cells

/- The payload size and the used flag of one block. -/
structure HeapCell where
  size : Nat
  used : Bool
deriving DecidableEq

variable {pre : List HeapCell}

/- The bytes a cell takes, header included. -/
def HeapCell.bytes (c : HeapCell) : Nat := 16 + c.size

/- The bytes a list of cells takes. -/
def cellsBytes : List HeapCell → Nat
| [] => 0
| c :: cs => c.bytes + cellsBytes cs

@[simp] theorem cellsBytes_nil : cellsBytes [] = 0 := rfl

@[simp] theorem cellsBytes_cons (c : HeapCell) (cs : List HeapCell) :
    cellsBytes (c :: cs) = 16 + c.size + cellsBytes cs := rfl

@[simp] theorem cellsBytes_append (xs ys : List HeapCell) :
    cellsBytes (xs ++ ys) = cellsBytes xs + cellsBytes ys := by
  induction xs with
  | nil => simp
  | cons c cs ih =>
    simp [ih]
    omega

theorem length_le_cellsBytes (cs : List HeapCell) : 16 * cs.length ≤ cellsBytes cs := by
  induction cs with
  | nil => simp
  | cons c cs ih =>
    simp only [List.length_cons, cellsBytes_cons]
    omega

----------
-- Cells In Memory

/- The header a cell has when `next` is its link. -/
def HeapCell.header (c : HeapCell) (next : Nat) : HeapBlock :=
  { magic := heapBlockMagic
    size := c.size
    used := c.used
    next := next }

/-
  The headers from address `a` on spell out the cells, each linked to the one after it and the
  last one to `stop`.
-/
def CellsAt (blocks : Nat → HeapBlock) (stop : Nat) : Nat → List HeapCell → Prop
| _, [] => True
| a, c :: cs =>
    blocks a = c.header (if cs = [] then stop else a + 16 + c.size) ∧
      CellsAt blocks stop (a + 16 + c.size) cs

/- Cells read only the headers in the bytes they take. -/
theorem CellsAt.congr {blocks' : Nat → HeapBlock} (hCells : CellsAt blocks stop a cs)
    (hAgree : ∀ x, a ≤ x → x < a + cellsBytes cs → blocks' x = blocks x) :
    CellsAt blocks' stop a cs := by
  induction cs generalizing a with
  | nil => trivial
  | cons c cs ih =>
    rcases hCells with ⟨hHead, hTail⟩
    simp only [cellsBytes_cons] at hAgree
    refine ⟨?_, ih hTail ?_⟩
    · rw [hAgree a (by omega) (by omega), hHead]
    · intro x hLow hHigh
      exact hAgree x (by omega) (by omega)

/- A header stored outside the cells leaves them alone. -/
theorem CellsAt.setBlock (hCells : CellsAt h.blocks stop a cs) {address : Nat}
    (hOutside : address < a ∨ a + cellsBytes cs ≤ address) (block : HeapBlock) :
    CellsAt (h.setBlock address block).blocks stop a cs := by
  apply hCells.congr
  intro x hLow hHigh
  have hNe : x ≠ address := by omega
  simp [Heap.setBlock, hNe]

/- Two adjacent runs of cells are one run. -/
theorem cellsAt_append {xs ys : List HeapCell} (hRest : ys ≠ []) :
    CellsAt blocks stop a (xs ++ ys) ↔
      CellsAt blocks (a + cellsBytes xs) a xs ∧ CellsAt blocks stop (a + cellsBytes xs) ys := by
  induction xs generalizing a with
  | nil => simp [CellsAt]
  | cons c cs ih =>
    have hAddress : a + 16 + c.size + cellsBytes cs = a + (16 + c.size + cellsBytes cs) := by omega
    by_cases hLast : cs = []
    · subst hLast
      simp [CellsAt, hRest, Nat.add_assoc]
    · have hJoined : cs ++ ys ≠ [] := by simp [hRest]
      simp only [List.cons_append, CellsAt, hJoined, hLast,
        if_false, ih, cellsBytes_cons, hAddress, and_assoc]

/- Changing only the link of the last cell. -/
theorem CellsAt.relink (hCells : CellsAt h.blocks stop a (pre ++ [c])) (next : Nat) : CellsAt
      (h.setBlock (a + cellsBytes pre) { h.blocks (a + cellsBytes pre) with next := next }).blocks
      next a (pre ++ [c]) := by
  rw [cellsAt_append (by simp)] at hCells ⊢
  rcases hCells with ⟨hPre, hLast, -⟩
  refine ⟨hPre.setBlock (Or.inr (le_refl _)) _, ?_, trivial⟩
  simp only [if_true] at hLast ⊢
  simp [Heap.setBlock, hLast, HeapCell.header]

/- A run of cells inside the heap's range, on 8-byte boundaries. -/
structure CellsFit (a : Nat) (cs : List HeapCell) : Prop where
  start_le : 0xC1000000 ≤ a
  end_le : a + cellsBytes cs ≤ 0xC2000000
  aligned : a % 8 = 0
  sizes : ∀ c ∈ cs, c.size % 8 = 0

theorem CellsFit.tail (hFit : CellsFit a (c :: cs)) : CellsFit (a + 16 + c.size) cs := by
  have hStart := hFit.start_le
  have hEnd := hFit.end_le
  have hAligned := hFit.aligned
  have hSize := hFit.sizes c (by simp)
  simp only [cellsBytes_cons] at hEnd
  refine ⟨by omega, by omega, by omega, ?_⟩
  intro d hd
  exact hFit.sizes d (List.mem_cons_of_mem _ hd)

/- The heap's range is the fixed one of the memory layout. -/
def Heap.HasRange (h : Heap σ) : Prop :=
  h.stats.virtualStart = 0xC1000000 ∧ h.stats.virtualEnd = 0xC1FFFFFF

/- A cell in memory is sane unless its payload is empty. -/
theorem heapBlockHeaderIsSane_cell (hRange : h.HasRange)
    (hCells : CellsAt h.blocks stop a (c :: cs)) (hFit : CellsFit a (c :: cs)) :
    heapBlockHeaderIsSane h a = decide (c.size ≠ 0) := by
  have hStart := hFit.start_le
  have hEnd := hFit.end_le
  have hHead := hCells.1
  simp only [cellsBytes_cons] at hEnd
  have hInRange : heapAddressInRange h a = true := by
    simp [heapAddressInRange, hRange.1, hRange.2]
    omega
  have hAligned : heapAddressIsAligned a = true := (heapAddressIsAligned_iff a).mpr hFit.aligned
  have hZero : a ≠ 0 := by omega
  by_cases hSize : c.size = 0
  · simp [heapBlockHeaderIsSane, hHead, HeapCell.header, hSize]
  · have hLast : heapBlockLastByte h a = a + 16 + c.size - 1 := by
      simp only [heapBlockLastByte, hHead, HeapCell.header, heapHeaderSize_eq]
      rw [u32_of_lt (by omega), sub32_of_le (by omega) (by omega)]
    have hInside : ¬ h.stats.virtualEnd < heapBlockLastByte h a := by
      rw [hLast, hRange.2]
      omega
    simp [heapBlockHeaderIsSane, hHead, HeapCell.header, hSize, hInRange, hAligned, hZero, hInside]

/- The pointer to a run of cells at `a`. -/
def cellsPointer (a : Nat) (cs : List HeapCell) : Nat := if cs = [] then 0 else a

@[simp] theorem cellsPointer_nil (a : Nat) : cellsPointer a [] = 0 := rfl

@[simp] theorem cellsPointer_cons (a : Nat) (c : HeapCell) (cs : List HeapCell) :
    cellsPointer a (c :: cs) = a := rfl

/- A cell's link is the pointer to the cells after it. -/
theorem CellsAt.next_eq (hCells : CellsAt blocks 0 a (c :: cs)) :
    (blocks a).next = cellsPointer (a + 16 + c.size) cs := by
  rw [hCells.1]
  rfl

----------
-- Statistics Walk

/- The sums over the leading sane cells, at most `budget`. -/
def tallyCells : Nat → List HeapCell → HeapTally → HeapTally
| 0, _, t => t
| _ + 1, [], t => t
| budget + 1, c :: cs, t => if c.size = 0 then t else tallyCells budget cs (t.add c.size c.used)

theorem heapRecalculateLoop_cells (hRange : h.HasRange) (hCells : CellsAt h.blocks 0 a cs)
    (hFit : CellsFit a cs) (budget : Nat) (t : HeapTally) :
    heapRecalculateLoop h budget (cellsPointer a cs) t = tallyCells budget cs t := by
  induction cs generalizing a budget t with
  | nil =>
    cases budget with
    | zero => rfl
    | succ budget => simp [heapRecalculateLoop, tallyCells]
  | cons c cs ih =>
    cases budget with
    | zero => rfl
    | succ budget =>
      have hZero : a ≠ 0 := by
        have hStart := hFit.start_le
        omega
      have hSane := heapBlockHeaderIsSane_cell hRange hCells hFit
      by_cases hSize : c.size = 0
      · simp [heapRecalculateLoop, tallyCells, hZero, hSane, hSize]
      · simp only [heapRecalculateLoop, tallyCells, cellsPointer_cons, hZero, hSane, hSize,
          hCells.next_eq]
        simpa [hCells.1, HeapCell.header, hSize] using
          ih hCells.2 hFit.tail budget (t.add c.size c.used)

----------
-- Allocation Search

/- A sane cell that cannot serve a request. -/
def HeapCell.Skipped (c : HeapCell) (requested : Nat) : Prop :=
  c.size ≠ 0 ∧ (c.used = true ∨ c.size < requested)

theorem HeapCell.not_skipped {c : HeapCell} {requested : Nat} (hFree : c.used = false)
    (hServes : requested ≤ c.size) : ¬ c.Skipped requested := by
  rintro ⟨-, hUsed | hSmall⟩
  · rw [hFree] at hUsed
    cases hUsed
  · omega

/-
  How the search of `kmalloc` ends on a list of cells: it stops at the first cell that serves the
  request, at the first cell with an empty payload, or after `budget` cells.
-/
inductive SearchEnds (a requested budget : Nat) (cs : List HeapCell) : HeapSearch → Prop
  | found
      (pre : List HeapCell)
      (c : HeapCell)
      (post : List HeapCell)
      (hSplit : cs = pre ++ c :: post)
      (hBudget : pre.length < budget)
      (hPre : ∀ d ∈ pre, d.Skipped requested)
      (hSize : c.size ≠ 0)
      (hFree : c.used = false)
      (hServes : requested ≤ c.size) :
      SearchEnds a requested budget cs (.found (a + cellsBytes pre))
  | corrupt
      (pre : List HeapCell)
      (c : HeapCell)
      (post : List HeapCell)
      (hSplit : cs = pre ++ c :: post)
      (hBudget : pre.length < budget)
      (hPre : ∀ d ∈ pre, d.Skipped requested)
      (hSize : c.size = 0) :
      SearchEnds a requested budget cs .corrupt
  | exhausted
      (hAll : ∀ d ∈ cs.take budget, d.Skipped requested) :
      SearchEnds a requested budget cs .exhausted

/- Searching past a cell that was skipped. -/
theorem SearchEnds.cons {requested budget : Nat} {outcome : HeapSearch}
    (hSkip : c.Skipped requested)
    (hEnds : SearchEnds (a + 16 + c.size) requested budget cs outcome) :
    SearchEnds a requested (budget + 1) (c :: cs) outcome := by
  have hBoth : ∀ pre : List HeapCell,
        (∀ d ∈ pre, d.Skipped requested) → ∀ d ∈ c :: pre, d.Skipped requested := by
    intro pre hPre d hd
    rcases List.mem_cons.mp hd with hEq | hMem
    · exact hEq ▸ hSkip
    · exact hPre d hMem
  cases hEnds with
  | found pre d post hSplit hBudget hPre hSize hFree hServes =>
    have hAddress : a + 16 + c.size + cellsBytes pre = a + cellsBytes (c :: pre) := by
      simp
      omega
    rw [hAddress]
    exact .found (c :: pre) d post (by simp [hSplit])
      (by simpa using hBudget) (hBoth pre hPre) hSize hFree
      hServes
  | corrupt pre d post hSplit hBudget hPre hSize =>
    exact .corrupt (c :: pre) d post (by simp [hSplit])
      (by simpa using hBudget) (hBoth pre hPre) hSize
  | exhausted hAll => exact .exhausted (by simpa using hBoth _ hAll)

theorem kmallocSearch_cells (hRange : h.HasRange) (hCells : CellsAt h.blocks 0 a cs)
    (hFit : CellsFit a cs) (requested budget : Nat) :
    SearchEnds a requested budget cs (kmallocSearch h requested budget (cellsPointer a cs)) := by
  induction cs generalizing a budget with
  | nil =>
    cases budget with
    | zero => exact .exhausted (by simp)
    | succ budget =>
      simp only [kmallocSearch, cellsPointer_nil, if_true]
      exact .exhausted (by simp)
  | cons c cs ih =>
    cases budget with
    | zero => exact .exhausted (by simp)
    | succ budget =>
      have hZero : a ≠ 0 := by
        have hStart := hFit.start_le
        omega
      have hSane := heapBlockHeaderIsSane_cell hRange hCells hFit
      by_cases hSize : c.size = 0
      · have hStop :
            kmallocSearch h requested (budget + 1) (cellsPointer a (c :: cs)) = .corrupt := by
          simp [kmallocSearch, hZero, hSane, hSize]
        rw [hStop]
        exact .corrupt [] c cs rfl (by simp) (by simp) hSize
      by_cases hServes : c.used = false ∧ requested ≤ c.size
      · have hStop :
            kmallocSearch h requested (budget + 1) (cellsPointer a (c :: cs)) = .found a := by
          simp [kmallocSearch, hZero, hSane, hSize, hCells.1, HeapCell.header, hServes.1, hServes.2]
        rw [hStop]
        exact .found [] c cs rfl (by simp) (by simp) hSize hServes.1 hServes.2
      · have hTest : ¬((h.blocks a).used = false ∧ requested ≤ (h.blocks a).size) := by
          rw [hCells.1]
          exact hServes
        have hStep : kmallocSearch h requested (budget + 1) (cellsPointer a (c :: cs)) =
              kmallocSearch h requested budget (cellsPointer (a + 16 + c.size) cs) := by
          simp only [kmallocSearch, cellsPointer_cons, hZero, hSane, hCells.next_eq]
          simp [hSize]
          intro hFree hLarge
          exact absurd ⟨hFree, of_decide_eq_true hLarge⟩ hTest
        rw [hStep]
        refine SearchEnds.cons ⟨hSize, ?_⟩ (ih hCells.2 hFit.tail budget)
        cases hUsed : c.used with
        | true => exact Or.inl rfl
        | false => exact Or.inr (by simpa [hUsed] using hServes)

----------
-- Pointer Search And Last Block

/-
  The pointer search of `kfree` finds nothing or a sane cell whose payload starts at the pointer.
-/
theorem heapFindBlockLoop_cells (hRange : h.HasRange) (hCells : CellsAt h.blocks 0 a cs)
    (hFit : CellsFit a cs) (pointer budget : Nat) :
    heapFindBlockLoop h pointer budget (cellsPointer a cs) = 0 ∨
      ∃ pre c post, cs = pre ++ c :: post ∧ pre.length < budget ∧
          heapFindBlockLoop h pointer budget (cellsPointer a cs) = a + cellsBytes pre ∧
          pointer = a + cellsBytes pre + 16 := by
  induction cs generalizing a budget with
  | nil =>
    cases budget with
    | zero => exact Or.inl rfl
    | succ budget => exact Or.inl (by simp [heapFindBlockLoop])
  | cons c cs ih =>
    cases budget with
    | zero => exact Or.inl rfl
    | succ budget =>
      have hStart := hFit.start_le
      have hEnd := hFit.end_le
      simp only [cellsBytes_cons] at hEnd
      have hZero : a ≠ 0 := by omega
      have hSane := heapBlockHeaderIsSane_cell hRange hCells hFit
      have hPayload : u32 (a + heapHeaderSize) = a + 16 := by
        rw [heapHeaderSize_eq, u32_of_lt (by omega)]
      by_cases hSize : c.size = 0
      · exact Or.inl (by simp [heapFindBlockLoop, hZero, hSane, hSize])
      by_cases hHere : a + 16 = pointer
      · refine Or.inr ⟨[], c, cs, rfl, by simp, ?_, by simp [hHere]⟩
        simp only [heapFindBlockLoop, cellsPointer_cons, hZero, hSane, hPayload, hHere]
        simp [hSize]
      · have hStep : heapFindBlockLoop h pointer (budget + 1) (cellsPointer a (c :: cs)) =
              heapFindBlockLoop h pointer budget (cellsPointer (a + 16 + c.size) cs) := by
          simp only [heapFindBlockLoop, cellsPointer_cons,
            hZero, hSane, hPayload, hHere, hCells.next_eq]
          simp [hSize]
        rw [hStep]
        rcases ih hCells.2 hFit.tail budget with
          hNone | ⟨pre, d, post, hSplit, hBudget, hFound, hPointer⟩
        · exact Or.inl hNone
        · refine Or.inr ⟨c :: pre, d, post, by simp [hSplit], by simpa using hBudget, ?_, ?_⟩
          · rw [hFound]
            simp
            omega
          · rw [hPointer]
            simp
            omega

/- The last block of a run is found in as many turns. -/
theorem heapFindLastLoop_cells (hStart : 0 < a) (hCells : CellsAt h.blocks 0 a (pre ++ [c]))
    (hTurns : pre.length < turns) :
    heapFindLastLoop h turns a = some (a + cellsBytes pre) := by
  induction pre generalizing a turns with
  | nil =>
    cases turns with
    | zero => simp at hTurns
    | succ turns => simp [heapFindLastLoop, hCells.1, HeapCell.header]
  | cons d ds ih =>
    cases turns with
    | zero => simp at hTurns
    | succ turns =>
      have hNext : (h.blocks a).next = a + 16 + d.size := by
        have hLink := hCells.next_eq
        simpa [cellsPointer] using hLink
      have hSome : a + 16 + d.size ≠ 0 := by omega
      simp only [heapFindLastLoop, hNext, hSome, if_false]
      rw [ih (by omega) hCells.2 (by simpa using hTurns)]
      simp
      omega

----------
-- Merging

/-
  The merge pass on cells: `c` is the current cell and the first argument is
  `HEAP_MAX_AUDIT_BLOCKS - visited`.
-/
def mergeCells : Nat → HeapCell → List HeapCell → List HeapCell
| 0, c, cs => c :: cs
| _ + 1, c, [] => [c]
| budget + 1, c, d :: cs =>
    if c.size = 0 ∨ d.size = 0 then
      c :: d :: cs
    else if c.used = false ∧ d.used = false then
      mergeCells (budget + 1) { size := c.size + 16 + d.size, used := false } cs
    else
      c :: mergeCells budget d cs

@[simp] theorem cellsBytes_mergeCells (budget : Nat) (c : HeapCell) (cs : List HeapCell) :
    cellsBytes (mergeCells budget c cs) = cellsBytes (c :: cs) := by
  fun_induction mergeCells budget c cs with
  | case1 => rfl
  | case2 => rfl
  | case3 => rfl
  | case4 budget c d cs hSizes hFree ih =>
    rw [ih]
    simp
    omega
  | case5 budget c d cs hSizes hFree ih => simp [ih]

theorem mergeCells_ne_nil (budget : Nat) (c : HeapCell) (cs : List HeapCell) :
    mergeCells budget c cs ≠ [] := by
  fun_induction mergeCells budget c cs with
  | case1 => simp
  | case2 => simp
  | case3 => simp
  | case4 budget c d cs hSizes hFree ih => exact ih
  | case5 => simp

@[simp] theorem setBlock_head (h : Heap σ) (address : Nat) (block : HeapBlock) :
    (h.setBlock address block).head = h.head := rfl

@[simp] theorem setBlock_stats (h : Heap σ) (address : Nat) (block : HeapBlock) :
    (h.setBlock address block).stats = h.stats := rfl

@[simp] theorem setBlock_auditInfo (h : Heap σ) (address : Nat) (block : HeapBlock) :
    (h.setBlock address block).auditInfo = h.auditInfo := rfl

@[simp] theorem setBlock_pages (h : Heap σ) (address : Nat) (block : HeapBlock) :
    (h.setBlock address block).pages = h.pages := rfl

/- Absorbing the next block into the one at `a`. -/
theorem CellsAt.absorb {d : HeapCell} (hCells : CellsAt h.blocks 0 a (c :: d :: cs))
    (hFree : c.used = false) :
    CellsAt
      (h.setBlock a
        { h.blocks a with
          size := c.size + 16 + d.size
          next := (h.blocks (a + 16 + c.size)).next }).blocks
      0 a
      ({ size := c.size + 16 + d.size, used := false } :: cs) := by
  rcases hCells with ⟨hHead, hNext, hRest⟩
  have hAddress : a + 16 + (c.size + 16 + d.size) = a + 16 + c.size + 16 + d.size := by omega
  refine ⟨?_, ?_⟩
  · simp [Heap.setBlock, hHead, hNext, HeapCell.header, hFree, hAddress]
  · simp only [hAddress]
    exact hRest.setBlock (Or.inl (by omega)) _

theorem heapMergeLoop_cells (hRange : h.HasRange) (hCells : CellsAt h.blocks 0 a (c :: cs))
    (hFit : CellsFit a (c :: cs)) (hTurns : cs.length < turns) (visited : Nat) :
    ∃ blocks, heapMergeLoop turns h a visited = some { h with blocks := blocks } ∧
        CellsAt blocks 0 a (mergeCells (heapMaxAuditBlocks - visited) c cs) ∧
        ∀ x, x < a ∨ a + cellsBytes (c :: cs) ≤ x → blocks x = h.blocks x := by
  induction cs generalizing h a c turns visited with
  | nil =>
    cases turns with
    | zero => simp at hTurns
    | succ turns =>
      refine ⟨h.blocks, ?_, ?_, fun x _ => rfl⟩
      · simp [heapMergeLoop, hCells.next_eq]
      · cases heapMaxAuditBlocks - visited with
        | zero => exact hCells
        | succ budget => exact hCells
  | cons d cs ih =>
    cases turns with
    | zero => simp at hTurns
    | succ turns =>
      have hStart := hFit.start_le
      have hEnd := hFit.end_le
      simp only [cellsBytes_cons] at hEnd
      have hZero : a ≠ 0 := by omega
      have hNext : (h.blocks a).next = a + 16 + c.size := hCells.next_eq
      have hNextZero : a + 16 + c.size ≠ 0 := by omega
      have hSane := heapBlockHeaderIsSane_cell hRange hCells hFit
      have hNextSane := heapBlockHeaderIsSane_cell hRange hCells.2 hFit.tail
      have hUsed : (h.blocks a).used = c.used := by
        rw [hCells.1]
        rfl
      have hSize : (h.blocks a).size = c.size := by
        rw [hCells.1]
        rfl
      have hNextUsed : (h.blocks (a + 16 + c.size)).used = d.used := by
        rw [hCells.2.1]
        rfl
      have hNextSize : (h.blocks (a + 16 + c.size)).size = d.size := by
        rw [hCells.2.1]
        rfl
      by_cases hVisited : heapMaxAuditBlocks ≤ visited
      · refine ⟨h.blocks, ?_, ?_, fun x _ => rfl⟩
        · simp [heapMergeLoop, hZero, hNext, hVisited]
        · rw [Nat.sub_eq_zero_of_le hVisited]
          exact hCells
      have hBudget : heapMaxAuditBlocks - visited = heapMaxAuditBlocks - (visited + 1) + 1 := by
        omega
      by_cases hSizes : c.size = 0 ∨ d.size = 0
      · refine ⟨h.blocks, ?_, ?_, fun x _ => rfl⟩
        · have hStop :
              (!heapBlockHeaderIsSane h a ||
                !heapBlockHeaderIsSane h (a + 16 + c.size)) = true := by
            rw [hSane, hNextSane]
            simpa using hSizes
          simp [heapMergeLoop, hZero, hNext, hVisited, hStop]
        · rw [hBudget, mergeCells, if_pos hSizes]
          exact hCells
      have hBothSane :
          (!heapBlockHeaderIsSane h a || !heapBlockHeaderIsSane h (a + 16 + c.size)) = false := by
        rw [hSane, hNextSane]
        simpa using hSizes
      have hAdjacent : u32 (a + heapHeaderSize + (h.blocks a).size) = a + 16 + c.size := by
        rw [hSize, heapHeaderSize_eq, u32_of_lt (by omega)]
      by_cases hFree : c.used = false ∧ d.used = false
      · have hMerged :
            u32 ((h.blocks a).size + heapHeaderSize + (h.blocks (a + 16 + c.size)).size) =
              c.size + 16 + d.size := by
          rw [hSize, hNextSize, heapHeaderSize_eq, u32_of_lt (by omega)]
        have hAbsorbed := hCells.absorb hFree.1
        have hFit' : CellsFit a
              ({ size := c.size + 16 + d.size
                 used := false } :: cs) := by
          refine ⟨hStart, by simp; omega, hFit.aligned, ?_⟩
          intro e he
          rcases List.mem_cons.mp he with hEq | hMem
          · have hc := hFit.sizes c (by simp)
            have hd := hFit.sizes d (by simp)
            simp only [hEq]
            omega
          · exact hFit.sizes e (by simp [hMem])
        rcases ih (h := h.setBlock a _) hRange hAbsorbed hFit' (by simpa using hTurns) visited with
          ⟨blocks, hRun, hMergedCells, hFrame⟩
        refine ⟨blocks, ?_, ?_, ?_⟩
        · rw [heapMergeLoop, if_neg hZero, hNext, if_neg hNextZero, if_neg hVisited, hBothSane,
            hAdjacent, hMerged]
          simpa [hUsed, hNextUsed, hFree.1, hFree.2] using hRun
        · rw [hBudget, mergeCells, if_neg hSizes, if_pos hFree, ← hBudget]
          exact hMergedCells
        · intro x hx
          simp only [cellsBytes_cons] at hFrame hx
          rw [hFrame x (by omega)]
          have hNe : x ≠ a := by omega
          simp [Heap.setBlock, hNe]
      · rcases ih hRange hCells.2 hFit.tail (by simpa using hTurns) (visited + 1) with
          ⟨blocks, hRun, hMergedCells, hFrame⟩
        refine ⟨blocks, ?_, ?_, ?_⟩
        · rw [heapMergeLoop, if_neg hZero, hNext, if_neg hNextZero, if_neg hVisited, hBothSane,
            hAdjacent]
          have hTest : (!c.used && !d.used && (a + 16 + c.size == a + 16 + c.size)) = false := by
            simpa using hFree
          rw [hUsed, hNextUsed, hTest]
          exact hRun
        · rw [hBudget, mergeCells, if_neg hSizes, if_neg hFree]
          refine ⟨?_, hMergedCells⟩
          rw [hFrame a (Or.inl (by omega)), hCells.1]
          simp [mergeCells_ne_nil]
        · intro x hx
          simp only [cellsBytes_cons] at hFrame hx
          exact hFrame x (by omega)

end LiamOS.I386
