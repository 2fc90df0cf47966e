import LiamOS.I386.Heap.Audit
import LiamOS.I386.Heap.Failure
import LiamOS.I386.Heap.Mapping

/-
  What a pointer returned by `kmalloc` designates.

  For every size whose rounding does not wrap, the block was free or new, is large enough, leaves
  every used block where it was and keeps a clean audit clean. A size above 0xFFFFFFF8 rounds to a
  request of no bytes, which the first free block of the list serves.

  Main declarations: `KmallocEnds.usedKept`, `KmallocEnds.designated`, `kmallocHonours_iff`.
-/

namespace LiamOS.I386

open Word

variable {σ : Type}
variable {o p : Nat} {c d : HeapCell} {cs cs' : List HeapCell} {svc : PageServices σ}
variable {xs ys : List HeapCell} {a budget k size : Nat} {e : HeapCell} {h h' : Heap σ}

----------
-- Cells By Offset

/- The cell that starts at an offset of the list. -/
inductive CellAt : List HeapCell → Nat → HeapCell → Prop
  | head
      {c : HeapCell}
      {cs : List HeapCell} :
      CellAt (c :: cs) 0 c
  | tail
      {c d : HeapCell}
      {cs : List HeapCell}
      {o : Nat}
      (hRest : CellAt cs o d) :
      CellAt (c :: cs) (16 + c.size + o) d

theorem CellAt.append (hCell : CellAt (xs ++ ys) o d) :
    CellAt xs o d ∨ ∃ o', o = cellsBytes xs + o' ∧ CellAt ys o' d := by
  induction xs generalizing o with
  | nil => exact Or.inr ⟨o, by simp, hCell⟩
  | cons c cs ih =>
    cases hCell with
    | head => exact Or.inl .head
    | tail hRest =>
      rcases ih hRest with hLeft | ⟨o', hEq, hRight⟩
      · exact Or.inl hLeft.tail
      · refine Or.inr ⟨o', ?_, hRight⟩
        rw [hEq, cellsBytes_cons]
        omega

theorem CellAt.left (hCell : CellAt xs o d) (ys : List HeapCell) : CellAt (xs ++ ys) o d := by
  induction hCell with
  | head => exact .head
  | tail _ ih => exact ih.tail

theorem CellAt.right (hCell : CellAt ys o d) (xs : List HeapCell) :
    CellAt (xs ++ ys) (cellsBytes xs + o) d := by
  induction xs with
  | nil => simpa using hCell
  | cons c cs ih =>
    have hTail := ih.tail (c := c)
    rwa [show 16 + c.size + (cellsBytes cs + o) = cellsBytes (c :: cs) + o by
        rw [cellsBytes_cons]; omega] at hTail

/- Used cells stay where they are when free ones merge. -/
theorem CellAt.mergeCells (hCell : CellAt (c :: cs) o d) (hUsed : d.used = true) :
    CellAt (mergeCells budget c cs) o d := by
  fun_induction I386.mergeCells budget c cs generalizing o with
  | case1 => exact hCell
  | case2 => exact hCell
  | case3 => exact hCell
  | case4 budget c e cs hSizes hFree ih =>
    cases hCell with
    | head =>
      rw [hFree.1] at hUsed
      exact absurd hUsed (by simp)
    | tail hRest =>
      cases hRest with
      | head =>
        rw [hFree.2] at hUsed
        exact absurd hUsed (by simp)
      | @tail _ _ _ o' hLater =>
        have hMoved :=
          ih (hLater.tail
            (c :=
              { size := c.size + 16 + e.size
                used := false }))
        rwa [show 16 + (c.size + 16 + e.size) + o' = 16 + c.size + (16 + e.size + o') by
            omega] at hMoved
  | case5 budget c e cs hSizes hFree ih =>
    cases hCell with
    | head => exact .head
    | tail hRest => exact (ih hRest).tail

/- A merged cell starts where a cell of its flag started. -/
theorem CellAt.of_mergeCells (hCell : CellAt (I386.mergeCells budget c cs) o e) :
    ∃ d, CellAt (c :: cs) o d ∧ d.used = e.used := by
  fun_induction I386.mergeCells budget c cs generalizing o with
  | case1 => exact ⟨e, hCell, rfl⟩
  | case2 => exact ⟨e, hCell, rfl⟩
  | case3 => exact ⟨e, hCell, rfl⟩
  | case4 budget c f cs hSizes hFree ih =>
    rcases ih hCell with ⟨d, hMerged, hUsed⟩
    cases hMerged with
    | head => exact ⟨c, .head, by rw [hFree.1]; exact hUsed⟩
    | @tail _ _ _ o' hLater =>
      refine ⟨d, ?_, hUsed⟩
      rw [show 16 + (c.size + 16 + f.size) + o' = 16 + c.size + (16 + f.size + o') by omega]
      exact hLater.tail.tail
  | case5 budget c f cs hSizes hFree ih =>
    cases hCell with
    | head => exact ⟨_, .head, rfl⟩
    | tail hRest =>
      rcases ih hRest with ⟨d, hOld, hUsed⟩
      exact ⟨d, hOld.tail, hUsed⟩

theorem CellAt.growCells (hCell : CellAt cs o d) (hUsed : d.used = true) :
    CellAt (growCells k cs) o d := by
  have hMore := hCell.left (List.replicate k freshCell)
  unfold I386.growCells mergeAll
  cases hList : cs ++ List.replicate k freshCell with
  | nil =>
    rw [hList] at hMore
    exact hMore
  | cons c rest =>
    rw [hList] at hMore
    exact hMore.mergeCells hUsed

/- A cell after growth starts at an old cell or behind them. -/
theorem CellAt.of_growCells (hCell : CellAt (I386.growCells k cs) o e) :
    (∃ d, CellAt cs o d ∧ d.used = e.used) ∨ cellsBytes cs ≤ o := by
  have hOld : ∃ d, CellAt (cs ++ List.replicate k freshCell) o d ∧ d.used = e.used := by
    unfold I386.growCells mergeAll at hCell
    cases hList : cs ++ List.replicate k freshCell with
    | nil =>
      rw [hList] at hCell
      exact ⟨e, hCell, rfl⟩
    | cons c rest =>
      rw [hList] at hCell
      exact hCell.of_mergeCells
  rcases hOld with ⟨d, hAt, hUsed⟩
  rcases hAt.append with hLeft | ⟨o', hEq, -⟩
  · exact Or.inl ⟨d, hLeft, hUsed⟩
  · exact Or.inr (by omega)

theorem CellAt.end_le (hCell : CellAt cs o d) : o + 16 + d.size ≤ cellsBytes cs := by
  induction hCell with
  | head =>
    simp only [cellsBytes_cons]
    omega
  | tail _ ih =>
    simp only [cellsBytes_cons]
    omega

----------
-- Cells And Block Lists

theorem CellAt.mem_addresses (hCell : CellAt cs o d) (a : Nat) : a + o ∈ cellAddresses a cs := by
  induction hCell generalizing a with
  | head => simp [cellAddresses]
  | @tail c _ _ o _ ih =>
    have hMem := ih (a + 16 + c.size)
    rw [show a + (16 + c.size + o) = a + 16 + c.size + o by omega]
    exact List.mem_cons_of_mem _ hMem

theorem CellAt.of_mem_addresses {x : Nat} (hMem : x ∈ cellAddresses a cs) :
    ∃ o d, x = a + o ∧ CellAt cs o d := by
  induction cs generalizing a with
  | nil => simp [cellAddresses] at hMem
  | cons c cs ih =>
    rcases List.mem_cons.mp hMem with hEq | hRest
    · exact ⟨0, c, hEq, .head⟩
    · rcases ih hRest with ⟨o, d, hEq, hCell⟩
      refine ⟨16 + c.size + o, d, ?_, hCell.tail⟩
      omega

theorem CellAt.header {blocks : Nat → HeapBlock} {stop : Nat} (hCell : CellAt cs o d)
    (hCells : CellsAt blocks stop a cs) :
    (blocks (a + o)).size = d.size ∧ (blocks (a + o)).used = d.used := by
  induction hCell generalizing a with
  | head =>
    rw [Nat.add_zero, hCells.1]
    exact ⟨rfl, rfl⟩
  | @tail c _ _ o _ ih =>
    rw [show a + (16 + c.size + o) = a + 16 + c.size + o by omega]
    exact ih hCells.2

----------
-- Allocations On Cells

/- An allocation moves no used cell. -/
theorem KmallocEnds.usedKept (hEnds : KmallocEnds svc h cs size p h' cs') (hCell : CellAt cs o d)
    (hUsed : d.used = true) :
    CellAt cs' o d := by
  induction hEnds with
  | refused => exact hCell
  | corrupt => exact hCell
  | @taken h size pre c post _ _ _ _ _ _ hFree _ =>
    rcases hCell.append with hLeft | ⟨o', hEq, hRight⟩
    · exact hLeft.left _
    · rw [hEq]
      cases hRight with
      | head =>
        rw [hFree] at hUsed
        exact absurd hUsed (by simp)
      | tail hPost =>
        have hMoved := (hPost.right (takeCell (alignUp size heapAlignment) c)).right pre
        rwa [cellsBytes_takeCell] at hMoved
  | growFailed => exact hCell
  | grown _ _ _ _ _ _ _ _ _ _ _ ih => exact ih (hCell.growCells hUsed)

/-
  The cell a pointer designates is used and serves the request, and it starts at a cell that was
  free or behind the cells there were.
-/
theorem KmallocEnds.designated (hEnds : KmallocEnds svc h cs size p h' cs') (hSome : p ≠ 0) :
    ∃ o e, p = 0xC1000000 + o + 16 ∧ CellAt cs' o e ∧ e.used = true ∧
        alignUp size heapAlignment ≤ e.size ∧
        ((∃ d, CellAt cs o d ∧ d.used = false) ∨ cellsBytes cs ≤ o) := by
  induction hEnds with
  | refused => exact absurd rfl hSome
  | corrupt => exact absurd rfl hSome
  | @taken h size pre c post _ _ _ _ _ _ hFree hServes =>
    refine ⟨cellsBytes pre, ⟨splitSize (alignUp size heapAlignment) c, true⟩, rfl,
      ?_, rfl, splitSize_ge hServes, Or.inl ⟨c, ?_, hFree⟩⟩
    · simpa [takeCell] using
        (CellAt.head : CellAt (takeCell (alignUp size heapAlignment) c ++ post) 0 _).right pre
    · simpa using (CellAt.head : CellAt (c :: post) 0 c).right pre
  | growFailed => exact absurd rfl hSome
  | grown _ _ _ _ _ _ _ _ _ _ _ ih =>
    rcases ih hSome with ⟨o, e, hPointer, hCell, hUsed, hServes, hWas⟩
    rw [alignUp_eight_idem] at hServes
    refine ⟨o, e, hPointer, hCell, hUsed, hServes, ?_⟩
    rcases hWas with ⟨d, hAt, hFree⟩ | hNew
    · rcases hAt.of_growCells with ⟨d', hOld, hSame⟩ | hBehind
      · exact Or.inl ⟨d', hOld, by rw [hSame, hFree]⟩
      · exact Or.inr hBehind
    · rw [growCells, cellsBytes_mergeAll, cellsBytes_append] at hNew
      exact Or.inr (by omega)

theorem growCells_sizes_ne_zero (k : Nat) (hSizes : ∀ d ∈ cs, d.size ≠ 0) :
    ∀ d ∈ growCells k cs, d.size ≠ 0 := by
  have hAll : ∀ d ∈ cs ++ List.replicate k freshCell, d.size ≠ 0 := by
    intro d hd
    rcases List.mem_append.mp hd with hOld | hNew
    · exact hSizes d hOld
    · rw [List.eq_of_mem_replicate hNew]
      simp [freshCell]
  unfold growCells mergeAll
  cases hList : cs ++ List.replicate k freshCell with
  | nil => simp
  | cons c rest =>
    rw [hList] at hAll
    exact mergeCells_forall (P := fun n => n ≠ 0) (fun x y _ _ => by omega) _ c rest hAll

theorem takeCell_sizes_ne_zero {requested : Nat} (hRequest : requested ≠ 0) (hSize : c.size ≠ 0) :
    ∀ d ∈ takeCell requested c, d.size ≠ 0 := by
  unfold takeCell splitSize splitRest
  by_cases hWhole : c.size ≤ requested + 32
  · simpa [hWhole] using hSize
  · simp [hWhole, hRequest]
    omega

/- A request that does not wrap leaves no empty payload. -/
theorem KmallocEnds.sizes (hEnds : KmallocEnds svc h cs size p h' cs') (hSize : size ≤ 0xFFFFFFF8)
    (hSizes : ∀ d ∈ cs, d.size ≠ 0) :
    ∀ d ∈ cs', d.size ≠ 0 := by
  induction hEnds with
  | refused => exact hSizes
  | corrupt => exact hSizes
  | taken pre c post _ hRequest _ _ _ hFound _ _ =>
    have hRounded := alignUp_eight_of_le hSize
    intro d hd
    simp only [List.mem_append] at hd
    rcases hd with hPre | hTaken | hPost
    · exact hSizes d (by simp [hPre])
    · exact takeCell_sizes_ne_zero (by omega) hFound d hTaken
    · exact hSizes d (by simp [hPost])
  | growFailed => exact hSizes
  | @grown _ _ size _ _ _ _ _ _ _ _ _ _ _ _ _ _ ih =>
    have hRounded := alignUp_eight_of_le hSize
    have hWord := alignUp_eight_lt size
    have hMod := alignUp_eight_mod size
    exact ih (by omega) (growCells_sizes_ne_zero _ hSizes)

theorem KmallocEnds.counted (hEnds : KmallocEnds svc h cs size p h' cs') (hRep : HeapRep h cs)
    (hSome : p ≠ 0) :
    HeapCounted h' cs' := by
  induction hEnds with
  | refused => exact absurd rfl hSome
  | corrupt => exact absurd rfl hSome
  | taken pre c post _ _ _ _ _ hSize _ hServes =>
    exact (kmallocTake_rep hRep hSize hServes (alignUp_eight_mod _)).2
  | growFailed => exact absurd rfl hSome
  | grown _ _ _ _ _ _ _ _ _ hGrown _ ih => exact ih hGrown.rep hSome

----------
-- The Request

/- A pointer `p` returned for `size`, with the block lists before and after the call. -/
structure RequestHonoured (svc : PageServices σ) (h : Heap σ) (before : List Nat) (size : UInt32)
    (p : Nat) (h' : Heap σ) (after : List Nat) : Prop where
  designated : ∃ block, p = block + 16 ∧ block ∈ after ∧ (h'.blocks block).used = true ∧
        size.toNat ≤ (h'.blocks block).size ∧
        ((block ∈ before ∧ (h.blocks block).used = false) ∨ h.stats.nextVirtualPage ≤ block)
  aligned : p % 8 = 0
  others : ∀ a ∈ before, (h.blocks a).used = true →
      a ∈ after ∧ (h'.blocks a).size = (h.blocks a).size ∧ (h'.blocks a).used = true
  audit : (∃ audited, heapAudit svc h = some (0, audited)) → after.length < heapMaxAuditBlocks →
      ∃ audited, heapAudit svc h' = some (0, audited)

/- Every non-null result of `kmalloc(size)` is honoured. -/
def KmallocHonours (svc : PageServices σ) (h : Heap σ) (size : UInt32) : Prop :=
  ∀ p h' before after,
    kmalloc svc h size = some (p, h') → p ≠ 0 → BlockList h.blocks h.head before →
      BlockList h'.blocks h'.head after →
      RequestHonoured svc h before size p h' after

/- A size that rounds to zero and a block for a request of no bytes. -/
structure WrappedRequestServed (h : Heap σ) (size : UInt32) : Prop where
  wraps : 0xFFFFFFF8 < size.toNat
  initialized : h.stats.initialized = true
  found : ∃ block, kmallocSearch h 0 heapMaxAuditBlocks h.head = .found block

/- A request that does not wrap is honoured. -/
theorem KmallocEnds.honoured {h h' : Heap PageState} {size : UInt32}
    (hEnds : KmallocEnds pageServices h cs size.toNat p h' cs') (hRep : HeapRep h cs)
    (hSep : h.pages.Separate []) (hSize : size.toNat ≤ 0xFFFFFFF8) (hSome : p ≠ 0) :
    RequestHonoured pageServices h (cellAddresses 0xC1000000 cs) size p h'
      (cellAddresses 0xC1000000 cs') := by
  have hRep' := hEnds.rep hRep
  have hRounded := alignUp_eight_of_le hSize
  rcases hEnds.designated hSome with ⟨o, e, hPointer, hCell, hUsed, hServes, hWas⟩
  have hMem := hCell.mem_addresses 0xC1000000
  have hHeader := hCell.header hRep'.cells
  have hAligned := hRep'.fit.addresses_aligned _ hMem
  refine ⟨⟨0xC1000000 + o, hPointer, hMem, ?_, ?_, ?_⟩, ?_, ?_, ?_⟩
  · rw [hHeader.2, hUsed]
  · rw [hHeader.1]
    omega
  · rcases hWas with ⟨d, hAt, hFree⟩ | hNew
    · refine Or.inl ⟨hAt.mem_addresses _, ?_⟩
      rw [(hAt.header hRep.cells).2, hFree]
    · refine Or.inr ?_
      rw [hRep.next]
      omega
  · omega
  · intro a ha haUsed
    rcases CellAt.of_mem_addresses ha with ⟨o', d, hEq, hAt⟩
    subst hEq
    have hOld := hAt.header hRep.cells
    rw [hOld.2] at haUsed
    have hKept := hEnds.usedKept hAt haUsed
    have hNew := hKept.header hRep'.cells
    exact ⟨hKept.mem_addresses _, by rw [hNew.1, hOld.1], by rw [hNew.2, haUsed]⟩
  · rw [heapAudit_zero_iff pageServices hRep, heapAudit_zero_iff pageServices hRep',
      length_cellAddresses]
    intro hClean hLength
    rcases hEnds.mapped hRep hSep hSome with ⟨hKept, hFresh⟩
    refine ⟨?_, hEnds.sizes hSize hClean.sizes, Nat.le_of_lt hLength, ?_, hEnds.counted hRep hSome⟩
    · rw [hEnds.initialized]
      exact hClean.initialized
    · intro j hj
      by_cases hOld : 4096 * j < cellsBytes cs
      · exact hKept _ (hClean.mapped j hOld)
      · exact hFresh j (by omega) hj

/- A wrapped request is met only by a block found at once. -/
theorem KmallocEnds.wrapped {size : UInt32} (hEnds : KmallocEnds svc h cs size.toNat p h' cs')
    (hWrap : 0xFFFFFFF8 < size.toNat) :
    p ≠ 0 ↔ WrappedRequestServed h size := by
  have hZero := alignUp_eight_of_gt hWrap (UInt32.toNat_lt size)
  cases hEnds with
  | refused hRefused =>
    refine ⟨fun hSome => absurd rfl hSome, ?_⟩
    intro hServed
    rcases hRefused with hNot | hNone
    · rw [hServed.initialized] at hNot
      exact absurd hNot (by simp)
    · omega
  | corrupt _ _ _ hSearch =>
    refine ⟨fun hSome => absurd rfl hSome, ?_⟩
    rintro ⟨-, -, block, hFound⟩
    rw [hZero, hFound] at hSearch
    exact absurd hSearch (by simp)
  | taken pre c post hInit _ hSearch =>
    rw [hZero] at hSearch
    exact ⟨fun _ => ⟨hWrap, hInit, _, hSearch⟩, fun _ => by omega⟩
  | growFailed _ hSearch =>
    refine ⟨fun hSome => absurd rfl hSome, ?_⟩
    rintro ⟨-, -, block, hFound⟩
    rw [hZero, hFound] at hSearch
    exact absurd hSearch (by simp)
  | grown g grown _ _ hSearch _ _ _ _ _ hRest =>
    rw [hZero] at hRest hSearch
    refine ⟨fun hSome => absurd hRest.zero hSome, ?_⟩
    rintro ⟨-, -, block, hFound⟩
    rw [hFound] at hSearch
    exact absurd hSearch (by simp)

theorem kmallocHonours_iff_of_ready {h : Heap PageState} (hRep : HeapRep h cs)
    (hSep : h.pages.Separate []) (size : UInt32) :
    KmallocHonours pageServices h size ↔ ¬ WrappedRequestServed h size := by
  rcases kmalloc_ends pageServices hRep size with ⟨p, h', cs', hRun, hEnds⟩
  have hRep' := hEnds.rep hRep
  have hBefore := hRep.cells.blockList (by norm_num)
  have hAfter := hRep'.cells.blockList (by norm_num)
  rw [← hRep.head] at hBefore
  rw [← hRep'.head] at hAfter
  constructor
  · intro hHonours hServed
    have hSome := (hEnds.wrapped hServed.wraps).mpr hServed
    rcases (hHonours p h' _ _ hRun hSome hBefore hAfter).designated with
      ⟨block, -, hMem, -, hServes, -⟩
    rcases CellAt.of_mem_addresses hMem with ⟨o, d, hEq, hAt⟩
    subst hEq
    rw [(hAt.header hRep'.cells).1] at hServes
    have hWraps := hServed.wraps
    have hInside := hAt.end_le
    have hEnd := hRep'.fit.end_le
    omega
  · intro hNot p₁ h₁ before after hRun₁ hSome hList hList'
    rw [hRun] at hRun₁
    simp only [Option.some.injEq, Prod.mk.injEq] at hRun₁
    rcases hRun₁ with ⟨hp, hh⟩
    subst hp
    subst hh
    rw [hList.unique hBefore, hList'.unique hAfter]
    refine hEnds.honoured hRep hSep ?_ hSome
    by_contra hLarge
    exact hNot ((hEnds.wrapped (Nat.lt_of_not_le hLarge)).mp hSome)

----------
-- Runs Over The Memory Managers

/- A heap of cells over managers that keep pages apart. -/
structure HeapSound (h : Heap PageState) : Prop where
  cells : ∃ cs, HeapReady h cs
  separate : h.pages.Separate []

theorem heapStep_sound (h : Heap PageState) (op : HeapOp) (hSound : HeapSound h) :
    ∃ h', heapStep pageServices h op = some h' ∧ HeapSound h' := by
  rcases heapStep_ready pageServices h op hSound.cells with ⟨h', hStep, hReady⟩
  rcases hSound.cells with ⟨cs, hRep, -⟩
  exact ⟨h', hStep, hReady, heapStep_keeps growKeeps_separate hRep hSound.separate hStep⟩

/-
  From a boot state in which the page directory and its tables are not pages the physical memory
  manager can hand out, in every state of every run of the heap: what `kmalloc(size)` returns is
  as requested exactly when the size does not wrap to a request that some block serves.
-/
theorem kmallocHonours_iff (h : Heap PageState) (hBoot : h.pages.Separate []) (ops : List HeapOp) :
    ∃ h₀ h', heapInitialize pageServices h = some h₀ ∧
        Transition.run (heapStep pageServices) h₀ ops = some h' ∧
        ∀ size, KmallocHonours pageServices h' size ↔ ¬ WrappedRequestServed h' size := by
  rcases heapInitialize_ready pageServices h with ⟨h₀, hInit, hReady⟩
  have hSound : HeapSound h₀ := ⟨hReady, heapInitialize_keeps growKeeps_separate hBoot hInit⟩
  rcases Transition.run_total heapStep_sound hSound ops with ⟨h', hRun, ⟨cs, hRep, -⟩, hSep⟩
  exact ⟨h₀, h', hInit, hRun, kmallocHonours_iff_of_ready hRep hSep⟩

/- On the small machine no page in use is on offer. -/
theorem smallPages_separate : smallPages.Separate [] := by
  have hNone : ∀ w, ¬ smallPages.HasTable w := by
    intro w hw
    exact absurd hw (by simp [PageState.HasTable, smallPages, entryPresent])
  refine ⟨⟨rfl, by decide, by simp [smallPages],
    by simp [smallPages], by simp [smallPages]⟩, rfl, ?_,
    fun w hw => absurd hw (hNone w),
    fun w hw => absurd hw (hNone w), by simp, by simp,
    by simp⟩
  rintro (hStack | ⟨-, hLe⟩)
  · simp [smallPages] at hStack
  · simp [smallPages] at hLe

theorem kmallocHonours_iff_small :
    ∃ h₀ h', heapInitialize pageServices (bssHeap smallPages) = some h₀ ∧
        Transition.run (heapStep pageServices) h₀ [.kmalloc 100, .kfree 0xC1000010] = some h' ∧
        ∀ size, KmallocHonours pageServices h' size ↔ ¬ WrappedRequestServed h' size :=
  kmallocHonours_iff (bssHeap smallPages) smallPages_separate [.kmalloc 100, .kfree 0xC1000010]

/-
  On the small machine a request of 4294967289 bytes returns the first block with a payload of no
  bytes.
-/
theorem kmalloc_wrapped_size : ∃ h₀ h', heapInitialize pageServices (bssHeap smallPages) = some h₀ ∧
        kmalloc pageServices h₀ 0xFFFFFFF9 = some (0xC1000010, h') ∧
        (h'.blocks 0xC1000000).size = 0 ∧
        ¬ KmallocHonours pageServices h₀ 0xFFFFFFF9 := by
  have hRun :
      ((heapInitialize pageServices (bssHeap smallPages)).bind fun h₀ =>
        (kmalloc pageServices h₀ 0xFFFFFFF9).map fun r =>
          (r.1, (r.2.blocks 0xC1000000).size)) =
        some (0xC1000010, 0) := by
    decide +kernel
  rcases Option.bind_eq_some_iff.mp hRun with ⟨h₀, hInit, hRest⟩
  rcases Option.map_eq_some_iff.mp hRest with ⟨⟨p, h'⟩, hMalloc, hFigures⟩
  simp only [Prod.mk.injEq] at hFigures
  rcases hFigures with ⟨hPointer, hSize⟩
  subst hPointer
  refine ⟨h₀, h', hInit, hMalloc, hSize, ?_⟩
  intro hHonours
  rcases heapInitialize_ready pageServices (bssHeap smallPages) with ⟨h₁, hInit₁, cs, hReady⟩
  rw [hInit] at hInit₁
  rw [← Option.some.inj hInit₁] at hReady
  rcases heapStep_ready pageServices h₀ (.kmalloc 0xFFFFFFF9) ⟨cs, hReady⟩ with
    ⟨h₂, hStep, cs₂, hReady₂⟩
  simp only [heapStep, hMalloc, Option.map_some, Option.some.injEq] at hStep
  rw [← hStep] at hReady₂
  rcases (hHonours _ _ _ _ hMalloc (by norm_num) hReady.tiled.listed
      hReady₂.tiled.listed).designated with
    ⟨block, hBlock, -, -, hServes, -⟩
  have hEq : block = 0xC1000000 := by omega
  rw [hEq, hSize] at hServes
  exact absurd hServes (by decide)

end LiamOS.I386
