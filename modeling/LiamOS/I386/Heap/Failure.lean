import LiamOS.I386.Heap.Tiling
import LiamOS.I386.Vmm

/-
  Failed allocations.

  A `kmalloc` that returns null has left the heap as it was, with one exception: a request that no
  growth can meet, but for which `heap_grow` succeeds. The heap then grows until the pages or the
  range run out. That is the case for the sizes whose page count wraps to one page, and for a list
  so long that the search and the merge pass never come to the new pages.

  Main declarations: `growCells_serving`, `KmallocEnds.blocked`, `failureKeepsHeap_iff`.
-/

namespace LiamOS.I386

open Word

variable {σ : Type}
variable {a budget k p requested : Nat} {c : HeapCell} {cs cs' : List HeapCell}
variable {svc : PageServices σ} {h h' : Heap σ} {blocks : Nat → HeapBlock} {addresses : List Nat}
variable {size stop : Nat}

----------
-- Rounding

theorem alignUp_eight_of_le (hSize : size ≤ 0xFFFFFFF8) :
    size ≤ alignUp size heapAlignment ∧ alignUp size heapAlignment < size + 8 := by
  rw [alignUp_eight, u32_of_lt (by omega)]
  omega

theorem alignUp_eight_of_gt (hSize : 0xFFFFFFF8 < size) (hWord : size < 4294967296) :
    alignUp size heapAlignment = 0 := by
  rw [alignUp_eight]
  unfold u32
  omega

theorem alignUp_eight_self (hSize : size < 4294967296) (hAligned : size % 8 = 0) :
    alignUp size heapAlignment = size := by
  have hBounds := alignUp_eight_of_le (show size ≤ 0xFFFFFFF8 by omega)
  have hMod := alignUp_eight_mod size
  omega

theorem alignUp_eight_lt (size : Nat) : alignUp size heapAlignment < 4294967296 := by
  have hWord := u32_lt (size + 7)
  rw [alignUp_eight]
  omega

/- Rounding a rounded request changes nothing. -/
theorem alignUp_eight_idem (size : Nat) :
    alignUp (alignUp size heapAlignment) heapAlignment = alignUp size heapAlignment :=
  alignUp_eight_self (alignUp_eight_lt size) (alignUp_eight_mod size)

/- The pages required hold the request and its header. -/
theorem heapRequiredPages_covers (hSize : requested + 4111 < 4294967296) :
    requested + 16 ≤ 4096 * heapRequiredPages requested := by
  unfold heapRequiredPages
  dsimp only
  rw [heapHeaderSize_eq, u32_of_lt (by omega), alignUp_page, u32_of_lt (by omega), pmmPageSize]
  split <;> omega

----------
-- Growth That Serves

theorem mergeCells_replicate_free (budget : Nat) (k : Nat) (hSize : c.size ≠ 0)
    (hFree : c.used = false) :
    mergeCells (budget + 1) c (List.replicate k freshCell) =
      [{ size := c.size + 4096 * k, used := false }] := by
  induction k generalizing c with
  | zero =>
    cases c with
    | mk size used =>
      simp only at hFree
      simp [mergeCells, hFree]
  | succ k ih =>
    have hFresh : freshCell.size = 4080 := rfl
    rw [List.replicate_succ, mergeCells, if_neg (by rw [hFresh]; omega),
      if_pos ⟨hFree, rfl⟩, ih (by simp) rfl]
    simp only [hFresh]
    congr 2
    omega

/-
  The new pages join the last cell when it is free and stand behind it when it is used; either way
  one free cell holds them all, within the reach of the next search.
-/
theorem mergeCells_grow (hSizes : ∀ d ∈ c :: cs, d.size ≠ 0) (hCells : Coalesced budget (c :: cs))
    (hPages : k ≠ 0)
    (hReach : cs.length + 1 < budget ∨
        cs.length < budget ∧ ∃ d, (c :: cs).getLast? = some d ∧ d.used = false) :
    ∃ pre big,
      mergeCells budget c (cs ++ List.replicate k freshCell) = pre ++ [big] ∧ pre.length < budget ∧
        big.used = false ∧
        4096 * k ≤ big.size + 16 ∧
        ∀ d ∈ pre, d.size ≠ 0 := by
  induction cs generalizing budget c with
  | nil =>
    have hSize := hSizes c (by simp)
    cases hUsed : c.used with
    | false =>
      cases budget with
      | zero => simp at hReach
      | succ budget =>
        refine ⟨[], ⟨c.size + 4096 * k, false⟩, ?_, by simp, rfl, by simp only; omega, by simp⟩
        simpa using mergeCells_replicate_free budget k hSize hUsed
    | true =>
      match budget, k, hPages with
      | budget + 2, k + 1, _ =>
        have hFresh : freshCell.size = 4080 := rfl
        refine ⟨[c], ⟨4080 + 4096 * k, false⟩, ?_, by simp, rfl, by simp only; omega,
          by simpa using hSize⟩
        rw [List.nil_append, List.replicate_succ, mergeCells, if_neg (by rw [hFresh]; omega),
          if_neg (by simp [hUsed]),
          mergeCells_replicate_free budget k (by rw [hFresh]; omega) rfl]
        rfl
      | 0, _, _ => simp at hReach
      | 1, _, _ => simp [hUsed] at hReach
  | cons d cs ih =>
    cases budget with
    | zero => simp at hReach
    | succ budget =>
      have hc := hSizes c (by simp)
      have hd := hSizes d (by simp)
      rcases hCells with hEmpty | hEmpty | ⟨hUsed, hRest⟩
      · exact absurd hEmpty hc
      · exact absurd hEmpty hd
      · rcases ih
            (fun e he =>
              hSizes e (List.mem_cons_of_mem _ he))
            hRest (by simpa using hReach) with
          ⟨pre, big, hMerge, hLength, hBig, hServes, hPre⟩
        refine ⟨c :: pre, big, ?_, by simpa using hLength, hBig, hServes, ?_⟩
        · have hBoth : ¬ (c.used = false ∧ d.used = false) := by
            rintro ⟨hcFree, hdFree⟩
            simp [hcFree, hdFree] at hUsed
          rw [List.cons_append, mergeCells, if_neg (by omega), if_neg hBoth, hMerge]
          rfl
        · intro e he
          rcases List.mem_cons.mp he with hEq | hMem
          · rw [hEq]
            exact hc
          · exact hPre e hMem

/- A list the search can pass in one walk serves after growth. -/
theorem growCells_serves (hSizes : ∀ d ∈ cs, d.size ≠ 0) (hCells : Coalesced heapMaxAuditBlocks cs)
    (hPages : k ≠ 0)
    (hReach : cs.length < heapMaxAuditBlocks ∨
        cs.length = heapMaxAuditBlocks ∧ ∃ d, cs.getLast? = some d ∧ d.used = false) :
    ∃ pre big, growCells k cs = pre ++ [big] ∧ pre.length < heapMaxAuditBlocks ∧ big.used = false ∧
        4096 * k ≤ big.size + 16 ∧
        ∀ d ∈ pre, d.size ≠ 0 := by
  cases cs with
  | nil =>
    cases k with
    | zero => exact absurd rfl hPages
    | succ k =>
      refine ⟨[], ⟨4080 + 4096 * k, false⟩, ?_, by simp [heapMaxAuditBlocks], rfl,
        by simp only; omega, by simp⟩
      exact mergeCells_replicate_free 4095 k (by simp [freshCell]) rfl
  | cons c cs =>
    refine mergeCells_grow hSizes hCells hPages ?_
    simp only [List.length_cons] at hReach
    rcases hReach with hShort | ⟨hFull, hLast⟩
    · exact Or.inl hShort
    · exact Or.inr ⟨by omega, hLast⟩

----------
-- Growth That Cannot Serve

theorem mergeCells_of_coalesced (hCells : Coalesced budget (c :: cs)) :
    mergeCells budget c cs = c :: cs := by
  induction cs generalizing budget c with
  | nil =>
    cases budget with
    | zero => rfl
    | succ budget => rfl
  | cons d cs ih =>
    cases budget with
    | zero => rfl
    | succ budget =>
      rcases hCells with hEmpty | hEmpty | ⟨hUsed, hRest⟩
      · rw [mergeCells, if_pos (Or.inl hEmpty)]
      · rw [mergeCells, if_pos (Or.inr hEmpty)]
      · have hBoth : ¬ (c.used = false ∧ d.used = false) := by
          rintro ⟨hcFree, hdFree⟩
          simp [hcFree, hdFree] at hUsed
        rw [mergeCells, if_neg hBoth, ih hRest]
        split <;> rfl

/- Cells added out of reach of the merge pass. -/
theorem Coalesced.append (hCells : Coalesced budget cs)
    (hFar : budget < cs.length ∨ cs.length = budget ∧ ∃ d, cs.getLast? = some d ∧ d.used = true)
    (xs : List HeapCell) :
    Coalesced budget (cs ++ xs) := by
  induction cs generalizing budget with
  | nil => simp at hFar
  | cons c cs ih =>
    cases budget with
    | zero => trivial
    | succ budget =>
      cases cs with
      | nil =>
        rcases hFar with hLong | ⟨hFull, d, hLast, hUsed⟩
        · simp at hLong
        · have hBudget : budget = 0 := by simpa using hFull.symm
          have hc : c = d := by simpa using hLast
          subst hBudget
          cases xs with
          | nil => trivial
          | cons x xs => exact Or.inr (Or.inr ⟨Or.inl (hc ▸ hUsed), trivial⟩)
      | cons d cs =>
        rcases hCells with hEmpty | hEmpty | ⟨hUsed, hRest⟩
        · exact Or.inl hEmpty
        · exact Or.inr (Or.inl hEmpty)
        · refine Or.inr (Or.inr ⟨hUsed, ih hRest ?_⟩)
          simpa using hFar

/-
  No cell within the reach of the search serves the request, and new pages come to stand out of
  its reach.
-/
structure Blocked (requested : Nat) (cs : List HeapCell) : Prop where
  skipped : ∀ d ∈ cs.take heapMaxAuditBlocks, d.Skipped requested
  far : heapMaxAuditBlocks < cs.length ∨
      cs.length = heapMaxAuditBlocks ∧ ∃ d, cs.getLast? = some d ∧ d.used = true

theorem Blocked.growCells_eq (hBlocked : Blocked requested cs)
    (hCells : Coalesced heapMaxAuditBlocks cs) :
    growCells k cs = cs ++ List.replicate k freshCell := by
  have hAll := hCells.append hBlocked.far (List.replicate k freshCell)
  cases cs with
  | nil =>
    have hFar := hBlocked.far
    simp [heapMaxAuditBlocks] at hFar
  | cons c cs => exact mergeCells_of_coalesced hAll

theorem Blocked.grow (hBlocked : Blocked requested cs) (hPages : k ≠ 0) :
    Blocked requested (cs ++ List.replicate k freshCell) := by
  have hLong : heapMaxAuditBlocks ≤ cs.length := by
    rcases hBlocked.far with hLong | ⟨hFull, -⟩ <;> omega
  refine ⟨?_, Or.inl ?_⟩
  · rw [List.take_append_of_le_length hLong]
    exact hBlocked.skipped
  · rw [List.length_append, List.length_replicate]
    omega

/- A cell the search found is among the first cells. -/
theorem mem_take_of_split {pre post : List HeapCell} (hBudget : pre.length < budget) :
    c ∈ (pre ++ c :: post).take budget := by
  rw [List.take_append]
  refine List.mem_append_right _ ?_
  have hRest : budget - pre.length = budget - pre.length - 1 + 1 := by omega
  rw [hRest, List.take_succ_cons]
  exact List.mem_cons_self

/- Cells in which the search finds one for the request. -/
structure Serving (requested : Nat) (cs : List HeapCell) : Prop where
  sizes : ∀ d ∈ cs, d.size ≠ 0
  serves : ∃ d ∈ cs.take heapMaxAuditBlocks, ¬ d.Skipped requested

theorem growCells_serving (hSizes : ∀ d ∈ cs, d.size ≠ 0) (hCells : Coalesced heapMaxAuditBlocks cs)
    (hPages : k ≠ 0)
    (hReach : cs.length < heapMaxAuditBlocks ∨
        cs.length = heapMaxAuditBlocks ∧ ∃ d, cs.getLast? = some d ∧ d.used = false)
    (hCovers : requested + 16 ≤ 4096 * k) :
    Serving requested (growCells k cs) := by
  rcases growCells_serves hSizes hCells hPages hReach with
    ⟨pre, big, hGrow, hLength, hFree, hBig, hPre⟩
  rw [hGrow]
  refine ⟨fun d hMem => ?_, big, mem_take_of_split hLength, big.not_skipped hFree (by omega)⟩
  rcases List.mem_append.mp hMem with hOld | hNew
  · exact hPre d hOld
  · rw [List.mem_singleton.mp hNew]
    omega

theorem KmallocEnds.blocked (hEnds : KmallocEnds svc h cs size p h' cs')
    (hCells : Coalesced heapMaxAuditBlocks cs)
    (hBlocked : Blocked (alignUp size heapAlignment) cs) :
    p = 0 := by
  induction hEnds with
  | refused => rfl
  | corrupt => rfl
  | taken pre c post _ _ _ hBudget _ _ hFree hServes =>
    exact absurd (hBlocked.skipped c (mem_take_of_split hBudget)) (c.not_skipped hFree hServes)
  | growFailed => rfl
  | @grown _ cs size _ _ _ g grown _ _ _ _ _ _ _ _ _ ih =>
    have hSame := hBlocked.growCells_eq hCells (k := heapRequiredPages (alignUp size heapAlignment))
    refine ih (mergeAll_coalesced _) ?_
    rw [alignUp_eight_idem, hSame]
    exact hBlocked.grow (heapRequiredPages_pos _)

/- A request larger than the range is never met. -/
theorem KmallocEnds.huge (hEnds : KmallocEnds svc h cs size p h' cs') (hRep : HeapRep h cs)
    (hHuge : 0x1000000 < alignUp size heapAlignment) :
    p = 0 := by
  induction hEnds with
  | refused => rfl
  | corrupt => rfl
  | taken pre c post _ _ _ _ _ _ _ hServes =>
    have hEnd := hRep.fit.mid.end_le
    simp only [cellsBytes_cons] at hEnd
    omega
  | growFailed => rfl
  | grown _ _ _ _ _ _ _ _ _ hGrown _ ih =>
    refine ih hGrown.rep ?_
    rw [alignUp_eight_idem]
    exact hHuge

/- A request of no bytes is refused. -/
theorem KmallocEnds.zero (hEnds : KmallocEnds svc h cs 0 p h' cs') : p = 0 := by
  cases hEnds with
  | refused => rfl
  | corrupt => rfl
  | taken _ _ _ _ hRequest => exact absurd rfl hRequest
  | growFailed => rfl
  | grown _ _ _ hRequest => exact absurd rfl hRequest

----------
-- The Heap After A Failure

/- The block list and the figures a failed allocation must leave alone. -/
structure HeapKept (h h' : Heap σ) : Prop where
  head : h'.head = h.head
  blocks :
    ∀ addresses, BlockList h.blocks h.head addresses → ∀ a ∈ addresses, h'.blocks a = h.blocks a
  nextVirtualPage : h'.stats.nextVirtualPage = h.stats.nextVirtualPage
  totalPages : h'.stats.totalPages = h.stats.totalPages
  usedBytes : h'.stats.usedBytes = h.stats.usedBytes
  freeBytes : h'.stats.freeBytes = h.stats.freeBytes

/- If `kmalloc(size)` returns null, the heap is as it was. -/
def FailureKeepsHeap (svc : PageServices σ) (h : Heap σ) (size : UInt32) : Prop :=
  ∀ h', kmalloc svc h size = some (0, h') → HeapKept h h'

/-
  `kmalloc(size)` grows the heap and cannot be met after all:
  the page count of the rounded request wraps, or the block
  list is too long for the new pages to be found.
-/
structure GrowsInVain (svc : PageServices σ) (h : Heap σ) (addresses : List Nat)
    (size : UInt32) : Prop where
  initialized : h.stats.initialized = true
  request : size ≠ 0
  exhausted :
    kmallocSearch h (alignUp size.toNat heapAlignment) heapMaxAuditBlocks h.head = .exhausted
  grows : ∃ grown, heapGrow svc h (alignUp size.toNat heapAlignment) = some (true, grown)
  hopeless : 0xFFFFEFF0 < size.toNat ∨ heapMaxAuditBlocks < addresses.length ∨
      addresses.length = heapMaxAuditBlocks ∧
        ∃ a, addresses.getLast? = some a ∧ (h.blocks a).used = true

/- A walk along the links is determined by its start. -/
theorem BlockList.unique {as bs : List Nat} (hFirst : BlockList blocks p as)
    (hSecond : BlockList blocks p bs) :
    as = bs := by
  induction as generalizing p bs with
  | nil =>
    cases bs with
    | nil => rfl
    | cons b bs => exact absurd (hFirst ▸ hSecond.1.symm) hSecond.2.1
  | cons a as ih =>
    cases bs with
    | nil => exact absurd (hSecond ▸ hFirst.1.symm) hFirst.2.1
    | cons b bs =>
      have hSame : a = b := by rw [← hFirst.1, ← hSecond.1]
      subst hSame
      rw [ih hFirst.2.2 hSecond.2.2]

theorem cellAddresses_lt : ∀ x ∈ cellAddresses a cs, x < a + cellsBytes cs := by
  induction cs generalizing a with
  | nil => simp [cellAddresses]
  | cons c cs ih =>
    intro x hx
    simp only [cellsBytes_cons]
    rcases List.mem_cons.mp hx with hEq | hMem
    · omega
    · have hLt := ih x hMem
      omega

theorem CellsAt.map_used (hCells : CellsAt blocks stop a cs) :
    (cellAddresses a cs).map (fun x => (blocks x).used) = cs.map HeapCell.used := by
  induction cs generalizing a with
  | nil => rfl
  | cons c cs ih =>
    simp only [cellAddresses, List.map_cons, ih hCells.2]
    rw [hCells.1]
    rfl

/- The flag of the last block is that of the last cell. -/
theorem CellsAt.last_used (hCells : CellsAt blocks stop a cs) (used : Bool) :
    (∃ x, (cellAddresses a cs).getLast? = some x ∧ (blocks x).used = used) ↔
      ∃ d, cs.getLast? = some d ∧ d.used = used := by
  have hLast := congrArg List.getLast? hCells.map_used
  rw [List.getLast?_map, List.getLast?_map] at hLast
  constructor
  · rintro ⟨x, hx, hUsed⟩
    rw [hx, Option.map_some, hUsed] at hLast
    rcases Option.map_eq_some_iff.mp hLast.symm with ⟨d, hd, hFlag⟩
    exact ⟨d, hd, hFlag⟩
  · rintro ⟨d, hd, hUsed⟩
    rw [hd, Option.map_some, hUsed] at hLast
    rcases Option.map_eq_some_iff.mp hLast with ⟨x, hx, hFlag⟩
    exact ⟨x, hx, hFlag⟩

theorem HeapRep.addresses_eq (hRep : HeapRep h cs) (hList : BlockList h.blocks h.head addresses) :
    addresses = cellAddresses 0xC1000000 cs := by
  refine hList.unique ?_
  rw [hRep.head]
  exact hRep.cells.blockList (by norm_num)

/- A failed growth keeps the heap. -/
theorem GrowFailed.kept {failed : Heap σ} (hFailed : GrowFailed h failed) (hRep : HeapRep h cs) :
    HeapKept h failed.countFailedAllocation := by
  have hStats := hFailed.stats
  refine ⟨hFailed.head, ?_, ?_, ?_, ?_, ?_⟩
  · intro addresses hList a ha
    rw [hRep.addresses_eq hList] at ha
    have hLt := cellAddresses_lt a ha
    have hNext := hRep.next
    exact hFailed.below a (by omega)
  · simp [Heap.countFailedAllocation, hStats, Heap.countFailedGrow]
  · simp [Heap.countFailedAllocation, hStats, Heap.countFailedGrow]
  · simp [Heap.countFailedAllocation, hStats, Heap.countFailedGrow]
  · simp [Heap.countFailedAllocation, hStats, Heap.countFailedGrow]

/- An exhausted search passed over every cell in reach. -/
theorem skipped_of_exhausted (hRep : HeapRep h cs)
    (hSearch : kmallocSearch h requested heapMaxAuditBlocks h.head = .exhausted) :
    ∀ d ∈ cs.take heapMaxAuditBlocks, d.Skipped requested := by
  have hEnds := kmallocSearch_cells hRep.range hRep.cells hRep.fit requested heapMaxAuditBlocks
  rw [← hRep.head, hSearch] at hEnds
  cases hEnds with
  | exhausted hAll => exact hAll

theorem GrowsInVain.fails (hReady : HeapReady h cs) (hList : BlockList h.blocks h.head addresses)
    {size : UInt32} (hVain : GrowsInVain svc h addresses size) :
    ∃ h',
      kmalloc svc h size = some (0, h') ∧ h.stats.nextVirtualPage < h'.stats.nextVirtualPage := by
  have hRep := hReady.rep
  have hCells := hReady.coalesced
  have hSkipped := skipped_of_exhausted hRep hVain.exhausted
  have hSize : size.toNat < 4294967296 := size.toNat_lt
  rcases kmalloc_ends svc hRep size with ⟨p, h', cs', hRun, hEnds⟩
  have hRep' := hEnds.rep hRep
  have hRequest : size.toNat ≠ 0 := by
    intro hZero
    exact hVain.request (UInt32.toNat_inj.mp hZero)
  have hHopeless := hVain.hopeless
  rw [hRep.addresses_eq hList, length_cellAddresses, hRep.cells.last_used] at hHopeless
  cases hEnds with
  | refused hRefused =>
    rcases hRefused with hNot | hZero
    · rw [hVain.initialized] at hNot
      exact absurd hNot (by simp)
    · exact absurd hZero hRequest
  | corrupt pre c post _ hBudget _ hEmpty =>
    exact absurd hEmpty (hSkipped c (mem_take_of_split hBudget)).1
  | taken pre c post _ _ _ hBudget _ _ hFree hServes =>
    exact absurd (hSkipped c (mem_take_of_split hBudget)) (c.not_skipped hFree hServes)
  | growFailed failed _ _ hGrow =>
    rcases hVain.grows with ⟨grown, hGrown⟩
    rw [hGrow] at hGrown
    simp at hGrown
  | grown g grown _ _ _ _ _ _ _ hGrown hRest =>
    have hNull : p = 0 := by
      rcases hHopeless with hWrap | hFar
      · by_cases hZero : 0xFFFFFFF8 < size.toNat
        · rw [alignUp_eight_of_gt hZero hSize] at hRest
          exact hRest.zero
        · have hBounds := alignUp_eight_of_le (Nat.le_of_not_lt hZero)
          refine hRest.huge hGrown.rep ?_
          rw [alignUp_eight_idem]
          omega
      · have hBlocked : Blocked (alignUp size.toNat heapAlignment) cs := ⟨hSkipped, hFar⟩
        refine hRest.blocked (mergeAll_coalesced _) ?_
        rw [alignUp_eight_idem, hBlocked.growCells_eq hCells]
        exact hBlocked.grow (heapRequiredPages_pos _)
    subst hNull
    refine ⟨h', hRun, ?_⟩
    have hBytes := hRest.bytes_le
    have hPos := heapRequiredPages_pos (alignUp size.toNat heapAlignment)
    rw [growCells, cellsBytes_mergeAll, cellsBytes_append, cellsBytes_replicate_freshCell] at hBytes
    rw [hRep.next, hRep'.next]
    omega

/- A request is met on cells that serve it. -/
theorem KmallocEnds.met (hEnds : KmallocEnds svc h cs requested p h' cs')
    (hReady : h.stats.initialized = true) (hRequest : requested ≠ 0)
    (hServing : Serving (alignUp requested heapAlignment) cs) :
    p ≠ 0 := by
  obtain ⟨d, hMem, hNot⟩ := hServing.serves
  cases hEnds with
  | refused hRefused =>
    rcases hRefused with hOff | hZero
    · rw [hReady] at hOff
      cases hOff
    · exact absurd hZero hRequest
  | corrupt pre c post _ _ _ hEmpty => exact absurd hEmpty (hServing.sizes c (by simp))
  | taken => omega
  | growFailed _ _ hAll => exact absurd (hAll d hMem) hNot
  | grown _ _ _ _ _ hAll => exact absurd (hAll d hMem) hNot

/- A growth that is not in vain serves the request. -/
theorem serving_of_not_vain (hReady : HeapReady h cs) (hList : BlockList h.blocks h.head addresses)
    {size : UInt32} (hServes : ¬ GrowsInVain svc h addresses size)
    (hInit : h.stats.initialized = true) (hRequest : size.toNat ≠ 0)
    (hSearch :
      kmallocSearch h (alignUp size.toNat heapAlignment) heapMaxAuditBlocks h.head = .exhausted)
    (hGrows : ∃ grown, heapGrow svc h (alignUp size.toNat heapAlignment) = some (true, grown)) :
    size.toNat ≤ 0xFFFFEFF0 ∧ Serving (alignUp size.toNat heapAlignment)
      (growCells (heapRequiredPages (alignUp size.toNat heapAlignment)) cs) := by
  have hRep := hReady.rep
  have hHopeful :
      ¬ (0xFFFFEFF0 < size.toNat ∨ heapMaxAuditBlocks < addresses.length ∨
        addresses.length = heapMaxAuditBlocks ∧
          ∃ a, addresses.getLast? = some a ∧ (h.blocks a).used = true) := by
    intro hHopeless
    refine hServes ⟨hInit, ?_, hSearch, hGrows, hHopeless⟩
    intro hZero
    exact hRequest (by rw [hZero]; rfl)
  rw [hRep.addresses_eq hList, length_cellAddresses,
    hRep.cells.last_used, not_or, not_or] at hHopeful
  rcases hHopeful with ⟨hSmall, hShort, hLast⟩
  have hLength : cs.length ≤ heapMaxAuditBlocks := Nat.le_of_not_lt hShort
  have hSkipped := skipped_of_exhausted hRep hSearch
  rw [List.take_of_length_le hLength] at hSkipped
  have hBounds := alignUp_eight_of_le (show size.toNat ≤ 0xFFFFFFF8 by omega)
  have hMod := alignUp_eight_mod size.toNat
  refine ⟨Nat.le_of_not_lt hSmall, growCells_serving (fun d hd => (hSkipped d hd).1)
    hReady.coalesced (heapRequiredPages_pos _) ?_ (heapRequiredPages_covers (by omega))⟩
  rcases Nat.lt_or_eq_of_le hLength with hLess | hFull
  · exact Or.inl hLess
  · refine Or.inr ⟨hFull, ?_⟩
    cases hEnd : cs.getLast? with
    | none =>
      rw [List.getLast?_eq_none_iff] at hEnd
      rw [hEnd] at hFull
      simp [heapMaxAuditBlocks] at hFull
    | some d =>
      refine ⟨d, rfl, ?_⟩
      rw [Bool.eq_false_iff]
      exact fun hUsed =>
        hLast ⟨hFull, d, hEnd, hUsed⟩

theorem failureKeepsHeap_iff_of_ready (svc : PageServices σ) (hReady : HeapReady h cs)
    (hList : BlockList h.blocks h.head addresses) (size : UInt32) :
    FailureKeepsHeap svc h size ↔ ¬ GrowsInVain svc h addresses size := by
  have hRep := hReady.rep
  constructor
  · intro hKeeps hVain
    rcases hVain.fails hReady hList with ⟨h', hRun, hMore⟩
    have hSame := (hKeeps h' hRun).nextVirtualPage
    omega
  · intro hServes h' hRun
    rcases kmalloc_ends svc hRep size with ⟨p, h'', cs', hRun', hEnds⟩
    rw [hRun] at hRun'
    simp only [Option.some.injEq, Prod.mk.injEq] at hRun'
    rcases hRun' with ⟨hNull, hSame⟩
    subst hSame
    cases hEnds with
    | refused => exact ⟨rfl, fun _ _ _ _ => rfl, rfl, rfl, rfl, rfl⟩
    | corrupt => exact ⟨rfl, fun _ _ _ _ => rfl, rfl, rfl, rfl, rfl⟩
    | taken => omega
    | growFailed failed _ _ _ hFailed => exact hFailed.kept hRep
    | grown g grown hInit hRequest hSearch _ hGrow _ _
        hGrown hRest =>
        obtain ⟨hSmall, hServing⟩ :=
          serving_of_not_vain hReady hList hServes hInit hRequest hSearch ⟨grown, hGrow⟩
        have hBounds := alignUp_eight_of_le (show size.toNat ≤ 0xFFFFFFF8 by omega)
        refine absurd hNull.symm (hRest.met (by rw [hGrown.initialized]; exact hInit) (by omega) ?_)
        rw [alignUp_eight_idem]
        exact hServing

/-
  In every state of every run, a failed `kmalloc` leaves the heap as it was exactly when the
  request does not grow the heap in vain.
-/
theorem failureKeepsHeap_iff (svc : PageServices σ) (h : Heap σ) (ops : List HeapOp) :
    ∃ h₀ h' addresses,
      heapInitialize svc h = some h₀ ∧ Transition.run (heapStep svc) h₀ ops = some h' ∧
        BlockList h'.blocks h'.head addresses ∧
        ∀ size, FailureKeepsHeap svc h' size ↔ ¬ GrowsInVain svc h' addresses size := by
  rcases heapInitialize_ready svc h with ⟨h₀, hInit, hReady⟩
  rcases Transition.run_total (heapStep_ready svc) hReady ops with ⟨h', hRun, cs, hFinal⟩
  have hList := hFinal.tiled.listed
  exact ⟨h₀, h', _, hInit, hRun, hList, failureKeepsHeap_iff_of_ready svc hFinal hList⟩

/- A machine whose physical memory manager has three pages. -/
def smallPages : PageState :=
  { pmm :=
      { allocationStart := 0x200000
        allocationEnd := 0x203000
        nextFreePage := 0x200000
        allocatedPages := 0
        freeStack := [] }
    memory := fun _ => 0
    directory := 0x100000
    vmm :=
      { initialized := true
        mappedPages := 0
        createdPageTables := 0
        lastMappedVirtualAddress := 0
        lastMappedPhysicalAddress := 0
        failedMapCount := 0
        failedUnmapCount := 0
        remapCount := 0
        invalidMapCount := 0
        missingUnmapCount := 0 } }

/-
  On the small machine a request of 4294963185 bytes returns null after it has grown the heap by a
  page.
-/
theorem kmalloc_null_grows_heap :
    ∃ h₀ h', heapInitialize pageServices (bssHeap smallPages) = some h₀ ∧
        kmalloc pageServices h₀ 0xFFFFEFF1 = some (0, h') ∧
        ¬ HeapKept h₀ h' := by
  have hRun :
      ((heapInitialize pageServices (bssHeap smallPages)).bind fun h₀ =>
        (kmalloc pageServices h₀ 0xFFFFEFF1).map fun r =>
          (r.1, h₀.stats.nextVirtualPage, r.2.stats.nextVirtualPage)) =
        some (0, 0xC1001000, 0xC1002000) := by
    decide +kernel
  rcases Option.bind_eq_some_iff.mp hRun with ⟨h₀, hInit, hRest⟩
  rcases Option.map_eq_some_iff.mp hRest with ⟨⟨p, h'⟩, hMalloc, hFigures⟩
  simp only [Prod.mk.injEq] at hFigures
  rcases hFigures with ⟨hNull, hBefore, hAfter⟩
  subst hNull
  refine ⟨h₀, h', hInit, hMalloc, ?_⟩
  intro hKept
  have hSame := hKept.nextVirtualPage
  omega

end LiamOS.I386
