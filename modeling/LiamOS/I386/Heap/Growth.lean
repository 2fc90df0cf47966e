import LiamOS.I386.Heap.Failure

/-
  How often one call of `kmalloc` grows the heap.

  After a growth `kmalloc` calls itself with the rounded size. If the search of that call finds a
  block, one growth was enough; otherwise it grows again.

  Main declarations: `oneGrowth_iff`.
-/

namespace LiamOS.I386

open Word

variable {σ : Type}
variable {svc : PageServices σ} {h : Heap σ} {cs : List HeapCell} {requested : Nat}

/-
  One growth suffices: the retried search finds a block that serves, the call nests once at most,
  and no more pages are added than the request needs.
-/
structure OneGrowth (svc : PageServices σ) (h : Heap σ) (size : UInt32) : Prop where
  retry : ∀ grown, h.stats.initialized = true →
      kmallocSearch h (alignUp size.toNat heapAlignment) heapMaxAuditBlocks h.head = .exhausted →
      heapGrow svc h (alignUp size.toNat heapAlignment) = some (true, grown) →
      ∃ block,
        kmallocSearch grown (alignUp size.toNat heapAlignment) heapMaxAuditBlocks grown.head =
          .found block ∧
        (grown.blocks block).used = false ∧
        alignUp size.toNat heapAlignment ≤ (grown.blocks block).size
  depth : ∃ result, kmallocLoop svc 2 h size.toNat = some result ∧ kmalloc svc h size = some result
  pages : ∀ p h', kmalloc svc h size = some (p, h') → h'.stats.totalPages ≤
        h.stats.totalPages + (alignUp size.toNat heapAlignment + 16 + 4095) / 4096

----------
-- The Retried Search

/- A growth that was seen to succeed leaves the grown cells. -/
theorem heapGrow_grown {grown : Heap σ} {m : Nat} (hRep : HeapRep h cs)
    (hGrow : heapGrow svc h m = some (true, grown)) :
    ∃ g, Grown h cs (heapRequiredPages m) g grown := by
  rcases heapGrow_rep hRep svc m with ⟨failed, hFailed, -⟩ | ⟨g, grown', hGrow', -, -, hGrown⟩
  · rw [hGrow] at hFailed
    exact absurd hFailed (by simp)
  · rw [hGrow] at hGrow'
    simp only [Option.some.injEq, Prod.mk.injEq, true_and] at hGrow'
    rw [hGrow']
    exact ⟨g, hGrown⟩

/- A block the search found serves the request. -/
theorem found_serves {block : Nat} (hRep : HeapRep h cs)
    (hSearch : kmallocSearch h requested heapMaxAuditBlocks h.head = .found block) :
    (∃ d ∈ cs.take heapMaxAuditBlocks, ¬ d.Skipped requested) ∧ (h.blocks block).used = false ∧
      requested ≤ (h.blocks block).size := by
  have hEnds := kmallocSearch_cells hRep.range hRep.cells hRep.fit requested heapMaxAuditBlocks
  rw [← hRep.head, hSearch] at hEnds
  cases hEnds with
  | found pre c post hSplit hBudget hPre hSize hFree hServes =>
    subst hSplit
    rw [hRep.cells.header_mid]
    exact ⟨⟨c, mem_take_of_split hBudget, c.not_skipped hFree hServes⟩, hFree, hServes⟩

theorem retry_found (hRep : HeapRep h cs) (hServing : Serving requested cs) :
    ∃ block, kmallocSearch h requested heapMaxAuditBlocks h.head = .found block := by
  obtain ⟨d, hMem, hNot⟩ := hServing.serves
  have hEnds := kmallocSearch_cells hRep.range hRep.cells hRep.fit requested heapMaxAuditBlocks
  rw [← hRep.head] at hEnds
  generalize kmallocSearch h requested heapMaxAuditBlocks h.head = outcome at hEnds
  cases hEnds with
  | found => exact ⟨_, rfl⟩
  | corrupt pre c post hSplit _ _ hEmpty =>
    exact absurd hEmpty (hServing.sizes c (by rw [hSplit]; simp))
  | exhausted hAll => exact absurd (hAll d hMem) hNot

----------
-- Depth

/-
  If the retried search always finds a block, two turns give the result of any larger number of
  turns.
-/
theorem kmallocLoop_two {size : Nat}
    (hRetry : ∀ grown, h.stats.initialized = true →
        kmallocSearch h (alignUp size heapAlignment) heapMaxAuditBlocks h.head = .exhausted →
        heapGrow svc h (alignUp size heapAlignment) = some (true, grown) →
        ∃ block, kmallocSearch grown (alignUp size heapAlignment) heapMaxAuditBlocks grown.head =
            .found block)
    (turns : Nat) :
    kmallocLoop svc (turns + 2) h size = kmallocLoop svc 2 h size := by
  by_cases hRefused : h.stats.initialized = false ∨ size = 0
  · rw [kmallocLoop, if_pos hRefused, kmallocLoop, if_pos hRefused]
  have hInit : h.stats.initialized = true := by simpa using (not_or.mp hRefused).1
  rw [kmallocLoop, if_neg hRefused, kmallocLoop, if_neg hRefused]
  dsimp only
  cases hSearch : kmallocSearch h (alignUp size heapAlignment) heapMaxAuditBlocks h.head with
  | found block => rfl
  | corrupt => rfl
  | exhausted =>
    dsimp only
    rcases hGrow : heapGrow svc h (alignUp size heapAlignment) with _ | ⟨_ | _, grown⟩
    · rfl
    · rfl
    · rcases hRetry grown hInit hSearch hGrow with ⟨block, hFound⟩
      dsimp only
      rw [kmallocLoop, kmallocLoop]
      dsimp only
      rw [alignUp_eight_idem, hFound]

----------
-- Pages

theorem heapRequiredPages_small (hSmall : requested ≤ 65520) :
    heapRequiredPages requested = (requested + 16 + 4095) / 4096 := by
  unfold heapRequiredPages
  dsimp only
  rw [heapHeaderSize_eq, u32_of_lt (by omega), alignUp_page, u32_of_lt (by omega), pmmPageSize]
  split <;> omega

/- Cells added by a call whose retry finds a block. -/
theorem KmallocEnds.bytes_of_retry {h' : Heap σ} {cs' : List HeapCell} {size p : Nat}
    (hEnds : KmallocEnds svc h cs size p h' cs')
    (hRetry : ∀ grown, h.stats.initialized = true →
        kmallocSearch h (alignUp size heapAlignment) heapMaxAuditBlocks h.head = .exhausted →
        heapGrow svc h (alignUp size heapAlignment) = some (true, grown) →
        ∃ block, kmallocSearch grown (alignUp size heapAlignment) heapMaxAuditBlocks grown.head =
            .found block) :
    cellsBytes cs' ≤ cellsBytes cs + 4096 * heapRequiredPages (alignUp size heapAlignment) := by
  cases hEnds with
  | refused => omega
  | corrupt => omega
  | taken pre c post =>
    simp only [cellsBytes_append, cellsBytes_takeCell, cellsBytes_cons]
    omega
  | growFailed => omega
  | grown g grown hInit _ hSearch _ hGrow _ _ _ hRest =>
    rcases hRetry grown hInit hSearch hGrow with ⟨block, hFound⟩
    rw [← alignUp_eight_idem size] at hFound
    have hSame : cellsBytes cs' =
          cellsBytes (growCells (heapRequiredPages (alignUp size heapAlignment)) cs) := by
      generalize growCells (heapRequiredPages (alignUp size heapAlignment)) cs = cells at hRest ⊢
      cases hRest with
      | refused => rfl
      | corrupt => rfl
      | taken pre c post => simp only [cellsBytes_append, cellsBytes_takeCell, cellsBytes_cons]
      | growFailed => rfl
      | grown _ _ _ _ hAgain =>
        rw [hFound] at hAgain
        exact absurd hAgain (by simp)
    rw [hSame, growCells, cellsBytes_mergeAll, cellsBytes_append, cellsBytes_replicate_freshCell]

----------
-- Every Run

theorem oneGrowth_of_retry (hRep : HeapRep h cs) {size : UInt32} (hHigh : size.toNat ≤ 65520)
    (hRetry : ∀ grown, h.stats.initialized = true →
        kmallocSearch h (alignUp size.toNat heapAlignment) heapMaxAuditBlocks h.head = .exhausted →
        heapGrow svc h (alignUp size.toNat heapAlignment) = some (true, grown) →
        ∃ block,
          kmallocSearch grown (alignUp size.toNat heapAlignment) heapMaxAuditBlocks grown.head =
            .found block) :
    OneGrowth svc h size := by
  rcases kmalloc_ends svc hRep size with ⟨p, h', cs', hRun, hEnds⟩
  refine ⟨?_, ⟨(p, h'), ?_, hRun⟩, ?_⟩
  · intro grown hInit hSearch hGrow
    rcases heapGrow_grown hRep hGrow with ⟨g, hGrown⟩
    rcases hRetry grown hInit hSearch hGrow with ⟨block, hFound⟩
    exact ⟨block, hFound, (found_serves hGrown.rep hFound).2⟩
  · rw [← hRun]
    exact (kmallocLoop_two hRetry 4096).symm
  · intro p₁ h₁ hRun₁
    rw [hRun] at hRun₁
    simp only [Option.some.injEq, Prod.mk.injEq] at hRun₁
    rw [← hRun₁.2]
    have hBytes := hEnds.bytes_of_retry hRetry
    have hBounds := alignUp_eight_of_le (show size.toNat ≤ 0xFFFFFFF8 by omega)
    have hMod := alignUp_eight_mod size.toNat
    rw [heapRequiredPages_small (by omega)] at hBytes
    have hBefore := hRep.pages
    have hAfter := (hEnds.rep hRep).pages
    omega

theorem oneGrowth_iff_of_ready (svc : PageServices σ) (hReady : HeapReady h cs)
    {addresses : List Nat} (hList : BlockList h.blocks h.head addresses) {size : UInt32}
    (hLow : 1 ≤ size.toNat) (hHigh : size.toNat ≤ 65520) :
    OneGrowth svc h size ↔ ¬ GrowsInVain svc h addresses size := by
  have hRep := hReady.rep
  constructor
  · intro hOne hVain
    rcases hVain.grows with ⟨grown, hGrow⟩
    rcases hOne.retry grown hVain.initialized hVain.exhausted hGrow with ⟨block, hFound, -⟩
    rcases heapGrow_grown hRep hGrow with ⟨g, hGrown⟩
    rcases found_serves hGrown.rep hFound with ⟨⟨d, hMem, hNot⟩, -⟩
    have hHopeless := hVain.hopeless
    rw [hRep.addresses_eq hList, length_cellAddresses, hRep.cells.last_used] at hHopeless
    have hBlocked : Blocked (alignUp size.toNat heapAlignment) cs :=
      ⟨skipped_of_exhausted hRep hVain.exhausted, hHopeless.resolve_left (by omega)⟩
    rw [hBlocked.growCells_eq hReady.coalesced] at hMem
    exact hNot ((hBlocked.grow (heapRequiredPages_pos _)).skipped d hMem)
  · intro hServes
    refine oneGrowth_of_retry hRep hHigh ?_
    intro grown hInit hSearch hGrow
    rcases heapGrow_grown hRep hGrow with ⟨g, hGrown⟩
    exact retry_found hGrown.rep
      (serving_of_not_vain hReady hList hServes hInit (by omega) hSearch ⟨grown, hGrow⟩).2

/-
  In every state of every run, for every size up to 65520 bytes: one growth suffices if and only
  if the request does not grow the heap in vain.
-/
theorem oneGrowth_iff (svc : PageServices σ) (h : Heap σ) (ops : List HeapOp) : ∃ h₀ h' addresses,
      heapInitialize svc h = some h₀ ∧ Transition.run (heapStep svc) h₀ ops = some h' ∧
        BlockList h'.blocks h'.head addresses ∧
        ∀ size : UInt32, 1 ≤ size.toNat → size.toNat ≤ 65520 →
            (OneGrowth svc h' size ↔ ¬ GrowsInVain svc h' addresses size) := by
  rcases heapInitialize_ready svc h with ⟨h₀, hInit, hReady⟩
  rcases Transition.run_total (heapStep_ready svc) hReady ops with ⟨h', hRun, cs, hFinal⟩
  have hList := hFinal.tiled.listed
  refine ⟨h₀, h', _, hInit, hRun, hList, ?_⟩
  intro size hLow hHigh
  exact oneGrowth_iff_of_ready svc hFinal hList hLow hHigh

theorem oneGrowth_iff_small :
    ∃ h₀ h' addresses, heapInitialize pageServices (bssHeap smallPages) = some h₀ ∧
        Transition.run (heapStep pageServices) h₀ [.kmalloc 100, .kfree 0xC1000010] = some h' ∧
        BlockList h'.blocks h'.head addresses ∧
        (OneGrowth pageServices h' 5000 ↔ ¬ GrowsInVain pageServices h' addresses 5000) := by
  rcases oneGrowth_iff pageServices (bssHeap smallPages) [.kmalloc 100, .kfree 0xC1000010] with
    ⟨h₀, h', addresses, hInit, hRun, hList, hIff⟩
  exact ⟨h₀, h', addresses, hInit, hRun, hList, hIff 5000 (by decide) (by decide)⟩

end LiamOS.I386
