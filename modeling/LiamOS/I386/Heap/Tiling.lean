import LiamOS.I386.Heap.Operations

/-
  Tiling: in every state of every run of the heap, the block list covers the heap's range from its
  start to `next_virtual_page` without gap or overlap, and the merge pass has left no two
  neighbouring free blocks within its reach.

  Main declarations: `heapStep_ready`, `heap_tiled`.
-/

namespace LiamOS.I386

open Word

variable {σ : Type}
variable {a budget stop : Nat} {cs : List HeapCell} {h : Heap σ} {blocks : Nat → HeapBlock}
variable {requested start : Nat} {c : HeapCell} {cs' post : List HeapCell} {addresses : List Nat}

----------
-- Coalesced Cells

/-
  No two neighbours are both free among the first cells, up to `budget` of them and up to the
  first empty payload.
-/
def Coalesced : Nat → List HeapCell → Prop
| 0, _ => True
| _ + 1, [] => True
| _ + 1, [_] => True
| budget + 1, c :: d :: cs =>
    c.size = 0 ∨ d.size = 0 ∨ (c.used = true ∨ d.used = true) ∧ Coalesced budget (d :: cs)

theorem Coalesced.single (budget : Nat) (c : HeapCell) : Coalesced budget [c] := by
  cases budget with
  | zero => trivial
  | succ budget => trivial

theorem Coalesced.mono (hCells : Coalesced (budget + 1) cs) : Coalesced budget cs := by
  induction budget generalizing cs with
  | zero => trivial
  | succ budget ih =>
    match cs with
    | [] => trivial
    | [c] => trivial
    | c :: d :: cs =>
      rcases hCells with hEmpty | hEmpty | ⟨hUsed, hRest⟩
      · exact Or.inl hEmpty
      · exact Or.inr (Or.inl hEmpty)
      · exact Or.inr (Or.inr ⟨hUsed, ih hRest⟩)

/- Merging keeps the flag of the cell it starts from. -/
theorem mergeCells_head (budget : Nat) (c : HeapCell) (cs : List HeapCell) :
    ∃ e es, mergeCells budget c cs = e :: es ∧ e.used = c.used ∧ c.size ≤ e.size := by
  fun_induction mergeCells budget c cs with
  | case1 => exact ⟨_, _, rfl, rfl, le_refl _⟩
  | case2 => exact ⟨_, _, rfl, rfl, le_refl _⟩
  | case3 => exact ⟨_, _, rfl, rfl, le_refl _⟩
  | case4 budget c d cs hSizes hFree ih =>
    rcases ih with ⟨e, es, hEq, hUsed, hSize⟩
    simp only at hUsed hSize
    exact ⟨e, es, hEq, by rw [hUsed, hFree.1], by omega⟩
  | case5 => exact ⟨_, _, rfl, rfl, le_refl _⟩

theorem mergeCells_coalesced (budget : Nat) (c : HeapCell) (cs : List HeapCell) :
    Coalesced budget (mergeCells budget c cs) := by
  fun_induction mergeCells budget c cs with
  | case1 => trivial
  | case2 => trivial
  | case3 budget c d cs hSizes =>
    rcases hSizes with hEmpty | hEmpty
    · exact Or.inl hEmpty
    · exact Or.inr (Or.inl hEmpty)
  | case4 budget c d cs hSizes hFree ih => exact ih
  | case5 budget c d cs hSizes hFree ih =>
    rcases mergeCells_head budget d cs with ⟨e, es, hEq, hUsed, -⟩
    rw [hEq] at ih ⊢
    refine Or.inr (Or.inr ⟨?_, ih⟩)
    rw [hUsed]
    cases hc : c.used with
    | true => exact Or.inl rfl
    | false =>
      cases hd : d.used with
      | true => exact Or.inr rfl
      | false => exact absurd ⟨hc, hd⟩ hFree

theorem mergeAll_coalesced (cs : List HeapCell) : Coalesced heapMaxAuditBlocks (mergeAll cs) := by
  cases cs with
  | nil => trivial
  | cons c cs => exact mergeCells_coalesced _ c cs

/- Taking the first cell of a run. -/
theorem Coalesced.takeHead (hCells : Coalesced budget (c :: post)) (hSize : c.size ≠ 0)
    (hFree : c.used = false) :
    Coalesced budget (takeCell requested c ++ post) := by
  match budget, post, hCells with
  | 0, _, _ => trivial
  | budget + 1, [], _ =>
    unfold takeCell splitRest
    split
    · trivial
    · exact Or.inr (Or.inr ⟨Or.inl rfl, Coalesced.single budget _⟩)
  | budget + 1, d :: ds, hCells =>
    rcases hCells with hEmpty | hEmpty | ⟨hUsed, hRest⟩
    · exact absurd hEmpty hSize
    · unfold takeCell splitRest
      split
      · exact Or.inr (Or.inl hEmpty)
      · refine Or.inr (Or.inr ⟨Or.inl rfl, ?_⟩)
        cases budget with
        | zero => trivial
        | succ budget => exact Or.inr (Or.inl hEmpty)
    · have hd : d.used = true := by simpa [hFree] using hUsed
      unfold takeCell splitRest
      split
      · exact Or.inr (Or.inr ⟨Or.inl rfl, hRest⟩)
      · refine Or.inr (Or.inr ⟨Or.inl rfl, ?_⟩)
        cases budget with
        | zero => trivial
        | succ budget => exact Or.inr (Or.inr ⟨Or.inr hd, hRest.mono⟩)

/- Taking a cell creates no free neighbours. -/
theorem Coalesced.take {pre : List HeapCell} (hCells : Coalesced budget (pre ++ c :: post))
    (hSize : c.size ≠ 0) (hFree : c.used = false) :
    Coalesced budget (pre ++ (takeCell requested c ++ post)) := by
  induction pre generalizing budget with
  | nil => exact hCells.takeHead hSize hFree
  | cons p ps ih =>
    cases budget with
    | zero => trivial
    | succ budget =>
      cases ps with
      | nil =>
        rcases hCells with hEmpty | hEmpty | ⟨hUsed, hRest⟩
        · exact Or.inl hEmpty
        · exact absurd hEmpty hSize
        · exact Or.inr (Or.inr ⟨Or.inr rfl, ih hRest⟩)
      | cons q qs =>
        rcases hCells with hEmpty | hEmpty | ⟨hUsed, hRest⟩
        · exact Or.inl hEmpty
        · exact Or.inr (Or.inl hEmpty)
        · exact Or.inr (Or.inr ⟨hUsed, ih hRest⟩)

theorem KmallocEnds.coalesced {svc : PageServices σ} {h' : Heap σ} {size p : Nat}
    (hEnds : KmallocEnds svc h cs size p h' cs') (hCells : Coalesced heapMaxAuditBlocks cs) :
    Coalesced heapMaxAuditBlocks cs' := by
  induction hEnds with
  | refused => exact hCells
  | corrupt => exact hCells
  | taken pre c post _ _ _ _ _ hSize hFree _ => exact hCells.take hSize hFree
  | growFailed => exact hCells
  | grown _ _ _ _ _ _ _ _ _ _ _ ih => exact ih (mergeAll_coalesced _)

theorem KfreeEnds.coalesced (hEnds : KfreeEnds cs cs') (hCells : Coalesced heapMaxAuditBlocks cs) :
    Coalesced heapMaxAuditBlocks cs' := by
  cases hEnds with
  | ignored => exact hCells
  | freed => exact mergeAll_coalesced _

----------
-- Tiled Heaps

/- The blocks a walk from `p` along the links visits. -/
def BlockList (blocks : Nat → HeapBlock) : Nat → List Nat → Prop
| p, [] => p = 0
| p, a :: as => p = a ∧ a ≠ 0 ∧ BlockList blocks (blocks a).next as

/- The blocks lie end to end from `start` to `stop`. -/
def TilesFrom (blocks : Nat → HeapBlock) : Nat → Nat → List Nat → Prop
| start, stop, [] => start = stop
| start, stop, a :: as => a = start ∧ TilesFrom blocks (a + 16 + (blocks a).size) stop as

/-
  The blocks of the heap's list: they tile the range in use, every block but the last is linked to
  the address right after its payload, payloads of different blocks are disjoint, and a list
  within the reach of the merge pass has no two neighbouring free blocks.
-/
structure HeapTiled (h : Heap σ) (addresses : List Nat) : Prop where
  listed : BlockList h.blocks h.head addresses
  covered : TilesFrom h.blocks h.stats.virtualStart h.stats.nextVirtualPage addresses
  aligned : ∀ a ∈ addresses, a % 8 = 0
  linked : addresses.IsChain fun a b =>
      (h.blocks a).next = b ∧ b = a + 16 + (h.blocks a).size
  disjoint : addresses.Pairwise fun a b =>
      a + 16 + (h.blocks a).size ≤ b
  coalesced :
    addresses.length ≤ heapMaxAuditBlocks → (∀ a ∈ addresses, heapBlockHeaderIsSane h a = true) →
      addresses.IsChain fun a b =>
        (h.blocks a).used = true ∨ (h.blocks b).used = true

/- The addresses of a run of cells. -/
def cellAddresses : Nat → List HeapCell → List Nat
| _, [] => []
| a, c :: cs => a :: cellAddresses (a + 16 + c.size) cs

@[simp] theorem length_cellAddresses (a : Nat) (cs : List HeapCell) :
    (cellAddresses a cs).length = cs.length := by
  induction cs generalizing a with
  | nil => rfl
  | cons c cs ih => simp [cellAddresses, ih]

theorem CellsAt.blockList (hCells : CellsAt blocks 0 a cs) (hStart : 0 < a) :
    BlockList blocks (cellsPointer a cs) (cellAddresses a cs) := by
  induction cs generalizing a with
  | nil => rfl
  | cons c cs ih =>
    refine ⟨rfl, by omega, ?_⟩
    rw [hCells.next_eq]
    exact ih hCells.2 (by omega)

theorem CellsAt.tilesFrom (hCells : CellsAt blocks stop a cs) :
    TilesFrom blocks a (a + cellsBytes cs) (cellAddresses a cs) := by
  induction cs generalizing a with
  | nil => rfl
  | cons c cs ih =>
    have hTail := ih hCells.2
    have hSize : (blocks a).size = c.size := by
      rw [hCells.1]
      rfl
    have hEnd : a + cellsBytes (c :: cs) = a + 16 + c.size + cellsBytes cs := by
      simp
      omega
    refine ⟨rfl, ?_⟩
    rw [hSize, hEnd]
    exact hTail

theorem CellsFit.addresses_aligned (hFit : CellsFit a cs) :
    ∀ x ∈ cellAddresses a cs, x % 8 = 0 := by
  induction cs generalizing a with
  | nil => simp [cellAddresses]
  | cons c cs ih =>
    intro x hx
    rcases List.mem_cons.mp hx with hEq | hMem
    · rw [hEq]
      exact hFit.aligned
    · exact ih hFit.tail x hMem

/- Consecutive links point right behind the payload. -/
theorem CellsAt.linked (hCells : CellsAt blocks 0 a cs) : (cellAddresses a cs).IsChain fun x y =>
      (blocks x).next = y ∧ y = x + 16 + (blocks x).size := by
  induction cs generalizing a with
  | nil => exact .nil
  | cons c cs ih =>
    have hTail := ih hCells.2
    cases cs with
    | nil => exact .singleton _
    | cons d ds =>
      refine List.isChain_cons_cons.mpr ⟨?_, hTail⟩
      rw [hCells.1]
      exact ⟨rfl, rfl⟩

theorem TilesFrom.start_le (hTiles : TilesFrom blocks start stop addresses) :
    ∀ x ∈ addresses, start ≤ x := by
  induction addresses generalizing start with
  | nil => simp
  | cons a as ih =>
    rcases hTiles with ⟨hFirst, hRest⟩
    intro x hx
    rcases List.mem_cons.mp hx with hEq | hMem
    · omega
    · have hLe := ih hRest x hMem
      omega

/- Blocks laid end to end do not overlap. -/
theorem TilesFrom.disjoint (hTiles : TilesFrom blocks start stop addresses) :
    addresses.Pairwise fun a b =>
      a + 16 + (blocks a).size ≤ b := by
  induction addresses generalizing start with
  | nil => exact .nil
  | cons a as ih =>
    rcases hTiles with ⟨-, hRest⟩
    exact List.pairwise_cons.mpr ⟨hRest.start_le, ih hRest⟩

theorem size_ne_zero_of_sane (hSane : heapBlockHeaderIsSane h a = true) :
    (h.blocks a).size ≠ 0 := by
  intro hSize
  simp [heapBlockHeaderIsSane, hSize] at hSane

/- Coalesced cells give neighbours that are not both free. -/
theorem Coalesced.neighbours (hCells : CellsAt h.blocks 0 a cs) (hCoalesced : Coalesced budget cs)
    (hLength : cs.length ≤ budget)
    (hSane : ∀ x ∈ cellAddresses a cs, heapBlockHeaderIsSane h x = true) :
    (cellAddresses a cs).IsChain fun x y =>
      (h.blocks x).used = true ∨ (h.blocks y).used = true := by
  induction cs generalizing budget a with
  | nil => exact .nil
  | cons c cs ih =>
    cases cs with
    | nil => exact .singleton _
    | cons d ds =>
      cases budget with
      | zero => simp at hLength
      | succ budget =>
        have hc : (h.blocks a).size ≠ 0 := size_ne_zero_of_sane (hSane a (by simp [cellAddresses]))
        have hd : (h.blocks (a + 16 + c.size)).size ≠ 0 :=
          size_ne_zero_of_sane (hSane _ (by simp [cellAddresses]))
        rw [hCells.1] at hc
        rw [hCells.2.1] at hd
        rcases hCoalesced with hEmpty | hEmpty | ⟨hUsed, hRest⟩
        · exact absurd hEmpty hc
        · exact absurd hEmpty hd
        · refine List.isChain_cons_cons.mpr ⟨?_, ?_⟩
          · rw [hCells.1, hCells.2.1]
            exact hUsed
          · refine ih hCells.2 hRest (by simpa using hLength) ?_
            intro x hx
            exact hSane x (List.mem_cons_of_mem _ hx)

/- The invariant of the heap between calls. -/
structure HeapReady (h : Heap σ) (cs : List HeapCell) : Prop where
  rep : HeapRep h cs
  coalesced : Coalesced heapMaxAuditBlocks cs

theorem HeapReady.tiled (hReady : HeapReady h cs) : HeapTiled h (cellAddresses 0xC1000000 cs) := by
  have hRep := hReady.rep
  have hTiles := hRep.cells.tilesFrom
  refine ⟨?_, ?_, hRep.fit.addresses_aligned, hRep.cells.linked, hTiles.disjoint, ?_⟩
  · rw [hRep.head]
    exact hRep.cells.blockList (by norm_num)
  · rw [hRep.range.1, hRep.next]
    exact hTiles
  · intro hLength hSane
    rw [length_cellAddresses] at hLength
    exact hReady.coalesced.neighbours hRep.cells hLength hSane

----------
-- Runs

/- A call on a heap in order ends and leaves one in order. -/
theorem heapStep_ready (svc : PageServices σ) (h : Heap σ) (op : HeapOp)
    (hReady : ∃ cs, HeapReady h cs) :
    ∃ h', heapStep svc h op = some h' ∧ ∃ cs', HeapReady h' cs' := by
  rcases hReady with ⟨cs, hRep, hCoalesced⟩
  cases op with
  | kmalloc size =>
    rcases kmalloc_ends svc hRep size with ⟨p, h', cs', hRun, hEnds⟩
    refine ⟨h', by simp [heapStep, hRun], cs', ?_⟩
    exact ⟨hEnds.rep hRep, hEnds.coalesced hCoalesced⟩
  | kfree pointer =>
    rcases kfree_rep hRep pointer with ⟨h', cs', hRun, hEnds, hRep', -, -⟩
    exact ⟨h', hRun, cs', hRep', hEnds.coalesced hCoalesced⟩

theorem heapInitialize_ready (svc : PageServices σ) (h : Heap σ) :
    ∃ h', heapInitialize svc h = some h' ∧ ∃ cs, HeapReady h' cs := by
  rcases heapInitialize_rep svc h with ⟨h', hRun, ⟨hRep, -⟩ | ⟨hRep, -⟩, -⟩
  · exact ⟨h', hRun, [], hRep, trivial⟩
  · exact ⟨h', hRun, [freshCell], hRep, trivial⟩

/-
  From `heap_initialize` on, whatever the page managers do and whatever the clients ask for, every
  call ends and the block list tiles the heap.
-/
theorem heap_tiled (svc : PageServices σ) (h : Heap σ) (ops : List HeapOp) :
    ∃ h₀ h', heapInitialize svc h = some h₀ ∧ Transition.run (heapStep svc) h₀ ops = some h' ∧
        ∃ addresses, HeapTiled h' addresses := by
  rcases heapInitialize_ready svc h with ⟨h₀, hInit, hReady⟩
  rcases Transition.run_total (heapStep_ready svc) hReady ops with ⟨h', hRun, cs, hFinal⟩
  exact ⟨h₀, h', hInit, hRun, _, hFinal.tiled⟩

end LiamOS.I386
