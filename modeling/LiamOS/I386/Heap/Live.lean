import LiamOS.I386.Heap.Request

/-
  Pointers a client of the heap holds.

  A client run keeps beside the heap the pointers `kmalloc` returned and, of these, the live ones
  that were not passed to `kfree` since. The block of a live pointer stays used and stays where it
  is; whether it is found depends on the number of blocks in front of it.

  Main declarations: `livePointers_honoured_iff`.
-/

namespace LiamOS.I386

open Word

variable {σ : Type}
variable {h h' : Heap σ} {cs post pre : List HeapCell} {c : HeapCell} {svc : PageServices σ}
variable {live : List UInt32}
variable {o p : Nat} {d : HeapCell} {pointer : UInt32}

----------
-- Looking Up A Payload

/-
  The walk finds the block of a payload if and only if fewer blocks than its budget stand in front
  of it.
-/
theorem heapFindBlockLoop_mid (hRange : h.HasRange) {a : Nat}
    (hCells : CellsAt h.blocks 0 a (pre ++ c :: post)) (hFit : CellsFit a (pre ++ c :: post))
    (hSizes : ∀ d ∈ pre ++ c :: post, d.size ≠ 0) (budget : Nat) :
    heapFindBlockLoop h (a + cellsBytes pre + 16) budget (cellsPointer a (pre ++ c :: post)) =
      if pre.length < budget then a + cellsBytes pre else 0 := by
  induction pre generalizing a budget with
  | nil =>
    cases budget with
    | zero => rfl
    | succ budget =>
      have hStart := hFit.start_le
      have hEnd := hFit.end_le
      simp only [List.nil_append, cellsBytes_cons] at hEnd
      have hSane := heapBlockHeaderIsSane_cell hRange hCells hFit
      have hSize := hSizes c (by simp)
      have hZero : a ≠ 0 := by omega
      have hPayload : u32 (a + 16) = a + 16 := u32_of_lt (by omega)
      simp [heapFindBlockLoop, hZero, hSane, hSize, hPayload]
  | cons d pre ih =>
    cases budget with
    | zero => simp [heapFindBlockLoop]
    | succ budget =>
      have hStart := hFit.start_le
      have hEnd := hFit.end_le
      simp only [List.cons_append, cellsBytes_cons] at hEnd
      have hSane := heapBlockHeaderIsSane_cell hRange hCells hFit
      have hSize := hSizes d (by simp)
      have hZero : a ≠ 0 := by omega
      have hPayload : u32 (a + heapHeaderSize) = a + 16 := by
        rw [heapHeaderSize_eq, u32_of_lt (by omega)]
      have hLater : a + 16 ≠ a + cellsBytes (d :: pre) + 16 := by
        rw [cellsBytes_cons]
        omega
      have hRest := ih (a := a + 16 + d.size) hCells.2 hFit.tail
          (fun e he =>
            hSizes e (List.mem_cons_of_mem _ he)) budget
      have hStep : heapFindBlockLoop h (a + cellsBytes (d :: pre) + 16) (budget + 1)
              (cellsPointer a (d :: pre ++ c :: post)) =
            heapFindBlockLoop h (a + cellsBytes (d :: pre) + 16) budget
              (cellsPointer (a + 16 + d.size) (pre ++ c :: post)) := by
        simp only [List.cons_append, cellsPointer_cons,
          heapFindBlockLoop, hZero, hSane, hPayload, hLater, hCells.next_eq]
        simp [hSize]
      rw [hStep, cellsBytes_cons, show a + (16 + d.size + cellsBytes pre) =
          a + 16 + d.size + cellsBytes pre by omega, hRest]
      simp

theorem heapFindBlockForPointer_mid (hRep : HeapRep h (pre ++ c :: post))
    (hInit : h.stats.initialized = true) (hSizes : ∀ d ∈ pre ++ c :: post, d.size ≠ 0) :
    heapFindBlockForPointer h (0xC1000000 + cellsBytes pre + 16) =
      if pre.length < heapMaxAuditBlocks then
        0xC1000000 + cellsBytes pre
      else
        0 := by
  have hEnd := hRep.fit.end_le
  have hSize := hSizes c (by simp)
  simp only [cellsBytes_append, cellsBytes_cons] at hEnd
  have hPayload : heapPayloadAddressInRange h (0xC1000000 + cellsBytes pre + 16) = true := by
    simp only [heapPayloadAddressInRange, hRep.range.1,
      hRep.range.2, heapHeaderSize_eq, Bool.and_eq_true, decide_eq_true_eq]
    rw [u32_of_lt (by omega)]
    omega
  unfold heapFindBlockForPointer
  rw [if_neg (by simp [hInit]), if_neg (by simp [hPayload]), hRep.head]
  exact heapFindBlockLoop_mid hRep.range hRep.cells hRep.fit hSizes heapMaxAuditBlocks

/- The blocks in front of an address of the list. -/
theorem mem_take_cellAddresses (a n : Nat) (pre : List HeapCell) (c : HeapCell)
    (post : List HeapCell) :
    a + cellsBytes pre ∈ (cellAddresses a (pre ++ c :: post)).take n ↔ pre.length < n := by
  induction pre generalizing a n with
  | nil => cases n <;> simp [cellAddresses]
  | cons d pre ih =>
    cases n with
    | zero => simp
    | succ n =>
      have hRest := ih (a + 16 + d.size) n
      rw [show a + cellsBytes (d :: pre) = a + 16 + d.size + cellsBytes pre by
          rw [cellsBytes_cons]; omega]
      simp only [List.cons_append, cellAddresses, List.take_succ_cons, List.mem_cons, hRest,
        List.length_cons, Nat.add_lt_add_iff_right]
      constructor
      · rintro (hEq | hLess)
        · omega
        · exact hLess
      · exact Or.inr

----------
-- A Pointer And Its Cell

/- What a client expects of a live pointer. -/
structure PointerHonoured (h : Heap σ) (pointer : UInt32) : Prop where
  valid : heapValidatePointer h pointer = true
  freed : ∃ h', kfree h pointer = some h' ∧ (h'.blocks (pointer.toNat - 16)).used = false ∧
        h'.stats.successfulFreeCount = u32 (h.stats.successfulFreeCount + 1) ∧
        h'.stats.invalidFreeCount = h.stats.invalidFreeCount

theorem CellAt.split (hCell : CellAt cs o d) :
    ∃ pre post, cs = pre ++ d :: post ∧ o = cellsBytes pre := by
  induction hCell with
  | @head c cs => exact ⟨[], cs, rfl, rfl⟩
  | @tail c d cs o _ ih =>
    rcases ih with ⟨pre, post, hSplit, hOffset⟩
    refine ⟨c :: pre, post, by rw [hSplit]; rfl, ?_⟩
    rw [hOffset, cellsBytes_cons]

/- The pointer designates a used cell. -/
def Designates (cs : List HeapCell) (pointer : UInt32) : Prop :=
  ∃ o d, pointer.toNat = 0xC1000000 + o + 16 ∧ CellAt cs o d ∧ d.used = true

theorem pointerHonoured_iff (hRep : HeapRep h cs) (hInit : h.stats.initialized = true)
    (hSizes : ∀ d ∈ cs, d.size ≠ 0) (hPointer : Designates cs pointer) :
    PointerHonoured h pointer ↔
      pointer.toNat - 16 ∈ (cellAddresses 0xC1000000 cs).take heapMaxAuditBlocks := by
  rcases hPointer with ⟨o, d, hAddress, hCell, hUsed⟩
  rcases hCell.split with ⟨pre, post, hSplit, hOffset⟩
  subst hSplit hOffset
  have hBlock : pointer.toNat - 16 = 0xC1000000 + cellsBytes pre := by omega
  have hFind := heapFindBlockForPointer_mid hRep hInit hSizes
  rw [← hAddress] at hFind
  rw [hBlock, mem_take_cellAddresses]
  constructor
  · intro hHonoured
    by_contra hFar
    have hValid := hHonoured.valid
    rw [heapValidatePointer, hFind, if_neg hFar] at hValid
    exact absurd hValid (by simp)
  · intro hNear
    rw [if_pos hNear] at hFind
    rcases kfree_found hRep hUsed hFind with ⟨h', hRun, hFreed⟩
    refine ⟨?_, h', hRun, ?_, hFreed.successes, hFreed.failures⟩
    · rw [heapValidatePointer, hFind, if_neg (by omega), hRep.cells.header_mid]
      exact hUsed
    · rw [hBlock]
      exact hFreed.flag

----------
-- Client Runs

/-
  `ClientRun svc boot h returned live`: calls of `kmalloc` with sizes from 1 to 4096 and of
  `kfree` on pointers that `kmalloc` returned lead from `heap_initialize` to `h`.
-/
inductive ClientRun (svc : PageServices σ) (boot : Heap σ) :
    Heap σ → List UInt32 → List UInt32 → Prop
  | start
      {h : Heap σ}
      (hInit : heapInitialize svc boot = some h) :
      ClientRun svc boot h [] []
  | kmallocNull
      {h h' : Heap σ}
      {returned live : List UInt32}
      (hRun : ClientRun svc boot h returned live)
      (size : UInt32)
      (hLow : 1 ≤ size.toNat)
      (hHigh : size.toNat ≤ 4096)
      (hCall : kmalloc svc h size = some (0, h')) :
      ClientRun svc boot h' returned live
  | kmallocSome
      {h h' : Heap σ}
      {returned live : List UInt32}
      (hRun : ClientRun svc boot h returned live)
      (size : UInt32)
      (hLow : 1 ≤ size.toNat)
      (hHigh : size.toNat ≤ 4096)
      (p : UInt32)
      (hSome : p ≠ 0)
      (hCall : kmalloc svc h size = some (p.toNat, h')) :
      ClientRun svc boot h' (p :: returned) (p :: live)
  | kfree
      {h h' : Heap σ}
      {returned live : List UInt32}
      (hRun : ClientRun svc boot h returned live)
      (p : UInt32)
      (hReturned : p ∈ returned)
      (hCall : kfree h p = some h') :
      ClientRun svc boot h' returned (live.filter (· ≠ p))

theorem freeCell_sizes_ne_zero (hSizes : ∀ d ∈ pre ++ c :: post, d.size ≠ 0) :
    ∀ d ∈ freeCell pre c post, d.size ≠ 0 := by
  have hAll : ∀ d ∈ pre ++ { size := c.size, used := false } :: post, d.size ≠ 0 := by
    intro d hd
    rcases List.mem_append.mp hd with hPre | hRest
    · exact hSizes d (List.mem_append_left _ hPre)
    · rcases List.mem_cons.mp hRest with hEq | hPost
      · rw [hEq]
        exact hSizes c (by simp)
      · exact hSizes d (by simp [hPost])
  unfold freeCell mergeAll
  generalize pre ++ { size := c.size, used := false } :: post = cells at hAll
  cases cells with
  | nil => simp
  | cons e rest =>
    exact mergeCells_forall (P := fun n => n ≠ 0) (fun x y _ _ => by omega) _ e rest hAll

/- Freeing one cell leaves the other used cells. -/
theorem CellAt.freeCell (hCell : CellAt (pre ++ c :: post) o d) (hUsed : d.used = true)
    (hOther : o ≠ cellsBytes pre) :
    CellAt (freeCell pre c post) o d := by
  have hMarked : CellAt (pre ++ { size := c.size, used := false } :: post) o d := by
    rcases hCell.append with hLeft | ⟨o', hEq, hRight⟩
    · exact hLeft.left _
    · subst hEq
      cases hRight with
      | head => exact absurd rfl hOther
      | tail hPost => exact (hPost.tail (c := { size := c.size, used := false })).right pre
  unfold I386.freeCell mergeAll
  generalize pre ++ { size := c.size, used := false } :: post = cells at hMarked
  cases cells with
  | nil => exact hMarked
  | cons e rest => exact hMarked.mergeCells hUsed

/- The cells of a heap and the live pointers to them. -/
structure LiveHeap (h : Heap σ) (live : List UInt32) (cs : List HeapCell) : Prop where
  ready : HeapReady h cs
  sizes : ∀ d ∈ cs, d.size ≠ 0
  initialized : live ≠ [] → h.stats.initialized = true
  designates : ∀ p ∈ live, Designates cs p

theorem KmallocEnds.ready_of_some {cs' : List HeapCell} {size : Nat}
    (hEnds : KmallocEnds svc h cs size p h' cs') (hSome : p ≠ 0) :
    h.stats.initialized = true := by
  cases hEnds with
  | refused => exact absurd rfl hSome
  | corrupt => exact absurd rfl hSome
  | taken _ _ _ hInit => exact hInit
  | growFailed => exact absurd rfl hSome
  | grown _ _ hInit => exact hInit

theorem LiveHeap.kmalloc (hLive : LiveHeap h live cs) {size : UInt32}
    (hHigh : size.toNat ≤ 0xFFFFFFF8) (hCall : kmalloc svc h size = some (p, h')) :
    ∃ cs', KmallocEnds svc h cs size.toNat p h' cs' ∧ LiveHeap h' live cs' := by
  have hRep := hLive.ready.rep
  rcases kmalloc_ends svc hRep size with ⟨p', h'', cs', hRun, hEnds⟩
  rw [hCall] at hRun
  simp only [Option.some.injEq, Prod.mk.injEq] at hRun
  rcases hRun with ⟨hEqP, hEqH⟩
  subst hEqP hEqH
  refine ⟨cs', hEnds, ⟨hEnds.rep hRep, hEnds.coalesced hLive.ready.coalesced⟩,
    hEnds.sizes hHigh hLive.sizes, ?_, ?_⟩
  · intro hSome
    rw [hEnds.initialized]
    exact hLive.initialized hSome
  · intro q hq
    rcases hLive.designates q hq with ⟨o, d, hAddress, hCell, hUsed⟩
    exact ⟨o, d, hAddress, hEnds.usedKept hCell hUsed, hUsed⟩

theorem LiveHeap.kfree (hLive : LiveHeap h live cs) (hCall : kfree h pointer = some h') :
    ∃ cs', LiveHeap h' (live.filter (· ≠ pointer)) cs' := by
  have hRep := hLive.ready.rep
  have hKept : ∀ q ∈ live.filter (· ≠ pointer), q ∈ live ∧ q ≠ pointer := by
    intro q hq
    simpa using List.mem_filter.mp hq
  have hSomeKept : live.filter (· ≠ pointer) ≠ [] → live ≠ [] := by
    intro hSome hNil
    rw [hNil] at hSome
    exact hSome rfl
  rcases kfree_cells hRep pointer with
    ⟨h'', hRun, hRep', hInit, -⟩ | ⟨pre, c, post, h'', hSplit, hUsed, hPointer, hRun, hFreed⟩
  · rw [hCall] at hRun
    rw [← Option.some.inj hRun] at hRep' hInit
    refine ⟨cs, ⟨hRep', hLive.ready.coalesced⟩, hLive.sizes, ?_, ?_⟩
    · intro hSome
      rw [hInit]
      exact hLive.initialized (hSomeKept hSome)
    · intro q hq
      exact hLive.designates q (hKept q hq).1
  · rw [hCall] at hRun
    rw [← Option.some.inj hRun] at hFreed
    subst hSplit
    refine ⟨freeCell pre c post, ⟨hFreed.rep, mergeAll_coalesced _⟩,
      freeCell_sizes_ne_zero hLive.sizes, ?_, ?_⟩
    · intro hSome
      rw [hFreed.initialized]
      exact hLive.initialized (hSomeKept hSome)
    · intro q hq
      rcases hKept q hq with ⟨hOld, hOther⟩
      rcases hLive.designates q hOld with ⟨o, d, hAddress, hCell, hStill⟩
      refine ⟨o, d, hAddress, hCell.freeCell hStill ?_, hStill⟩
      intro hSame
      apply hOther
      rw [← UInt32.toNat_inj]
      omega

theorem clientRun_live {boot : Heap σ} {returned : List UInt32}
    (hRun : ClientRun svc boot h returned live) :
    ∃ cs, LiveHeap h live cs := by
  induction hRun with
  | @start h hInit =>
    rcases heapInitialize_rep svc boot with ⟨h', hRun, hCells, -⟩
    rw [hInit] at hRun
    rw [← Option.some.inj hRun] at hCells
    rcases hCells with ⟨hRep, -⟩ | ⟨hRep, -⟩
    · exact ⟨[], ⟨hRep, trivial⟩, by simp, by simp, by simp⟩
    · exact ⟨[freshCell], ⟨hRep, trivial⟩, by simp [freshCell], by simp, by simp⟩
  | kmallocNull hRun size hLow hHigh hCall ih =>
    rcases ih with ⟨cs, hLive⟩
    rcases hLive.kmalloc (by omega) hCall with ⟨cs', -, hLive'⟩
    exact ⟨cs', hLive'⟩
  | kmallocSome hRun size hLow hHigh p hSome hCall ih =>
    rcases ih with ⟨cs, hLive⟩
    rcases hLive.kmalloc (by omega) hCall with ⟨cs', hEnds, hLive'⟩
    have hNonzero : p.toNat ≠ 0 := by
      intro hZero
      exact hSome (UInt32.toNat_inj.mp hZero)
    refine ⟨cs', hLive'.ready, hLive'.sizes, ?_, ?_⟩
    · intro _
      rw [hEnds.initialized]
      exact hEnds.ready_of_some hNonzero
    · intro q hq
      rcases List.mem_cons.mp hq with hEq | hOld
      · rcases hEnds.designated hNonzero with ⟨o, e, hAddress, hCell, hUsed, -⟩
        rw [hEq]
        exact ⟨o, e, hAddress, hCell, hUsed⟩
      · exact hLive'.designates q hOld
  | kfree hRun p hReturned hCall ih =>
    rcases ih with ⟨cs, hLive⟩
    exact hLive.kfree hCall

/-
  In every state of a client run the live pointers are accepted, and freed when asked, if and only
  if the block of each is among the first 4096 of the list.
-/
theorem livePointers_honoured_iff {svc : PageServices σ} {boot h : Heap σ}
    {returned live : List UInt32} (hRun : ClientRun svc boot h returned live) {addresses : List Nat}
    (hList : BlockList h.blocks h.head addresses) :
    (∀ p ∈ live, PointerHonoured h p) ↔
      ∀ p ∈ live, p.toNat - 16 ∈ addresses.take heapMaxAuditBlocks := by
  rcases clientRun_live hRun with ⟨cs, hLive⟩
  rw [hLive.ready.rep.addresses_eq hList]
  have hEach : ∀ p ∈ live, PointerHonoured h p ↔
          p.toNat - 16 ∈ (cellAddresses 0xC1000000 cs).take heapMaxAuditBlocks := by
    intro p hp
    exact pointerHonoured_iff hLive.ready.rep (hLive.initialized (List.ne_nil_of_mem hp))
      hLive.sizes (hLive.designates p hp)
  exact forall₂_congr hEach

/- On the small machine, after one request of 100 bytes. -/
theorem livePointers_honoured_iff_small :
    ∃ h addresses, ClientRun pageServices (bssHeap smallPages) h [0xC1000010] [0xC1000010] ∧
        BlockList h.blocks h.head addresses ∧
        ((∀ p ∈ [(0xC1000010 : UInt32)], PointerHonoured h p) ↔
          ∀ p ∈ [(0xC1000010 : UInt32)], p.toNat - 16 ∈ addresses.take heapMaxAuditBlocks) := by
  have hFigures :
      ((heapInitialize pageServices (bssHeap smallPages)).bind fun h₀ =>
        (kmalloc pageServices h₀ 100).map Prod.fst) =
        some 0xC1000010 := by
    decide +kernel
  rcases Option.bind_eq_some_iff.mp hFigures with ⟨h₀, hInit, hRest⟩
  rcases Option.map_eq_some_iff.mp hRest with ⟨⟨p, h⟩, hCall, hPointer⟩
  have hRun : ClientRun pageServices (bssHeap smallPages) h [0xC1000010] [0xC1000010] :=
    (ClientRun.start hInit).kmallocSome 100 (by decide) (by decide) 0xC1000010 (by decide)
      (hCall.trans (by rw [show p = _ from hPointer]; rfl))
  rcases clientRun_live hRun with ⟨cs, hLive⟩
  have hList := hLive.ready.tiled.listed
  exact ⟨h, _, hRun, hList, livePointers_honoured_iff hRun hList⟩

end LiamOS.I386
