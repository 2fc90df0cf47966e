import LiamOS.I386.Heap.Operations
import LiamOS.I386.Vmm

/-
  Growth over the i386 memory managers: a growth that succeeds maps every new page and keeps every
  old mapping, and what every growth keeps every call of the heap keeps.

  Main declarations: `growInvariant_pages`, `growKeeps_separate`, `heapInitialize_keeps`,
  `heapStep_keeps`, `KmallocEnds.mapped`.
-/

namespace LiamOS.I386

open Word

variable {h h' : Heap PageState} {cs cs' : List HeapCell} {p size : Nat}

/-
  The managers after `k` pages of a growth of `h`: the pages taken are held, old mappings stand,
  new pages are mapped.
-/
structure GrowthPages (h : Heap PageState) (k : Nat) (g : HeapGrowth PageState) : Prop where
  separate : g.heap.pages.Separate (g.mapped.map Prod.snd)
  kept : ∀ w, vmmIsMapped w h.pages = true → vmmIsMapped w g.heap.pages = true
  fresh : ∀ j, j < k → vmmIsMapped (h.stats.nextVirtualPage + 4096 * j) g.heap.pages = true

theorem GrowthPages.start {h : Heap PageState} (hSep : h.pages.Separate []) :
    GrowthPages h 0 (HeapGrowth.start h) :=
  ⟨hSep, fun _ hw => hw, fun j hj => absurd hj (by omega)⟩

/- The rollback gives the held pages back one by one. -/
theorem heapUnmapPages_separate {mapped : List (Nat × Nat)} {s : PageState}
    (hSep : s.Separate (mapped.map Prod.snd)) :
    (heapUnmapPages pageServices mapped s).Separate [] := by
  induction mapped generalizing s with
  | nil => exact hSep
  | cons page rest ih =>
    rcases page with ⟨virtualPage, physicalPage⟩
    have hUnmapped := vmmUnmapPage_separate hSep virtualPage
    exact ih hUnmapped.free

/- The page the next turn takes. -/
abbrev HeapGrowth.page (g : HeapGrowth PageState) : Nat := (pmmAllocPage g.heap.pages.pmm).1

/- The mapping of that page. -/
abbrev HeapGrowth.mapPage (g : HeapGrowth PageState) : Bool × PageState :=
  vmmMapPage g.heap.stats.nextVirtualPage g.page vmmPageWritable
    { g.heap.pages with pmm := (pmmAllocPage g.heap.pages.pmm).2 }

theorem addPage_pages (g : HeapGrowth PageState) (physicalPage : Nat) (s : PageState) :
    (g.addPage physicalPage s).heap.pages = s := by
  unfold HeapGrowth.addPage
  dsimp only
  split <;> rfl

theorem GrowthPages.offered {k : Nat} {g : HeapGrowth PageState} (hPages : GrowthPages h k g)
    (hSome : g.page ≠ 0) :
    g.mapPage.2.Separate (g.page :: g.mapped.map Prod.snd) ∧
      (g.mapPage.1 = true → vmmIsMapped g.heap.stats.nextVirtualPage g.mapPage.2 = true ∧
        ∀ w, vmmIsMapped w g.heap.pages = true → vmmIsMapped w g.mapPage.2 = true) :=
  vmmMapPage_spec (hPages.separate.alloc hSome) _ _ _

theorem growInvariant_pages (hSep : h.pages.Separate []) (n : Nat) :
    GrowInvariant pageServices h n (GrowthPages h) (fun s => s.Separate []) where
  start := GrowthPages.start hSep
  fails := by
    intro k g s _ _ hPages hTurn
    cases hTurn with
    | exhausted hNone =>
      have hSame : (pmmAllocPage g.heap.pages.pmm).2 = g.heap.pages.pmm :=
        pmmAllocPage_none hPages.separate.pmm hNone
      dsimp only [pageServices]
      rw [hSame]
      exact heapUnmapPages_separate hPages.separate
    | refused hSome hMap =>
      have hSpec := hPages.offered hSome
      rw [show g.mapPage = _ from hMap] at hSpec
      exact heapUnmapPages_separate hSpec.1.free
  keeps := by
    intro k g p s _ hGrowth hPages hTurn
    cases hTurn with
    | mapped hSome hMap =>
      have hSpec := hPages.offered hSome
      rw [show g.mapPage = _ from hMap] at hSpec
      rcases hSpec.2 rfl with ⟨hHere, hOthers⟩
      constructor
      · rw [addPage_pages]
        refine hSpec.1.perm ?_
        simp only [HeapGrowth.addPage, List.map_append, List.map_cons, List.map_nil]
        exact (List.perm_append_singleton _ _).symm
      · intro w hw
        rw [addPage_pages]
        exact hOthers w (hPages.kept w hw)
      · intro j hj
        rw [addPage_pages]
        rcases Nat.lt_or_eq_of_le (Nat.le_of_lt_succ hj) with hOld | hNew
        · exact hOthers _ (hPages.fresh j hOld)
        · have hVirtual : g.heap.stats.nextVirtualPage = h.stats.nextVirtualPage + 4096 * k := by
            rw [hGrowth.stats]
          rw [hNew, ← hVirtual]
          exact hHere

----------
-- Calls Of The Heap

theorem heapGrow_separate (hRep : HeapRep h cs) (hSep : h.pages.Separate []) {m : Nat} {ok : Bool}
    (hGrow : heapGrow pageServices h m = some (ok, h')) :
    h'.pages.Separate [] := by
  rcases heapGrow_rule hRep fun _ => growInvariant_pages hSep (heapRequiredPages m) with
    ⟨failed, hFail, -, hHow⟩ | ⟨g, grown, hSuccess, -, -, hGrown, hPages⟩
  · rw [hGrow, Option.some.injEq, Prod.mk.injEq] at hFail
    rw [hFail.2]
    rcases hHow with ⟨-, hSame⟩ | ⟨-, hPages⟩
    · rw [hSame]
      exact hSep
    · exact hPages
  · rw [hGrow, Option.some.injEq, Prod.mk.injEq] at hSuccess
    rw [hSuccess.2, hGrown.pages]
    exact hPages.separate.forget (List.nil_sublist _)

/- A property of the managers that no growth breaks. -/
def GrowKeeps (P : PageState → Prop) : Prop :=
  ∀ (h h' : Heap PageState) (cs : List HeapCell) (m : Nat) (ok : Bool),
    HeapRep h cs → P h.pages → heapGrow pageServices h m = some (ok, h') → P h'.pages

theorem growKeeps_separate : GrowKeeps fun s => s.Separate [] := by
  intro h h' cs m ok hRep hSep hGrow
  exact heapGrow_separate hRep hSep hGrow

section GrowKeeps

variable {P : PageState → Prop}
variable {h h' : Heap PageState}
variable {cs : List HeapCell}

theorem KmallocEnds.keeps (hEnds : KmallocEnds pageServices h cs size p h' cs')
    (hKeeps : GrowKeeps P) (hRep : HeapRep h cs) (hPages : P h.pages) :
    P h'.pages := by
  induction hEnds with
  | refused => exact hPages
  | corrupt => exact hPages
  | taken =>
    rw [kmallocTake_pages]
    exact hPages
  | growFailed failed _ _ hGrow =>
    have hKept := hKeeps _ _ _ _ _ hRep hPages hGrow
    exact hKept
  | grown g grown _ _ _ _ hGrow _ _ hGrown _ ih =>
    exact ih hGrown.rep (hKeeps _ _ _ _ _ hRep hPages hGrow)

theorem heapInitialize_keeps (hKeeps : GrowKeeps P) (hPages : P h.pages)
    (hInit : heapInitialize pageServices h = some h') :
    P h'.pages := by
  rcases heapInitialize_rep pageServices h with ⟨h'', hRun, -, m, ok, grown, hGrow, hSame⟩
  rw [hInit] at hRun
  rw [Option.some.inj hRun, hSame]
  exact hKeeps _ _ _ _ _ (heapReset_rep h) hPages hGrow

theorem heapStep_keeps {op : HeapOp} (hKeeps : GrowKeeps P) (hRep : HeapRep h cs)
    (hPages : P h.pages) (hStep : heapStep pageServices h op = some h') :
    P h'.pages := by
  cases op with
  | kmalloc size =>
    rcases kmalloc_ends pageServices hRep size with ⟨p, h'', cs', hRun, hEnds⟩
    simp only [heapStep, hRun, Option.map_some, Option.some.injEq] at hStep
    rw [← hStep]
    exact hEnds.keeps hKeeps hRep hPages
  | kfree pointer =>
    rcases kfree_rep hRep pointer with ⟨h'', cs', hRun, -, -, -, hSame⟩
    simp only [heapStep, hRun, Option.some.injEq] at hStep
    rw [← hStep, hSame]
    exact hPages

end GrowKeeps

/-
  An allocation that succeeds keeps the mappings there were and has mapped every page the heap
  grew by.
-/
theorem KmallocEnds.mapped (hEnds : KmallocEnds pageServices h cs size p h' cs')
    (hRep : HeapRep h cs) (hSep : h.pages.Separate []) (hSome : p ≠ 0) :
    (∀ w, vmmIsMapped w h.pages = true → vmmIsMapped w h'.pages = true) ∧
      ∀ j, cellsBytes cs ≤ 4096 * j → 4096 * j < cellsBytes cs' →
        vmmIsMapped (0xC1000000 + 4096 * j) h'.pages = true := by
  induction hEnds with
  | refused => exact absurd rfl hSome
  | corrupt => exact absurd rfl hSome
  | taken pre c post =>
    rw [kmallocTake_pages]
    refine ⟨fun w hw => hw, ?_⟩
    intro j hLow hHigh
    simp only [cellsBytes_append, cellsBytes_takeCell, cellsBytes_cons] at hLow hHigh
    omega
  | growFailed => exact absurd rfl hSome
  | @grown h cs size p h' cs' g grown _ _ _ _ hGrow hLoop _
      hGrown hRest ih =>
      have hSep' := heapGrow_separate hRep hSep hGrow
      rcases ih hGrown.rep hSep' hSome with ⟨hKept, hFresh⟩
      have hNext := hRep.next
      have hPages := hRep.pages
      have hEnd := hGrown.rep.fit.end_le
      have hBytes : cellsBytes (growCells (heapRequiredPages (alignUp size heapAlignment)) cs) =
            cellsBytes cs + 4096 * heapRequiredPages (alignUp size heapAlignment) := by
        rw [growCells, cellsBytes_mergeAll, cellsBytes_append, cellsBytes_replicate_freshCell]
      have hEnded := (growInvariant_pages hSep
        (heapRequiredPages (alignUp size heapAlignment))).loop hRep (by omega)
      rw [hLoop] at hEnded
      rcases hEnded with ⟨failed, hError, -⟩ | ⟨g', hSame, -, hGrowth⟩
      · cases hError
      obtain rfl := Except.ok.inj hSame
      refine ⟨?_, ?_⟩
      · intro w hw
        apply hKept
        rw [hGrown.pages]
        exact hGrowth.kept w hw
      · intro j hLow hHigh
        by_cases hNew :
            cellsBytes cs + 4096 * heapRequiredPages (alignUp size heapAlignment) ≤ 4096 * j
        · exact hFresh j (by omega) hHigh
        · apply hKept
          rw [hGrown.pages]
          have hMapped := hGrowth.fresh (j - h.stats.totalPages) (by omega)
          rw [hNext] at hMapped
          rwa [show 0xC1000000 + cellsBytes cs +
              4096 * (j - h.stats.totalPages) = 0xC1000000 + 4096 * j by omega] at hMapped

end LiamOS.I386
