import LiamOS.I386.Heap.Failure
import LiamOS.I386.Heap.Mapping
import LiamOS.I386.Managed

/-
  What a growth of the i386 heap that fails leaves behind.

  The pages of a growth are held until it fails, and are then unmapped and given back one by one.
  The page manager takes them back unless its bump pointer has wrapped, which it does behind a
  region that reaches the last page of the address space.

  Main declarations: `growthUndone_iff`.
-/

namespace LiamOS.I386

open Word

variable {cs : List HeapCell} {failed : Heap PageState}
variable {held held' : List Nat} {s s' : PageState} {mapped : List (Nat × Nat)}
variable {h h' : Heap PageState} {m : Pmm}

----------
-- Pages Since The Start

/-
  The managers since the start of a growth: a page that could be handed out then still can, is
  held, or is a table.
-/
structure Since (s₀ s : PageState) (held : List Nat) : Prop where
  managed : Managed s held
  initialized : s.vmm.initialized = s₀.vmm.initialized
  stop : s.pmm.allocationEnd = s₀.pmm.allocationEnd
  runs : s₀.pmm.allocationEnd < 0xFFFFF000 → s₀.pmm.nextFreePage ≠ 0 → s.pmm.nextFreePage ≠ 0
  covered : ∀ q, IsPage q → s₀.pmm.Available q →
      s.pmm.Available q ∨ q ∈ held ∨ ∃ w, s.HasTable w ∧ s.tableFor w = q

section Since

variable {s₀ s s' : PageState}
variable {held : List Nat}

theorem Since.start (hManaged : Managed s []) : Since s s [] :=
  ⟨hManaged, rfl, rfl, fun _ h => h, fun _ _ h => Or.inl h⟩

theorem Since.perm (hSince : Since s₀ s held) (hPerm : held.Perm held') : Since s₀ s held' := by
  refine ⟨hSince.managed.perm hPerm, hSince.initialized, hSince.stop, hSince.runs, ?_⟩
  intro q hq hAvailable
  rcases hSince.covered q hq hAvailable with hStill | hHeld | hTable
  · exact Or.inl hStill
  · exact Or.inr (Or.inl (hPerm.mem_iff.mp hHeld))
  · exact Or.inr (Or.inr hTable)

theorem Since.alloc (hSince : Since s₀ s held) (hFew : held.length < pmmMaxFreePages)
    (hSome : (pmmAllocPage s.pmm).1 ≠ 0) :
    Since s₀ { s with pmm := (pmmAllocPage s.pmm).2 } ((pmmAllocPage s.pmm).1 :: held) := by
  have hLent := hSince.managed.kept.alloc hSome
  have hStop := hSince.stop
  refine ⟨hSince.managed.alloc hFew hSome, hSince.initialized, hLent.stop.trans hStop, ?_, ?_⟩
  · intro hTop hNext
    exact hLent.runs (by omega) (hSince.runs hTop hNext)
  · intro q hq hAvailable
    rcases hSince.covered q hq hAvailable with hStill | hHeld | ⟨w, hw, hEq⟩
    · rcases hLent.covers q hq hStill with hTaken | hThere
      · rw [hTaken]
        exact Or.inr (Or.inl List.mem_cons_self)
      · exact Or.inl hThere
    · exact Or.inr (Or.inl (List.mem_cons_of_mem _ hHeld))
    · exact Or.inr (Or.inr ⟨w, (hasTable_withPmm s _ w).mpr hw, (tableFor_withPmm s _ w).trans hEq⟩)

theorem Since.moved (hSince : Since s₀ s held) (hMoved : PagesMoved s held s') :
    Since s₀ s' held := by
  have hStop := hSince.stop
  refine ⟨hMoved.managed, hMoved.initialized.trans hSince.initialized,
    hMoved.stop.trans hStop, ?_, ?_⟩
  · intro hTop hNext
    exact hMoved.runs (by omega) (hSince.runs hTop hNext)
  · intro q hq hAvailable
    rcases hSince.covered q hq hAvailable with hStill | hHeld | ⟨w, hw, hEq⟩
    · rcases hMoved.covers q hq hStill with hThere | hTable
      · exact Or.inl hThere
      · exact Or.inr (Or.inr hTable)
    · exact Or.inr (Or.inl hHeld)
    · obtain ⟨hStill, hSame⟩ := hMoved.tables w hw
      exact Or.inr (Or.inr ⟨w, hStill, hSame.trans hEq⟩)

end Since

----------
-- The Rollback

/-
  The managers once a list of pages is unmapped and given back: the pages can be handed out again
  unless the bump pointer has wrapped.
-/
structure Undone (s : PageState) (pages : List VirtualPage) (held : List Nat)
    (s' : PageState) : Prop where
  tables : ∀ w, (s'.HasTable w ↔ s.HasTable w) ∧ s'.tableFor w = s.tableFor w
  pageMap : ∀ page, s'.pageMap page = if page ∈ pages then none else s.pageMap page
  returned : s.pmm.nextFreePage ≠ 0 → ∀ q, s.pmm.Available q ∨ q ∈ held → s'.pmm.Available q
  lost : s.pmm.nextFreePage = 0 → s'.pmm = s.pmm

/- A page that was never mapped is given back. -/
theorem Managed.undone_free {page : Nat} (hManaged : Managed s (page :: held)) :
    Undone s [] [page] { s with pmm := pmmFreePage page s.pmm } := by
  refine ⟨fun w => ⟨hasTable_withPmm s _ w, tableFor_withPmm s _ w⟩, fun _ => rfl, ?_, ?_⟩
  · intro hNext q hq
    rw [List.mem_singleton] at hq
    exact (hManaged.available_free hNext).2 q hq
  · intro hWrapped
    exact pmmFreePage_wrapped hWrapped page

theorem Undone.trans {s'' : PageState} {pages pages' : List VirtualPage}
    (hFirst : Undone s pages held s') (hSecond : Undone s' pages' held' s'')
    (hNext : s.pmm.nextFreePage ≠ 0 → s'.pmm.nextFreePage ≠ 0) :
    Undone s (pages ++ pages') (held ++ held') s'' := by
  refine ⟨?_, ?_, ?_, ?_⟩
  · intro w
    exact ⟨(hSecond.tables w).1.trans (hFirst.tables w).1,
      (hSecond.tables w).2.trans (hFirst.tables w).2⟩
  · intro page
    rw [hSecond.pageMap, hFirst.pageMap]
    by_cases hLater : page ∈ pages'
    · rw [if_pos hLater, if_pos (List.mem_append_right pages hLater)]
    · by_cases hEarlier : page ∈ pages
      · rw [if_neg hLater, if_pos hEarlier, if_pos (List.mem_append_left pages' hEarlier)]
      · rw [if_neg hLater, if_neg hEarlier, if_neg ?_]
        rw [List.mem_append]
        exact not_or.mpr ⟨hEarlier, hLater⟩
  · intro hSome q hq
    apply hSecond.returned (hNext hSome)
    rw [List.mem_append, ← or_assoc] at hq
    rcases hq with hOld | hLater
    · exact Or.inl (hFirst.returned hSome q hOld)
    · exact Or.inr hLater
  · intro hWrapped
    have hSame := hFirst.lost hWrapped
    rw [← hSame] at hWrapped ⊢
    exact hSecond.lost hWrapped

/- The pages of a rollback in the order they were mapped. -/
theorem heapUnmapPages_undone (hManaged : Managed s (mapped.map Prod.snd))
    (hReady : mapped ≠ [] → s.vmm.initialized = true)
    (hWords : ∀ page ∈ mapped, page.1 < 4294967296) :
    Undone s (mapped.map fun page => virtualPage page.1) (mapped.map Prod.snd)
      (heapUnmapPages pageServices mapped s) := by
  induction mapped generalizing s with
  | nil =>
    refine ⟨fun w => ⟨Iff.rfl, rfl⟩, fun _ => rfl, ?_, fun _ => rfl⟩
    intro _ q hq
    exact hq.resolve_right List.not_mem_nil
  | cons page rest ih =>
    obtain ⟨v, p⟩ := page
    have hWord : v < 4294967296 := hWords (v, p) List.mem_cons_self
    have hVirtual : (UInt32.ofNat v).toNat = v := UInt32.toNat_ofNat_of_lt hWord
    have hInit := hReady nofun
    have hCleared := hManaged.unmap (UInt32.ofNat v)
    rw [hVirtual] at hCleared
    have hPages := hCleared.pageMap hInit
    rw [hVirtual] at hPages
    have hUnmapped : Undone s [virtualPage v] [] (vmmUnmapPage v s).2 := by
      refine ⟨hCleared.tables, ?_, ?_, fun _ => hCleared.pmm⟩
      · intro page
        rw [hPages]
        by_cases hPage : page = virtualPage v
        · rw [if_pos (List.mem_singleton.mpr hPage), hPage]
          exact Function.update_self _ _ _
        · rw [if_neg fun h =>
            hPage (List.mem_singleton.mp h)]
          exact Function.update_of_ne hPage _ _
      · intro _ q hq
        rw [hCleared.pmm]
        exact hq.resolve_right List.not_mem_nil
    have hFreed := hCleared.managed.undone_free
    have hRest := ih hCleared.managed.free (fun _ => hCleared.initialized.trans hInit)
        (fun page hPage =>
          hWords page (List.mem_cons_of_mem _ hPage))
    have hKeep : (vmmUnmapPage v s).2.pmm.nextFreePage ≠ 0 →
          (pmmFreePage p (vmmUnmapPage v s).2.pmm).nextFreePage ≠ 0 := by
      intro hNext
      rw [(hCleared.managed.available_free hNext).1]
      exact hNext
    have hBoth := hFreed.trans hRest hKeep
    have hAll := hUnmapped.trans hBoth (fun hNext => by rw [hCleared.pmm]; exact hNext)
    exact hAll

----------
-- A Growth That Is Given Up

/- The growth so far, seen from its start. -/
structure GrowthSince (h : Heap PageState) (k : Nat) (g : HeapGrowth PageState) : Prop where
  since : Since h.pages g.heap.pages (g.mapped.map Prod.snd)
  count : g.mapped.length = k
  first :
    (g.mapped = [] ∧ g.heap.pages = h.pages) ∨ (pmmAllocPage h.pages.pmm).1 ∈ g.mapped.map Prod.snd
  words : ∀ page ∈ g.mapped, page.1 < 4294967296
  ready : g.mapped ≠ [] → h.pages.vmm.initialized = true
  pageMap : ∀ page, g.heap.pages.pageMap page = h.pages.pageMap page ∨
        page ∈ g.mapped.map fun p => virtualPage p.1

/-
  The managers at the moment a growth is given up: `mapped` are the pages to be unmapped, `extra`
  a page that could not be mapped. Either no page is left, or nothing can be mapped yet and the
  first page taken was refused.
-/
structure Abandoned (h : Heap PageState) (s : PageState) (extra : Option Nat)
    (mapped : List (Nat × Nat)) : Prop where
  since : Since h.pages s (extra.toList ++ mapped.map Prod.snd)
  first : (extra.toList ++ mapped.map Prod.snd = [] ∧ s = h.pages) ∨
      (pmmAllocPage h.pages.pmm).1 ∈ extra.toList ++ mapped.map Prod.snd
  words : ∀ page ∈ mapped, page.1 < 4294967296
  ready : mapped ≠ [] → h.pages.vmm.initialized = true
  pageMap :
    ∀ page, s.pageMap page = h.pages.pageMap page ∨ page ∈ mapped.map fun p => virtualPage p.1
  why :
    ((pmmAllocPage s.pmm).1 = 0 ∧
        (extra.toList ++ mapped.map Prod.snd = [] ∨ h.pages.vmm.initialized = true)) ∨
      (h.pages.vmm.initialized = false ∧ extra.isSome = true ∧ s.pmm = (pmmAllocPage h.pages.pmm).2)

/- Give back the page that was not mapped. -/
def giveBack (s : PageState) : Option Nat → PageState
| none => s
| some page => { s with pmm := pmmFreePage page s.pmm }

section GrowthStep

variable {h : Heap PageState}
variable {k : Nat}
variable {g : HeapGrowth PageState}

theorem GrowthSince.start (hManaged : Managed h.pages []) : GrowthSince h 0 (HeapGrowth.start h) :=
  ⟨Since.start hManaged, rfl, Or.inl ⟨rfl, rfl⟩, nofun,
    fun hSome => absurd rfl hSome, fun _ => Or.inl rfl⟩

theorem GrowthSince.length (hSince : GrowthSince h k g) (hFew : k < 16) :
    (g.mapped.map Prod.snd).length < pmmMaxFreePages ∧
      (g.page :: g.mapped.map Prod.snd).length < pmmMaxFreePages := by
  rw [List.length_cons, List.length_map, hSince.count, pmmMaxFreePages]
  omega

/- No page is left for the next block. -/
theorem GrowthSince.exhausted (hSince : GrowthSince h k g) (hNone : g.page = 0) :
    Abandoned h g.heap.pages none g.mapped := by
  refine ⟨hSince.since, ?_, hSince.words, hSince.ready, hSince.pageMap, Or.inl ⟨hNone, ?_⟩⟩
  · rcases hSince.first with ⟨hNil, hPages⟩ | hFirst
    · rw [hNil]
      exact Or.inl ⟨rfl, hPages⟩
    · exact Or.inr hFirst
  · by_cases hNil : g.mapped = []
    · rw [hNil]
      exact Or.inl rfl
    · exact Or.inr (hSince.ready hNil)

section

variable (hSince : GrowthSince h k g) (hFew : k < 16)
variable (hWord : g.heap.stats.nextVirtualPage < 4294967296) (hSome : g.page ≠ 0)
include hSince hFew hWord hSome

/- A page is taken and offered to the mapping. -/
theorem GrowthSince.offered {done : Bool} (hMap : g.mapPage = (done, s')) :
    MapMade { g.heap.pages with pmm := (pmmAllocPage g.heap.pages.pmm).2 }
      (g.page :: g.mapped.map Prod.snd) (UInt32.ofNat g.heap.stats.nextVirtualPage) done s' ∧
      Since h.pages s' (g.page :: g.mapped.map Prod.snd) ∧
      (pmmAllocPage h.pages.pmm).1 ∈ g.page :: g.mapped.map Prod.snd := by
  obtain ⟨hLength, hLater⟩ := hSince.length hFew
  have hTaken := hSince.since.alloc hLength hSome
  have hPage := (hTaken.managed.region _ List.mem_cons_self).2.1.2
  have hMade := hTaken.managed.map hLater (UInt32.ofNat g.heap.stats.nextVirtualPage)
      (UInt32.ofNat g.page)
  have hVirtual :
      (UInt32.ofNat g.heap.stats.nextVirtualPage).toNat = g.heap.stats.nextVirtualPage :=
    UInt32.toNat_ofNat_of_lt hWord
  have hPhysical : (UInt32.ofNat g.page).toNat = g.page := UInt32.toNat_ofNat_of_lt hPage
  rw [hVirtual, hPhysical] at hMade
  change MapMade _ _ _ g.mapPage.1 g.mapPage.2 at hMade
  rw [hMap] at hMade
  refine ⟨hMade, hTaken.moved hMade.moved, ?_⟩
  rcases hSince.first with ⟨-, hPages⟩ | hFirst
  · rw [HeapGrowth.page, hPages]
    exact List.mem_cons_self
  · exact List.mem_cons_of_mem _ hFirst

/- The page taken cannot be mapped. -/
theorem GrowthSince.refused (hMap : g.mapPage = (false, s')) :
    Abandoned h s' (some g.page) g.mapped := by
  obtain ⟨hMade, hNow, hFirst⟩ := hSince.offered hFew hWord hSome hMap
  obtain ⟨hPmm, hWhy⟩ := hMade.refused rfl
  refine ⟨hNow, Or.inr hFirst, hSince.words, hSince.ready, ?_, ?_⟩
  · intro page
    have hSame := (hMade.pageMap page).resolve_right fun hDone => Bool.noConfusion hDone.1
    rw [hSame]
    exact hSince.pageMap page
  · rw [hPmm]
    cases hOff : h.pages.vmm.initialized with
    | false =>
      -- without the mapping no page was mapped before
      have hNil : g.mapped = [] := by
        by_contra hMapped
        rw [hSince.ready hMapped] at hOff
        exact Bool.noConfusion hOff
      have hPages : g.heap.pages = h.pages := by
        rcases hSince.first with ⟨-, hPages⟩ | hMember
        · exact hPages
        · rw [hNil] at hMember
          exact absurd hMember List.not_mem_nil
      rw [hPages]
      exact Or.inr ⟨rfl, rfl, rfl⟩
    | true =>
      rcases hWhy with hDown | hExhausted
      · have hSame := hSince.since.initialized
        rw [hOff] at hSame
        exact absurd (hDown.symm.trans hSame) nofun
      · exact Or.inl ⟨hExhausted, Or.inr rfl⟩

/- The page taken is mapped. -/
theorem GrowthSince.addPage (hMap : g.mapPage = (true, s')) :
    GrowthSince h (k + 1) (g.addPage g.page s') := by
  obtain ⟨hMade, hNow, hFirst⟩ := hSince.offered hFew hWord hSome hMap
  have hVirtual :
      (UInt32.ofNat g.heap.stats.nextVirtualPage).toNat = g.heap.stats.nextVirtualPage :=
    UInt32.toNat_ofNat_of_lt hWord
  have hMapped : (g.addPage g.page s').mapped =
        g.mapped ++ [(g.heap.stats.nextVirtualPage, g.page)] := rfl
  have hPerm : (g.page :: g.mapped.map Prod.snd).Perm
        ((g.addPage g.page s').mapped.map Prod.snd) := by
    rw [hMapped, List.map_append]
    exact (List.perm_append_singleton _ _).symm
  have hPages := addPage_pages g g.page s'
  refine ⟨?_, ?_, Or.inr (hPerm.mem_iff.mp hFirst), ?_, ?_, ?_⟩
  · rw [hPages]
    exact hNow.perm hPerm
  · rw [hMapped, List.length_append, hSince.count, List.length_singleton]
  · intro page hPage
    rw [hMapped, List.mem_append, List.mem_singleton] at hPage
    rcases hPage with hOld | hNew
    · exact hSince.words page hOld
    · rw [hNew]
      exact hWord
  · intro _
    rw [← hSince.since.initialized]
    exact hMade.ready rfl
  · intro page
    rw [hPages, hMapped, List.map_append, List.mem_append]
    rcases hMade.pageMap page with hSame | ⟨-, hHere⟩
    · rw [hSame]
      exact (hSince.pageMap page).imp_right Or.inl
    · rw [hVirtual] at hHere
      exact Or.inr (Or.inr (List.mem_singleton.mpr hHere))

end

end GrowthStep

theorem growInvariant_since (hManaged : Managed h.pages []) {n : Nat} (hFew : n ≤ 16)
    (hRoom : h.stats.nextVirtualPage + 4096 * n ≤ 0xC2000000) :
    GrowInvariant pageServices h n (GrowthSince h) fun pages =>
      ∃ s extra mapped, Abandoned h s extra mapped ∧
        pages = heapUnmapPages pageServices mapped (giveBack s extra) where
  start := GrowthSince.start hManaged
  fails := by
    intro k g s hTurn hGrowth hSince hFails
    have hVirtual : g.heap.stats.nextVirtualPage = h.stats.nextVirtualPage + 4096 * k := by
      rw [hGrowth.stats]
    cases hFails with
    | exhausted hNone =>
      have hSame : (pmmAllocPage g.heap.pages.pmm).2 = g.heap.pages.pmm :=
        pmmAllocPage_none hSince.since.managed.separate.pmm hNone
      dsimp only [pageServices]
      rw [hSame]
      exact ⟨g.heap.pages, none, g.mapped, hSince.exhausted hNone, rfl⟩
    | @refused s' hSome hMap =>
      exact ⟨s', some g.page, g.mapped, hSince.refused (by omega) (by omega) hSome hMap, rfl⟩
  keeps := by
    intro k g p s hTurn hGrowth hSince hMapped
    have hVirtual : g.heap.stats.nextVirtualPage = h.stats.nextVirtualPage + 4096 * k := by
      rw [hGrowth.stats]
    cases hMapped with
    | mapped hSome hMap => exact hSince.addPage (by omega) (by omega) hSome hMap

----------
-- What Is Left Behind

theorem heapUnmapPages_managed (hManaged : Managed s (mapped.map Prod.snd))
    (hWords : ∀ page ∈ mapped, page.1 < 4294967296) :
    Managed (heapUnmapPages pageServices mapped s) [] := by
  induction mapped generalizing s with
  | nil => exact hManaged
  | cons page rest ih =>
    obtain ⟨v, p⟩ := page
    have hVirtual : (UInt32.ofNat v).toNat = v :=
      UInt32.toNat_ofNat_of_lt (hWords (v, p) List.mem_cons_self)
    have hCleared := hManaged.unmap (UInt32.ofNat v)
    rw [hVirtual] at hCleared
    exact ih hCleared.managed.free
      (fun page hPage =>
        hWords page (List.mem_cons_of_mem _ hPage))

/- When an allocation leaves the bump pointer in use. -/
theorem pmmAllocPage_next (hKept : m.Kept) : (pmmAllocPage m).2.nextFreePage ≠ 0 ↔
      m.nextFreePage ≠ 0 ∧ (m.freeStack ≠ [] ∨ m.nextFreePage ≠ 0xFFFFF000) := by
  have hWord := hKept.wf.nextWord
  have hAligned := hKept.wf.nextAligned
  unfold pmmAllocPage
  cases hStack : m.freeStack with
  | cons page rest => simp
  | nil =>
    dsimp only
    by_cases hZero : m.nextFreePage = 0
    · rw [if_pos hZero]
      simp [hZero]
    · rw [if_neg hZero]
      split
      · next hFull =>
          unfold u32 at hFull
          have hTop : m.nextFreePage ≠ 0xFFFFF000 := by omega
          simp [hZero, hTop]
      · next hRoom =>
          unfold u32
          simp only [ne_eq, not_true_eq_false, false_or]
          omega

/- An allocation fails only on an empty stack. -/
theorem Pmm.Kept.stack_of_exhausted (hKept : m.Kept) (hNone : (pmmAllocPage m).1 = 0) :
    m.freeStack = [] := by
  cases hStack : m.freeStack with
  | nil => rfl
  | cons page rest =>
    have hPage := hKept.wf.stackPage page (by rw [hStack]; exact List.mem_cons_self)
    unfold pmmAllocPage at hNone
    rw [hStack] at hNone
    exact absurd hNone hPage.2.1

section Abandoned

variable {h : Heap PageState}
variable {s : PageState}
variable {extra : Option Nat}
variable {mapped : List (Nat × Nat)}

theorem Abandoned.managed (hAbandoned : Abandoned h s extra mapped) :
    Managed (heapUnmapPages pageServices mapped (giveBack s extra)) [] := by
  have hManaged := hAbandoned.since.managed
  cases extra with
  | none => exact heapUnmapPages_managed hManaged hAbandoned.words
  | some page => exact heapUnmapPages_managed hManaged.free hAbandoned.words

/- The pages given back once a growth is given up. -/
theorem Abandoned.undone (hAbandoned : Abandoned h s extra mapped) :
    Undone s (mapped.map fun page => virtualPage page.1) (extra.toList ++ mapped.map Prod.snd)
      (heapUnmapPages pageServices mapped (giveBack s extra)) := by
  have hManaged := hAbandoned.since.managed
  have hReady : mapped ≠ [] → s.vmm.initialized = true := by
    intro hSome
    rw [hAbandoned.since.initialized]
    exact hAbandoned.ready hSome
  cases extra with
  | none => exact heapUnmapPages_undone hManaged hReady hAbandoned.words
  | some page =>
    have hFreed := hManaged.undone_free
    have hRest := heapUnmapPages_undone hManaged.free hReady hAbandoned.words
    apply hFreed.trans hRest
    intro hNext
    rw [(hManaged.available_free hNext).1]
    exact hNext

/- Nothing mapped by the growth is mapped after it. -/
theorem Abandoned.mappings (hAbandoned : Abandoned h s extra mapped) {page : VirtualPage}
    {m : PageMapping}
    (hMapped : (heapUnmapPages pageServices mapped (giveBack s extra)).pageMap page = some m) :
    h.pages.pageMap page = some m := by
  rw [hAbandoned.undone.pageMap] at hMapped
  by_cases hPage : page ∈ mapped.map fun page => virtualPage page.1
  · rw [if_pos hPage] at hMapped
    exact absurd hMapped nofun
  · rw [if_neg hPage] at hMapped
    rw [← (hAbandoned.pageMap page).resolve_right hPage]
    exact hMapped

/-
  The pages are back exactly if the bump pointer has not wrapped or there is no page to give back.
  A page held behind a wrapped pointer is neither on offer nor a table.
-/
theorem Abandoned.pages_iff (hManaged : Managed h.pages [])
    (hAbandoned : Abandoned h s extra mapped) :
    (∀ p, IsPage p → h.pages.pmm.Available p →
        (heapUnmapPages pageServices mapped (giveBack s extra)).pmm.Available p ∨
          ∃ w, (heapUnmapPages pageServices mapped (giveBack s extra)).HasTable w ∧
              (heapUnmapPages pageServices mapped (giveBack s extra)).tableFor w = p) ↔
      s.pmm.nextFreePage ≠ 0 ∨ extra.toList ++ mapped.map Prod.snd = [] := by
  have hUndone := hAbandoned.undone
  have hSince := hAbandoned.since
  generalize heapUnmapPages pageServices mapped (giveBack s extra) = s' at hUndone ⊢
  constructor
  · intro hBack
    by_contra hLost
    rw [not_or, not_not] at hLost
    obtain ⟨hWrapped, hHeld⟩ := hLost
    have hFirst := hAbandoned.first.resolve_left fun hNone => hHeld hNone.1
    obtain ⟨hSome, hPage, -⟩ := hSince.managed.region _ hFirst
    have hWas :=
      ((pmmAllocPage_spec hManaged.separate.pmm).resolve_left fun hNone => hSome hNone.1).2.was
    rcases hBack _ hPage hWas with hThere | ⟨w, hTable, hEq⟩
    · rw [hUndone.lost hWrapped] at hThere
      exact hSince.managed.separate.heldTaken _ hFirst hThere
    · rw [(hUndone.tables w).2] at hEq
      exact (hSince.managed.separate.heldApart _ hFirst).2 w
        ((hUndone.tables w).1.mp hTable) hEq.symm
  · intro hReturned p hPage hWas
    rcases hSince.covered p hPage hWas with hThere | hHeld | ⟨w, hTable, hEq⟩
    · rcases Nat.eq_zero_or_pos s.pmm.nextFreePage with hWrapped | hNext
      · rw [hUndone.lost hWrapped]
        exact Or.inl hThere
      · exact Or.inl (hUndone.returned (Nat.ne_of_gt hNext) p (Or.inl hThere))
    · rcases hReturned with hNext | hNone
      · exact Or.inl (hUndone.returned hNext p (Or.inr hHeld))
      · rw [hNone] at hHeld
        exact absurd hHeld List.not_mem_nil
    · exact Or.inr ⟨w, (hUndone.tables w).1.mpr hTable, (hUndone.tables w).2.trans hEq⟩

/- When the bump pointer of the abandoned growth is in use. -/
theorem Abandoned.returns_iff (hManaged : Managed h.pages [])
    (hAbandoned : Abandoned h s extra mapped) :
    (s.pmm.nextFreePage ≠ 0 ∨ extra.toList ++ mapped.map Prod.snd = []) ↔
      h.pages.pmm.allocationEnd < 0xFFFFF000 ∨
        (h.pages.pmm.freeStack = [] ∧ h.pages.pmm.nextFreePage = 0) ∨
        (h.pages.vmm.initialized = false ∧ h.pages.pmm.nextFreePage ≠ 0 ∧
          (h.pages.pmm.freeStack ≠ [] ∨ h.pages.pmm.nextFreePage ≠ 0xFFFFF000)) := by
  have hKept := hManaged.kept
  have hSince := hAbandoned.since
  have hEmpty : h.pages.pmm.freeStack = [] →
        h.pages.pmm.nextFreePage = 0 → extra.toList ++ mapped.map Prod.snd = [] := by
    intro hStack hNext
    rcases hAbandoned.first with ⟨hNone, -⟩ | hFirst
    · exact hNone
    · have hZero : (pmmAllocPage h.pages.pmm).1 = 0 := by
        unfold pmmAllocPage
        rw [hStack]
        dsimp only
        rw [if_pos hNext]
      exact absurd hZero (hSince.managed.region _ hFirst).1
  constructor
  · intro hReturned
    by_contra hLost
    rw [not_or, not_or, Nat.not_lt] at hLost
    obtain ⟨hTop, hSome, hOn⟩ := hLost
    rcases hAbandoned.why with ⟨hNone, hHow⟩ | ⟨hOff, hExtra, hPmm⟩
    · have hStop := hSince.stop
      have hWrapped := hSince.managed.kept.next_of_exhausted (by omega) hNone
      have hHeld := hReturned.resolve_left (not_not.mpr hWrapped)
      rcases hAbandoned.first with ⟨-, hSame⟩ | hFirst
      · rw [hSame] at hNone hWrapped
        apply hSome
        exact ⟨hKept.stack_of_exhausted hNone, hWrapped⟩
      · rw [hHeld] at hFirst
        exact absurd hFirst List.not_mem_nil
    · have hNext : s.pmm.nextFreePage ≠ 0 := by
        apply hReturned.resolve_right
        intro hNone
        rw [List.append_eq_nil_iff] at hNone
        rw [Option.toList_eq_nil_iff.mp hNone.1] at hExtra
        exact Bool.noConfusion hExtra
      rw [hPmm] at hNext
      exact hOn ⟨hOff, (pmmAllocPage_next hKept).mp hNext⟩
  · rintro (hLow | ⟨hStack, hNext⟩ | ⟨hOff, hNext⟩)
    · by_cases hNext : h.pages.pmm.nextFreePage = 0
      · have hStack := (hKept.wrapped hNext).resolve_right (by omega)
        exact Or.inr (hEmpty hStack hNext)
      · exact Or.inl (hSince.runs hLow hNext)
    · exact Or.inr (hEmpty hStack hNext)
    · rcases hAbandoned.why with ⟨-, hHow⟩ | ⟨-, -, hPmm⟩
      · refine Or.inr (hHow.resolve_right ?_)
        rw [hOff]
        nofun
      · rw [hPmm]
        exact Or.inl ((pmmAllocPage_next hKept).mpr hNext)

end Abandoned

/- How a growth that takes pages fails. -/
theorem heapGrow_abandoned (hRep : HeapRep h cs) (hManaged : Managed h.pages []) {m : Nat}
    (hFail : heapGrow pageServices h m = some (false, failed)) :
    GrowFailed h failed ∧
      (((16 < heapRequiredPages m ∨
            0xC2000000 < h.stats.nextVirtualPage + 4096 * heapRequiredPages m) ∧
          failed.pages = h.pages) ∨
        (¬ 16 < heapRequiredPages m ∧
          ¬ 0xC2000000 < h.stats.nextVirtualPage + 4096 * heapRequiredPages m ∧
          ∃ s extra mapped, Abandoned h s extra mapped ∧
              failed.pages = heapUnmapPages pageServices mapped (giveBack s extra))) := by
  rcases heapGrow_rule hRep fun hFits => growInvariant_since hManaged hFits.1 hFits.2 with
    ⟨failed', hSame, hFailed, hHow⟩ | ⟨g, grown, hSuccess, -⟩
  · rw [hFail, Option.some.injEq, Prod.mk.injEq] at hSame
    obtain rfl := hSame.2
    refine ⟨hFailed, hHow.imp (And.imp_left fun hNot => ?_) fun hLeft => ?_⟩
    · unfold GrowFits at hNot
      omega
    · exact ⟨Nat.not_lt.mpr hLeft.1.1, Nat.not_lt.mpr hLeft.1.2, hLeft.2⟩
  · rw [hFail] at hSuccess
    cases hSuccess

----------
-- Calls Of The Heap

theorem heapGrow_managed (hRep : HeapRep h cs) (hManaged : Managed h.pages []) {m : Nat} {ok : Bool}
    (hGrow : heapGrow pageServices h m = some (ok, h')) :
    Managed h'.pages [] := by
  rcases heapGrow_rule hRep fun hFits => growInvariant_since hManaged hFits.1 hFits.2 with
    ⟨failed, hFail, -, hHow⟩ | ⟨g, grown, hSuccess, -, -, hGrown, hSince⟩
  · rw [hGrow, Option.some.injEq, Prod.mk.injEq] at hFail
    rw [hFail.2]
    rcases hHow with ⟨-, hSame⟩ | ⟨-, s, extra, mapped, hAbandoned, hPages⟩
    · rw [hSame]
      exact hManaged
    · rw [hPages]
      exact hAbandoned.managed
  · rw [hGrow, Option.some.injEq, Prod.mk.injEq] at hSuccess
    rw [hSuccess.2, hGrown.pages]
    exact hSince.since.managed.forget (List.nil_sublist _)

theorem growKeeps_managed : GrowKeeps fun s => Managed s [] := by
  intro h h' cs m ok hRep hManaged hGrow
  exact heapGrow_managed hRep hManaged hGrow

/- A heap of cells over managed pages. -/
structure HeapManaged (h : Heap PageState) : Prop where
  cells : ∃ cs, HeapReady h cs
  managed : Managed h.pages []

theorem heapInitialize_managed (hManaged : Managed h.pages [])
    (hInit : heapInitialize pageServices h = some h') :
    HeapManaged h' := by
  rcases heapInitialize_ready pageServices h with ⟨h'', hRun, hReady⟩
  rw [hInit, Option.some.injEq] at hRun
  rw [← hRun] at hReady
  exact ⟨hReady, heapInitialize_keeps growKeeps_managed hManaged hInit⟩

theorem heapStep_managed (h : Heap PageState) (op : HeapOp) (hHeap : HeapManaged h) :
    ∃ h', heapStep pageServices h op = some h' ∧ HeapManaged h' := by
  rcases heapStep_ready pageServices h op hHeap.cells with ⟨h', hStep, hReady⟩
  rcases hHeap.cells with ⟨cs, hRep, -⟩
  exact ⟨h', hStep, hReady, heapStep_keeps growKeeps_managed hRep hHeap.managed hStep⟩

----------
-- Failed Growth

/-
  A failed growth is undone: the block list and the figures that place it are as they were, no
  mapping is new, and a page that was on offer is on offer again unless it became a page table.
-/
structure GrowthUndone (h failed : Heap PageState) : Prop where
  head : failed.head = h.head
  blocks :
    ∀ addresses, BlockList h.blocks h.head addresses → ∀ a ∈ addresses, failed.blocks a = h.blocks a
  nextVirtualPage : failed.stats.nextVirtualPage = h.stats.nextVirtualPage
  totalPages : failed.stats.totalPages = h.stats.totalPages
  totalBytes : failed.stats.totalBytes = h.stats.totalBytes
  mappings : ∀ page m, failed.pages.pageMap page = some m → h.pages.pageMap page = some m
  pages : ∀ p, IsPage p → h.pages.pmm.Available p →
      failed.pages.pmm.Available p ∨ ∃ w, failed.pages.HasTable w ∧ failed.pages.tableFor w = p

/-
  The pages of a growth are taken back: it is refused before it takes one, the managed memory ends
  below the last page, there is no page at all, or nothing can be mapped yet and the one page
  taken is not the last.
-/
def GrowthReturns (h : Heap PageState) (minimumSize : Nat) : Prop :=
  16 < heapRequiredPages minimumSize ∨
    0xC2000000 < h.stats.nextVirtualPage + 4096 * heapRequiredPages minimumSize ∨
    h.pages.pmm.allocationEnd < 0xFFFFF000 ∨
    (h.pages.pmm.freeStack = [] ∧ h.pages.pmm.nextFreePage = 0) ∨
    (h.pages.vmm.initialized = false ∧ h.pages.pmm.nextFreePage ≠ 0 ∧
      (h.pages.pmm.freeStack ≠ [] ∨ h.pages.pmm.nextFreePage ≠ 0xFFFFF000))

/- The block list survives every failed growth. -/
theorem GrowFailed.undone (hFailed : GrowFailed h failed) (hRep : HeapRep h cs)
    (hMappings : ∀ page m, failed.pages.pageMap page = some m → h.pages.pageMap page = some m)
    (hPages : ∀ p, IsPage p → h.pages.pmm.Available p →
        failed.pages.pmm.Available p ∨ ∃ w, failed.pages.HasTable w ∧ failed.pages.tableFor w = p) :
    GrowthUndone h failed := by
  have hKept := hFailed.kept hRep
  refine ⟨hFailed.head, hKept.blocks, hKept.nextVirtualPage,
    hKept.totalPages, ?_, hMappings, hPages⟩
  rw [hFailed.stats]
  rfl

/- A growth that was given up, by the pages it started from. -/
theorem GrowFailed.undone_iff (hFailed : GrowFailed h failed) (hRep : HeapRep h cs)
    (hManaged : Managed h.pages []) {extra : Option Nat} (hAbandoned : Abandoned h s extra mapped)
    (hPages : failed.pages = heapUnmapPages pageServices mapped (giveBack s extra)) :
    GrowthUndone h failed ↔ h.pages.pmm.allocationEnd < 0xFFFFF000 ∨
        (h.pages.pmm.freeStack = [] ∧ h.pages.pmm.nextFreePage = 0) ∨
        (h.pages.vmm.initialized = false ∧ h.pages.pmm.nextFreePage ≠ 0 ∧
          (h.pages.pmm.freeStack ≠ [] ∨ h.pages.pmm.nextFreePage ≠ 0xFFFFF000)) := by
  rw [← hAbandoned.returns_iff hManaged, ← hAbandoned.pages_iff hManaged, ← hPages]
  constructor
  · exact fun hUndone => hUndone.pages
  · apply hFailed.undone hRep
    rw [hPages]
    exact fun _ _ => hAbandoned.mappings

/-
  A machine whose page manager hands out the pages from `next` up to `stop`, with no page table
  yet.
-/
def blankPages (next stop : Nat) : PageState :=
  { smallPages with
    pmm :=
      { allocationStart := 0x200000
        allocationEnd := stop
        nextFreePage := next
        allocatedPages := 0
        freeStack := [] } }

theorem blankPages_managed {next stop : Nat} (hAligned : next % 4096 = 0) (hLow : 0x200000 ≤ next)
    (hNext : next ≤ stop) (hStop : stop < 4294967296) :
    Managed (blankPages next stop) [] := by
  have hNone : ∀ w, ¬ (blankPages next stop).HasTable w := by
    intro w hw
    exact absurd hw (by simp [PageState.HasTable, blankPages, smallPages, entryPresent])
  have hNil := @List.forall_mem_nil Nat
  have hWf : (blankPages next stop).pmm.Wf := by
    refine ⟨hAligned, ?_, List.nodup_nil, hNil _, hNil _⟩
    change next < 4294967296
    omega
  have hDirectory : 0x100000 % 4096 = 0 := by decide
  refine ⟨⟨hWf, hDirectory, ?_,
      fun w hw => absurd hw (hNone w), fun w hw => absurd hw (hNone w), List.nodup_nil, hNil _,
      hNil _⟩, fun v _ hv => absurd hv (hNone v), fun w hw => absurd hw (hNone w),
    ⟨hWf, hStop, hNil _, fun _ => ⟨hLow, hNext⟩, fun _ => Or.inl rfl⟩, hNil _, Nat.zero_le _⟩
  rintro (hStack | ⟨-, hLe⟩)
  · exact absurd hStack List.not_mem_nil
  · change next ≤ 0x100000 at hLe
    omega

/- Every run of the heap keeps its cells and its pages. -/
theorem heapRun_managed (h : Heap PageState) (hManaged : Managed h.pages []) (ops : List HeapOp) :
    ∃ h₀ h', heapInitialize pageServices h = some h₀ ∧
        Transition.run (heapStep pageServices) h₀ ops = some h' ∧
        HeapManaged h' := by
  rcases heapInitialize_ready pageServices h with ⟨h₀, hInit, -⟩
  rcases Transition.run_total heapStep_managed (heapInitialize_managed hManaged hInit) ops with
    ⟨h', hRun, hFinal⟩
  exact ⟨h₀, h', hInit, hRun, hFinal⟩

theorem heapRun_managed_threePages :
    ∃ h₀ h', heapInitialize pageServices (bssHeap (blankPages 0x200000 0x203000)) = some h₀ ∧
        Transition.run (heapStep pageServices) h₀ [.kmalloc 64, .kfree 0] = some h' ∧
        HeapManaged h' :=
  heapRun_managed _ (blankPages_managed (by decide) (by decide) (by decide) (by decide)) _

end LiamOS.I386
