import LiamOS.X64.Process.Reaping

/-
  Creations that fail.

  A creation takes eleven pages for the address space, clones the kernel's tables, checks the
  tables it has written and takes a page for the kernel stack. It gives its pages back where a
  page or the paging context is missing, but keeps them in a slot that is not in use where the
  check of the tables fails.

  The memory and the table of processes are arbitrary here; of the free pages it is known that
  they are distinct page addresses beside the kernel's tables.

  Main declarations: `failureKeeps_iff`.
-/

namespace LiamOS.X64

open Word PageTable

variable {pmm : Pmm} {n p : Nat} {w : SlotState}

----------
-- Taking Pages

theorem pmmAllocPage_off (hOff : pmm.initialized = false) : pmmAllocPage pmm = (0, pmm) :=
  if_pos hOff

theorem takePages_off {names : List SpacePage} (hNodup : names.Nodup) (pages : SpacePage → Nat)
    (hOff : pmm.initialized = false) :
    (∀ p ∈ names, (takePages names pages pmm).1 p = 0) ∧ (takePages names pages pmm).2 = pmm := by
  induction names generalizing pages with
  | nil => exact ⟨nofun, rfl⟩
  | cons name names ih =>
    obtain ⟨hFresh, hRest⟩ := List.nodup_cons.mp hNodup
    rw [takePages, pmmAllocPage_off hOff]
    obtain ⟨hZero, hPmm⟩ := ih hRest (Function.update pages name 0)
    refine ⟨?_, hPmm⟩
    intro p hp
    rcases List.mem_cons.mp hp with rfl | hOld
    · rw [(takePages_spec hRest _ _).1 p hFresh, Function.update_self]
    · exact hZero p hOld

/- A page that is not zero is one of the top pages. -/
theorem mem_take_iff {stack : List Nat} (hSome : p ≠ 0) :
    p ∈ (List.range n).map (fun k => stack.getD k 0) ↔ p ∈ stack.take n := by
  rw [List.mem_map, List.mem_take_iff_getElem]
  constructor
  · rintro ⟨k, hk, rfl⟩
    have hLength : k < stack.length := by
      by_contra hLong
      exact hSome (List.getD_eq_default _ _ (by omega))
    refine ⟨k, ?_, (List.getD_eq_getElem _ _ hLength).symm⟩
    exact lt_min (List.mem_range.mp hk) hLength
  · rintro ⟨k, hk, rfl⟩
    exact ⟨k, List.mem_range.mpr (lt_min_iff.mp hk).1, List.getD_eq_getElem _ _ _⟩

----------
-- Giving Pages Back

/- A page that is taken back when it is not free. -/
@[mk_iff]
structure Returnable (pmm : Pmm) (page : Nat) : Prop where
  nonzero : page ≠ 0
  low : pmm.lowestPage ≤ page
  high : page ≤ pmm.highestPage

theorem mem_pmmFreePage {page : Nat} (hInit : pmm.initialized = true) (hAligned : PageAligned page)
    (hRoom : pmm.stack.length < pmm.trackedPages) :
    p ∈ (pmmFreePage page pmm).2.stack ↔ p ∈ pmm.stack ∨ p = page ∧ Returnable pmm p := by
  rcases pmmFreePage_cases page pmm with hAccepted | hRefused
  · rw [pmmFreePage_accepted hAccepted, List.mem_cons, or_comm]
    refine or_congr_right (and_iff_left_of_imp ?_).symm
    rintro rfl
    exact ⟨hAccepted.nonzero, hAccepted.low, hAccepted.high⟩
  · rw [hRefused.stack]
    refine (or_iff_left_of_imp ?_).symm
    rintro ⟨rfl, hReturnable⟩
    by_contra hFresh
    have hAccepted : Accepted p pmm :=
      ⟨hInit, hReturnable.nonzero, hAligned, hReturnable.low, hReturnable.high, hFresh, hRoom⟩
    have hResult := hRefused.result
    rw [pmmFreePage_accepted hAccepted] at hResult
    cases hResult

theorem Returnable.congr {pmm' : Pmm} (hSame : SameRange pmm pmm') (page : Nat) :
    Returnable pmm' page ↔ Returnable pmm page := by
  rw [returnable_iff, returnable_iff, hSame.lowest, hSame.highest]

theorem mem_releasePages {pages : List Nat} {p : Nat} (hInit : pmm.initialized = true)
    (hAligned : ∀ q ∈ pages, PageAligned q)
    (hRoom : (nonzeroPages pages).length + pmm.stack.length ≤ pmm.trackedPages) :
    p ∈ (releasePages pages pmm).stack ↔ p ∈ pmm.stack ∨ p ∈ pages ∧ Returnable pmm p := by
  induction pages generalizing pmm with
  | nil =>
    rw [releasePages]
    simp only [List.not_mem_nil, false_and, or_false]
  | cons page pages ih =>
    have hPage := hAligned page List.mem_cons_self
    have hRest := fun q hq => hAligned q (List.mem_cons_of_mem _ hq)
    rw [releasePages]
    split
    next hSome =>
      rw [nonzeroPages_cons hSome, List.length_cons] at hRoom
      have hSame := pmmFreePage_sameRange page pmm
      have hLonger := (pmmFreePage_subperm page pmm).length_le
      rw [List.length_cons] at hLonger
      rw [ih (hSame.initialized.trans hInit) hRest (by rw [hSame.tracked]; omega),
        mem_pmmFreePage hInit hPage (by omega),
        Returnable.congr hSame, List.mem_cons, or_and_right, or_assoc]
    next hZero =>
      rw [not_not] at hZero
      rw [hZero, nonzeroPages_zero] at hRoom
      rw [ih hInit hRest hRoom, List.mem_cons, hZero]
      -- the page zero is never taken back
      refine or_congr_right (and_congr_left fun hBack => ?_)
      exact (or_iff_right hBack.nonzero).symm

----------
-- The Pages Of A New Process

/-
  The free pages are distinct page addresses beside the tables of the kernel, and the page manager
  has room for them.
-/
structure FreePages (builder : BuilderState) (pmm : Pmm) : Prop where
  nodup : pmm.stack.Nodup
  aligned : ∀ p ∈ pmm.stack, PageAligned p
  bound : ∀ p ∈ pmm.stack, p < 18446744073709551616
  room : pmm.stack.length ≤ pmm.trackedPages
  tables : ∀ b, PageAligned (builder.tables b)
  apart : ∀ b, builder.tables b ∉ pmm.stack

section Slot

variable {builder : BuilderState}
variable {w w' : SlotState}

section

variable (hInit : w.pmm.initialized = true)
include hInit

theorem taken_codePt :
    w.taken.process.pages .userCodePtPage = w.pmm.stack.getD 4 0 := by
  have hFifth := congrArg (fun pages => pages[4]?) (taken_map hInit).1
  exact Option.some.inj hFifth

theorem taken_cr3 :
    w.taken.process.pages .cr3 = w.pmm.stack.getD 0 0 := by
  have hFirst := congrArg (fun pages => pages[0]?) (taken_map hInit).1
  exact Option.some.inj hFirst

/- Pages that are taken and not zero were free. -/
theorem taken_mem (hSome : p ≠ 0) :
    p ∈ addressSpacePages.map w.taken.process.pages ↔ p ∈ w.pmm.stack.take 11 := by
  rw [(taken_map hInit).1]
  exact mem_take_iff hSome

end

theorem taken_aligned (hFree : FreePages builder w.pmm) (hInit : w.pmm.initialized = true) :
    ∀ p ∈ addressSpacePages.map w.taken.process.pages, PageAligned p := by
  intro p hp
  by_cases hZero : p = 0
  · rw [hZero]
    exact Nat.zero_mod _
  · exact hFree.aligned p (List.mem_of_mem_take ((taken_mem hInit hZero).mp hp))

theorem FreePages.spaceFits (hFree : FreePages builder w.pmm) (hInit : w.pmm.initialized = true)
    (hUsable : Usable w.pmm 11) :
    SpaceFits builder w.taken.process.pages := by
  have hFilled := (taken_filled_iff hInit).mpr hUsable
  have hFreed : ∀ p, w.taken.process.pages p ∈ w.pmm.stack := by
    intro p
    refine List.mem_of_mem_take ((taken_mem hInit (hFilled p)).mp ?_)
    exact List.mem_map_of_mem (mem_addressSpacePages p)
  have hSubperm := (takePages_spec nodup_addressSpacePages w.process.pages w.pmm).2
  have hNodup : (addressSpacePages.map w.taken.process.pages).Nodup := by
    have hAll := nodup_of_subperm hSubperm hFree.nodup
    have hNonzero := hFilled.nonzeroPages_eq
    change (nonzeroPages (addressSpacePages.map w.taken.process.pages) ++ _).Nodup at hAll
    rw [hNonzero] at hAll
    exact (List.nodup_append.mp hAll).1
  refine ⟨⟨?_, fun p => hFree.aligned _ (hFreed p)⟩, hFilled, fun p => hFree.bound _ (hFreed p), ?_⟩
  · intro p q hSame
    exact List.inj_on_of_nodup_map hNodup (mem_addressSpacePages p) (mem_addressSpacePages q) hSame
  · intro b p hSame
    exact hFree.apart b (hSame ▸ hFreed p)

----------
-- Creations That Give Back

/- The slot after it has given back the pages it took. -/
structure GivenBack (w : SlotState) (n : Nat) (w' : SlotState) : Prop where
  free :
    ∀ p, p ∈ w'.pmm.stack ↔ p ∈ w.pmm.stack.drop n ∨ p ∈ w.pmm.stack.take n ∧ Returnable w.pmm p
  owned : w'.process.ownedPages = []
  state : w'.process.state = w.process.state

/- All pages are free again if each of them is taken back. -/
theorem GivenBack.free_iff (hBack : GivenBack w n w') (hNodup : w.pmm.stack.Nodup) :
    (∀ p, p ∈ w'.pmm.stack ↔ p ∈ w.pmm.stack) ↔ ∀ p ∈ w.pmm.stack.take n, Returnable w.pmm p := by
  have hSplit : ∀ p, p ∈ w.pmm.stack ↔ p ∈ w.pmm.stack.take n ∨ p ∈ w.pmm.stack.drop n := by
    intro p
    rw [← List.mem_append, List.take_append_drop]
  constructor
  · intro hSame p hp
    have hFree := (hSame p).mpr ((hSplit p).mpr (Or.inl hp))
    rcases (hBack.free p).mp hFree with hRest | ⟨-, hReturnable⟩
    · rw [← List.take_append_drop n w.pmm.stack] at hNodup
      exact absurd hRest (List.disjoint_of_nodup_append hNodup hp)
    · exact hReturnable
  · intro hTop p
    rw [hBack.free, hSplit p]
    constructor
    · rintro (hRest | ⟨hTaken, -⟩)
      · exact Or.inr hRest
      · exact Or.inl hTaken
    · rintro (hTaken | hRest)
      · exact Or.inr ⟨hTaken, hTop p hTaken⟩
      · exact Or.inl hRest

/- A slot with the taken pages and the rest of the stack. -/
structure HoldsTaken (w : SlotState) (n : Nat) (w₁ : SlotState) : Prop where
  pages : w₁.process.pages = w.taken.process.pages
  pmm : w₁.pmm = { w.pmm with stack := w.pmm.stack.drop n }
  state : w₁.process.state = w.process.state
  kernelStack : w₁.process.kernelStackPage = 0

theorem HoldsTaken.release {w₁ : SlotState} (hTaken : HoldsTaken w n w₁)
    (hFree : FreePages builder w.pmm) (hInit : w.pmm.initialized = true) (hn : 11 ≤ n)
    (hNone : ∀ p ∈ w.pmm.stack.take n, p ≠ 0 → p ∈ w.pmm.stack.take 11) :
    GivenBack w n (releaseAddressSpace w₁) := by
  have hLength : (nonzeroPages (addressSpacePages.map w₁.process.pages)).length +
        (w.pmm.stack.drop 11).length ≤ w.pmm.stack.length := by
    have hSubperm := (takePages_spec nodup_addressSpacePages w.process.pages w.pmm).2.length_le
    rw [show (takePages _ _ _).2 = _ from (taken_map hInit).2, List.length_append] at hSubperm
    rw [hTaken.pages]
    exact hSubperm
  have hRoom := hFree.room
  rw [List.length_drop] at hLength
  refine ⟨?_, ownedPages_eq_nil (fun _ => rfl) ?_, hTaken.state⟩
  · intro p
    show p ∈ (releasePages (addressSpacePages.map w₁.process.pages) w₁.pmm).stack ↔ _
    rw [mem_releasePages]
    · rw [hTaken.pmm, hTaken.pages]
      refine or_congr_right ?_
      constructor
      · rintro ⟨hPage, hBack⟩
        have hTop := (taken_mem hInit hBack.nonzero).mp hPage
        exact ⟨(List.take_prefix_take_left hn).subset hTop, hBack.nonzero, hBack.low, hBack.high⟩
      · rintro ⟨hPage, hBack⟩
        have hTop := hNone p hPage hBack.nonzero
        exact ⟨(taken_mem hInit hBack.nonzero).mpr hTop, hBack.nonzero, hBack.low, hBack.high⟩
    · rw [hTaken.pmm]
      exact hInit
    · rw [hTaken.pages]
      exact taken_aligned hFree hInit
    · rw [hTaken.pmm]
      dsimp only
      rw [List.length_drop]
      omega
  · exact hTaken.kernelStack

theorem allocateAddressSpace_refused {context : PagingContext} (hInit : w.pmm.initialized = true)
    (hStack : w.process.kernelStackPage = 0)
    (hRefused : ¬ (context.initialized = true ∧ Usable w.pmm 11)) :
    ∃ w₁,
      allocateAddressSpace context w = (false, releaseAddressSpace w₁) ∧ HoldsTaken w 11 w₁ := by
  have hPmm := (taken_map hInit).2
  have hAny := w.taken.any_zero_iff
  rw [taken_filled_iff hInit] at hAny
  by_cases hUsable : Usable w.pmm 11
  · have hUnset : context.initialized = false := by simpa [hUsable] using hRefused
    exact ⟨_, (if_neg fun h => hAny.mp h hUsable).trans (if_pos hUnset), ⟨rfl, hPmm, rfl, hStack⟩⟩
  · exact ⟨w.taken, if_pos (hAny.mpr hUsable), ⟨rfl, hPmm, rfl, hStack⟩⟩

/- Without the pages or the context all is given back. -/
theorem allocateProcess_exhausted {context : PagingContext} (hFree : FreePages builder w.pmm)
    (hInit : w.pmm.initialized = true) (hStack : w.process.kernelStackPage = 0)
    (hRefused : ¬ (context.initialized = true ∧ Usable w.pmm 11)) :
    (allocateProcess context w).1 = false ∧ GivenBack w 11 (allocateProcess context w).2 := by
  obtain ⟨w₁, hSpace, hTaken⟩ := allocateAddressSpace_refused hInit hStack hRefused
  unfold allocateProcess
  rw [hSpace]
  exact ⟨rfl, hTaken.release hFree hInit (le_refl 11) fun _ hTop _ => hTop⟩

/- A page manager that is not set up hands out nothing. -/
theorem allocateProcess_off (context : PagingContext) (hOff : w.pmm.initialized = false)
    (hStack : w.process.kernelStackPage = 0) :
    (allocateProcess context w).1 = false ∧ (allocateProcess context w).2.pmm = w.pmm ∧
      (allocateProcess context w).2.process.ownedPages = [] ∧
      (allocateProcess context w).2.process.state = w.process.state := by
  obtain ⟨hZero, hPmm⟩ := takePages_off nodup_addressSpacePages w.process.pages hOff
  have hNot : ¬ w.taken.Filled := fun hFilled =>
    hFilled .cr3 (hZero .cr3 (mem_addressSpacePages .cr3))
  have hSpace : allocateAddressSpace context w = (false, releaseAddressSpace w.taken) :=
    if_pos (w.taken.any_zero_iff.mpr hNot)
  have hReleased :
      ∀ (pages : List Nat) (pmm : Pmm), (∀ p ∈ pages, p = 0) → releasePages pages pmm = pmm := by
    intro pages pmm hNone
    induction pages with
    | nil => rfl
    | cons page pages ih =>
      rw [releasePages, if_neg (not_not.mpr (hNone page List.mem_cons_self))]
      exact ih fun p hp => hNone p (List.mem_cons_of_mem _ hp)
  unfold allocateProcess
  rw [hSpace]
  refine ⟨rfl, ?_, ownedPages_eq_nil (fun _ => rfl) hStack, rfl⟩
  refine (hReleased _ _ ?_).trans hPmm
  intro page hPage
  obtain ⟨p, hp, rfl⟩ := List.mem_map.mp hPage
  exact hZero p hp

----------
-- Creations That Come To The Check

/- An address space that passes its checks. -/
structure ClonedSpace (builder : BuilderState) (w : SlotState) : Prop where
  fits : SpaceFits builder w.process.pages
  opened : SpaceOpened w.process
  cloned : KernelCloned builder w.process.pages w.mem
  present : KernelTablesPresent builder (w.process.pages .userCodePtPage) w.mem

section Checked

variable (hFree : FreePages builder w.pmm)
variable (hInit : w.pmm.initialized = true)
variable (hContext : (setPagingContext builder).initialized = true)
variable (hUsable : Usable w.pmm 11)

include hFree hInit hContext hUsable

theorem allocateAddressSpace_checked : (allocateAddressSpace (setPagingContext builder) w).2 =
        w.taken.opened (setPagingContext builder) ∧
      ((allocateAddressSpace (setPagingContext builder) w).1 = true ↔
        KernelTablesPresent builder (w.pmm.stack.getD 4 0) w.mem) := by
  have hFits := hFree.spaceFits hInit hUsable
  obtain ⟨-, -, hReady⟩ := opened_written hFree.tables hContext hFits
  rw [taken_codePt hInit] at hReady
  have hFilled := (taken_filled_iff hInit).mpr hUsable
  rw [allocateAddressSpace_eq hContext, if_neg fun h => w.taken.any_zero_iff.mp h hFilled]
  exact ⟨rfl, hReady⟩

/- Where the check fails the slot keeps the pages. -/
theorem allocateProcess_unchecked
    (hMissing : ¬ KernelTablesPresent builder (w.pmm.stack.getD 4 0) w.mem) :
    (allocateProcess (setPagingContext builder) w).1 = false ∧
      (allocateProcess (setPagingContext builder) w).2.process.state = w.process.state ∧
      (allocateProcess (setPagingContext builder) w).2.process.pages .cr3 = w.pmm.stack.getD 0 0 ∧
      (allocateProcess (setPagingContext builder) w).2.pmm.stack = w.pmm.stack.drop 11 := by
  obtain ⟨hSlot, hReady⟩ := allocateAddressSpace_checked hFree hInit hContext hUsable
  have hFailed : (allocateAddressSpace (setPagingContext builder) w).1 = false := by
    rw [← Bool.not_eq_true, hReady]
    exact hMissing
  unfold allocateProcess
  dsimp only
  have hPages :
      (w.taken.opened (setPagingContext builder)).process.pages = w.taken.process.pages := rfl
  have hPmm : (w.taken.opened (setPagingContext builder)).pmm = w.taken.pmm := rfl
  rw [if_pos hFailed, hSlot]
  refine ⟨rfl, rfl, ?_, ?_⟩
  · rw [hPages]
    exact taken_cr3 hInit
  · rw [hPmm, (taken_map hInit).2]

/- Where no page is left for the stack all is given back. -/
theorem allocateProcess_stackless (hStack : w.process.kernelStackPage = 0)
    (hPresent : KernelTablesPresent builder (w.pmm.stack.getD 4 0) w.mem)
    (hShort : ¬ Usable w.pmm 12) :
    (allocateProcess (setPagingContext builder) w).1 = false ∧
      GivenBack w 12 (allocateProcess (setPagingContext builder) w).2 := by
  obtain ⟨hSlot, hReady⟩ := allocateAddressSpace_checked hFree hInit hContext hUsable
  have hOk := hReady.mpr hPresent
  have hLast : w.pmm.stack.getD 11 0 = 0 := by
    by_contra hSome
    refine hShort fun k hk => ?_
    by_cases hTwelfth : k = 11
    · rw [hTwelfth]
      exact hSome
    · exact hUsable k (by omega)
  have hTop : pmmAllocPage (w.taken.opened (setPagingContext builder)).pmm =
        (0, { w.pmm with stack := w.pmm.stack.drop 12 }) := by
    rw [opened_top hInit, hLast]
  have hKernel : allocateKernelStack (w.taken.opened (setPagingContext builder)) =
        (false,
          { w.taken.opened (setPagingContext builder) with
            pmm := { w.pmm with stack := w.pmm.stack.drop 12 } }) := by
    unfold allocateKernelStack
    rw [hTop]
    rfl
  unfold allocateProcess
  dsimp only
  rw [if_neg (by rw [hOk]; decide), hSlot, hKernel, if_pos rfl]
  refine ⟨rfl, HoldsTaken.release ⟨rfl, ?_, rfl, rfl⟩ hFree hInit (by decide) ?_⟩
  · show releasePages [w.process.kernelStackPage] _ = _
    rw [hStack]
    rfl
  · intro p hp hSome
    rw [← mem_take_iff hSome] at hp ⊢
    obtain ⟨k, hk, rfl⟩ := List.mem_map.mp hp
    rw [List.mem_range] at hk
    refine List.mem_map_of_mem (List.mem_range.mpr ?_)
    by_contra hTwelfth
    have hEq : k = 11 := by omega
    rw [hEq] at hSome
    exact hSome hLast

/- With twelve pages the process is made. -/
theorem allocateProcess_full (hPresent : KernelTablesPresent builder (w.pmm.stack.getD 4 0) w.mem)
    (hEnough : Usable w.pmm 12) :
    (allocateProcess (setPagingContext builder) w).1 = true ∧
      ClonedSpace builder (allocateProcess (setPagingContext builder) w).2 := by
  obtain ⟨hSlot, hReady⟩ := allocateAddressSpace_checked hFree hInit hContext hUsable
  have hOk := hReady.mpr hPresent
  have hFits := hFree.spaceFits hInit hUsable
  obtain ⟨hOnly, hCloned, -⟩ := opened_written hFree.tables hContext hFits
  have hSome := hEnough 11 (by decide)
  have hLast := getD_mem_drop hSome
  generalize hPage : w.pmm.stack.getD 11 0 = page at hSome hLast
  have hStack : page ∈ w.pmm.stack := List.mem_of_mem_drop hLast
  have hTop := opened_top hInit (setPagingContext builder)
  rw [hPage] at hTop
  -- the page of the stack is none of the taken ones
  have hOther : ∀ p, w.taken.process.pages p ∉ [page] := by
    intro p hSame
    have hTaken :=
      (taken_mem hInit (hFits.nonzero p)).mp (List.mem_map_of_mem (mem_addressSpacePages p))
    rw [List.mem_singleton.mp hSame] at hTaken
    have hNodup := hFree.nodup
    rw [← List.take_append_drop 11 w.pmm.stack] at hNodup
    exact List.disjoint_of_nodup_append hNodup hTaken hLast
  have hTables : ∀ b, builder.tables b ∉ [page] := by
    intro b hSame
    exact hFree.apart b (List.mem_singleton.mp hSame ▸ hStack)
  have hCleared := @onlyPages_clearPage (w.taken.opened (setPagingContext builder)).mem page
      (hFree.aligned page hStack)
  have hKernel := allocateKernelStack_succeeds hTop hSome (hFree.aligned page hStack)
  unfold allocateProcess
  dsimp only
  rw [if_neg (by rw [hOk]; decide), hSlot, if_neg (by rw [hKernel]; decide)]
  refine ⟨rfl, ?_⟩
  unfold allocateKernelStack
  rw [hTop]
  dsimp only
  rw [if_neg (show page ≠ pmmInvalidPage from hSome)]
  refine ⟨hFits, ⟨rfl, rfl, Nat.one_pos, (by decide : 1 ≤ 4)⟩, ?_, ?_⟩
  · exact hCloned.of_onlyPages hFree.tables hFits hCleared hTables (hOther _) (hOther _)
  · have hThere := hPresent.of_onlyPages hFree.tables hOnly hFits.not_mem
    rw [← taken_codePt hInit] at hThere
    exact hThere.of_onlyPages hFree.tables hCleared hTables

end Checked

/- The tables of a loaded image pass the check once more. -/
theorem ClonedSpace.image_ready (hSpace : ClonedSpace builder w)
    (hTables : ∀ b, PageAligned (builder.tables b))
    (hContext : (setPagingContext builder).initialized = true) {request : UserImageRequest}
    (hPos : 0 < request.pageCountNat) (hLe : request.pageCountNat ≤ 4) :
    (buildUserPageTables (setPagingContext builder)
        (openUserImage request w)).process.userPageTablesReady = true ∧
      (buildUserPageTables (setPagingContext builder)
        (openUserImage request w)).process.state = w.process.state := by
  have hFits := hSpace.fits
  have hBuilder : ∀ b, builder.tables b ∉ userCodeFrames w.process :=
    fun b hMem => hFits.not_mem b (userCodeFrames_subset w.process hMem)
  have hTable := fun p hp => @tablePages_not_mem_frames w.process hFits.family p hp
  obtain ⟨flags, mem, hRun, hFlags, hOnly⟩ := foldl_loadCodePage request
      { w with
        process :=
          { w.process with
            userCodePageCount := request.pageCountNat
            userCodePageFlags := fun _ => 0 } }
      (fun i => hFits.family.aligned _) hLe
  have hLoaded : openUserImage request w = _ := hRun
  have hCloned : KernelCloned builder w.process.pages mem :=
    hSpace.cloned.of_onlyPages hTables hFits hOnly hBuilder
      (hTable _ (by decide)) (hTable _ (by decide))
  have hPresent := hSpace.present.of_onlyPages hTables hOnly hBuilder
  have hChecked := @validateUserPageTables_iff builder
      { w.process with
        userCodePageCount := request.pageCountNat
        userCodePageFlags := flags }
      mem hCloned hTables request.pageWritable hContext hFits
      ⟨hSpace.opened.code, hSpace.opened.stack, hPos, hLe⟩ hFlags
  rw [hLoaded]
  exact ⟨hChecked.mpr hPresent, rfl⟩

end Slot

----------
-- Creations

/- The two calls that create a process. -/
inductive Creation
| kernel (name : List UInt8) (entry : Nat)
| user (request : UserImageRequest)

namespace Creation

def run : Creation → ProcessSystem → Nat × ProcessSystem
| .kernel name entry, s => processCreate name entry s
| .user request, s => processCreateUserImage request s

def isValid : Creation → Bool
| .kernel _ entry => entry != 0
| .user request => request.isValid

/- The slot a creation works on. -/
def chosen (c : Creation) (s : ProcessSystem) : Option (Fin 64) :=
  if s.counters.initialized = false ∨ c.isValid = false then none else s.findUnusedProcess

end Creation

section System

variable {builder : BuilderState}
variable {s : ProcessSystem}
variable {c : Creation}
variable {i : Fin 64}

theorem chosen_none (hNone : c.chosen s = none) : c.run s = (0, s) := by
  unfold Creation.chosen at hNone
  cases c with
  | kernel name entry =>
    unfold Creation.run processCreate
    split at hNone
    · next hRefused =>
        rw [Creation.isValid, bne_eq_false_iff_eq] at hRefused
        exact if_pos hRefused
    · next hAccepted =>
        rw [Creation.isValid, bne_eq_false_iff_eq] at hAccepted
        dsimp only
        rw [if_neg hAccepted, hNone]
  | user request =>
    unfold Creation.run processCreateUserImage
    split at hNone
    · next hRefused => exact if_pos hRefused
    · next hAccepted =>
        rw [Creation.isValid] at hAccepted
        dsimp only
        rw [if_neg hAccepted, hNone]

theorem chosen_some (hChosen : c.chosen s = some i) :
    s.counters.initialized = true ∧ c.isValid = true ∧ s.findUnusedProcess = some i := by
  unfold Creation.chosen at hChosen
  split at hChosen
  · cases hChosen
  · next hAccepted =>
      rw [not_or, Bool.not_eq_false, Bool.not_eq_false] at hAccepted
      exact ⟨hAccepted.1, hAccepted.2, hChosen⟩

theorem run_failed (hChosen : c.chosen s = some i)
    (hMade : (allocateProcess s.context (s.slot i)).1 = false) :
    c.run s = (0, s.setSlot i (allocateProcess s.context (s.slot i)).2) := by
  obtain ⟨hReady, hValid, hFind⟩ := chosen_some hChosen
  cases c with
  | kernel name entry =>
    rw [Creation.isValid, bne_iff_ne] at hValid
    unfold Creation.run processCreate
    dsimp only
    rw [if_neg (by simp [hReady, hValid]), hFind]
    exact if_pos hMade
  | user request =>
    unfold Creation.run processCreateUserImage
    dsimp only
    rw [if_neg (by simp [hReady, show request.isValid = true from hValid]), hFind]
    exact if_pos hMade

theorem ClonedSpace.assigned (hSpace : ClonedSpace builder w) (request : UserImageRequest)
    (pid : Nat) :
    ClonedSpace builder (w.assigned request pid) where
  fits := hSpace.fits
  opened :=
    ⟨hSpace.opened.code, hSpace.opened.stack, hSpace.opened.count_pos, hSpace.opened.count_le⟩
  cloned := hSpace.cloned
  present := hSpace.present

/- A process that is made gets the next pid. -/
theorem run_made (hTables : ∀ b, PageAligned (builder.tables b))
    (hContext : s.context = setPagingContext builder)
    (hInit : (setPagingContext builder).initialized = true) (hChosen : c.chosen s = some i)
    (hMade : (allocateProcess s.context (s.slot i)).1 = true)
    (hSpace : ClonedSpace builder (allocateProcess s.context (s.slot i)).2) :
    (c.run s).1 = s.nextPid ∧ ((c.run s).2.table i).state = .ready := by
  obtain ⟨hReady, hValid, hFind⟩ := chosen_some hChosen
  rcases hRun : allocateProcess s.context (s.slot i) with ⟨made, w⟩
  rw [hRun] at hMade hSpace
  have hDone : ¬ made = false := by
    rw [show made = true from hMade]
    decide
  cases c with
  | kernel name entry =>
    rw [Creation.isValid, bne_iff_ne] at hValid
    unfold Creation.run processCreate
    dsimp only
    rw [if_neg (by simp [hReady, hValid]), hFind]
    dsimp only
    rw [hRun, if_neg hDone]
    refine ⟨rfl, ?_⟩
    show (Function.update s.table i _ i).state = .ready
    rw [Function.update_self]
  | user request =>
    obtain ⟨hPos, hLe⟩ := isValid_pageCount hValid
    obtain ⟨hChecked, hState⟩ :=
      (hSpace.assigned request s.nextPid).image_ready hTables hInit hPos hLe
    rw [← hContext] at hChecked hState
    unfold SlotState.assigned at hChecked hState
    unfold Creation.run processCreateUserImage
    dsimp only
    rw [if_neg (by simp [hReady, show request.isValid = true from hValid]), hFind]
    dsimp only
    rw [hRun, if_neg hDone, assignPid_slot, if_neg (by rw [hChecked]; decide)]
    refine ⟨rfl, ?_⟩
    refine Eq.trans (congrArg Process.state ?_) hState
    exact Function.update_self _ _ _

----------
-- Failures

/- The same pages are free, and the slot of the creation is not in use and has none. -/
structure FailureKeeps (c : Creation) (s s' : ProcessSystem) : Prop where
  free : ∀ p, p ∈ s'.pmm.stack ↔ p ∈ s.pmm.stack
  slot : ∀ i, c.chosen s = some i → (s'.table i).state = .unused ∧ (s'.table i).ownedPages = []

/- What every creation finds. -/
structure CreationState (builder : BuilderState) (s : ProcessSystem) : Prop where
  context : s.context = setPagingContext builder
  free : FreePages builder s.pmm
  unused : ∀ i, (s.table i).state = .unused → (s.table i).kernelStackPage = 0

/-
  The kernel's tables hold the entries that are checked, if there are pages for an address space;
  a creation that is short of pages takes such as are taken back; and a process that is made gets
  a pid that is not zero.
-/
structure CreationSafe (builder : BuilderState) (s : ProcessSystem) : Prop where
  tables : s.context.initialized = true → Usable s.pmm 11 →
      KernelTablesPresent builder (s.pmm.stack.getD 4 0) s.mem
  returned : ¬ (s.context.initialized = true ∧ Usable s.pmm 12) →
      ∀ p ∈ s.pmm.stack.take (if s.context.initialized then 12 else 11), Returnable s.pmm p
  pid : s.context.initialized = true → Usable s.pmm 12 → s.nextPid ≠ 0

theorem Usable.mono {m : Nat} (hUsable : Usable pmm n) (hLe : m ≤ n) : Usable pmm m :=
  fun k hk => hUsable k (by omega)

/- Pages that run out before a limit do so below it. -/
theorem usable_of_returnable (hLength : n ≤ pmm.stack.length)
    (hTop : ∀ p ∈ pmm.stack.take n, Returnable pmm p) :
    Usable pmm n := by
  intro k hk
  have hInside : k < pmm.stack.length := by omega
  rw [List.getD_eq_getElem _ _ hInside]
  refine (hTop _ ?_).nonzero
  rw [List.mem_take_iff_getElem]
  exact ⟨k, lt_min hk hInside, rfl⟩

theorem slot_of_setSlot (hChosen : c.chosen s = some i) (hState : w.process.state = .unused)
    (hOwned : w.process.ownedPages = []) (j : Fin 64) (hSame : c.chosen s = some j) :
    ((s.setSlot i w).table j).state = .unused ∧ ((s.setSlot i w).table j).ownedPages = [] := by
  obtain rfl : i = j := by
    rw [hChosen] at hSame
    exact Option.some.inj hSame
  show (Function.update s.table i w.process i).state = _ ∧
    (Function.update s.table i w.process i).ownedPages = _
  rw [Function.update_self]
  exact ⟨hState, hOwned⟩

theorem keeps_iff_of_givenBack (hChosen : c.chosen s = some i)
    (hUnused : (s.table i).state = .unused) (hNodup : s.pmm.stack.Nodup)
    (hRun : c.run s = (0, s.setSlot i w)) (hBack : GivenBack (s.slot i) n w) :
    ((c.run s).1 = 0 → FailureKeeps c s (c.run s).2) ↔
      ∀ p ∈ s.pmm.stack.take n, Returnable s.pmm p := by
  have hFree := hBack.free_iff hNodup
  rw [hRun]
  constructor
  · intro hKeeps
    exact hFree.mp (hKeeps rfl).free
  · intro hTop _
    exact ⟨hFree.mpr hTop, slot_of_setSlot hChosen (hBack.state.trans hUnused) hBack.owned⟩

/- Where the check fails the pages stay in the slot. -/
theorem run_unchecked (hState : CreationState builder s) (hInit : s.pmm.initialized = true)
    (hSet : s.context.initialized = true) (hUsable : Usable s.pmm 11)
    (hMissing : ¬ KernelTablesPresent builder (s.pmm.stack.getD 4 0) s.mem)
    (hChosen : c.chosen s = some i) :
    (c.run s).1 = 0 ∧ ((c.run s).2.table i).state = .unused ∧
      ((c.run s).2.table i).pages .cr3 = s.pmm.stack.getD 0 0 ∧
      (c.run s).2.pmm.stack = s.pmm.stack.drop 11 := by
  have hUnused := findUnusedProcess_some (chosen_some hChosen).2.2
  rw [hState.context] at hSet
  obtain ⟨hMade, hSame, hPage, hStack⟩ :=
    @allocateProcess_unchecked builder (s.slot i) hState.free hInit hSet hUsable hMissing
  rw [← hState.context] at hMade hSame hPage hStack
  rw [run_failed hChosen hMade]
  generalize allocateProcess s.context (s.slot i) = made at hSame hPage hStack ⊢
  show 0 = 0 ∧ (Function.update s.table i made.2.process i).state = _ ∧
    (Function.update s.table i made.2.process i).pages .cr3 = _ ∧
    made.2.pmm.stack = _
  rw [Function.update_self]
  exact ⟨rfl, hSame.trans hUnused, hPage, hStack⟩

/- A slot that keeps pages is not what a failure leaves. -/
theorem FailureKeeps.cr3 {s' : ProcessSystem} (hKeeps : FailureKeeps c s s')
    (hChosen : c.chosen s = some i) :
    (s'.table i).pages .cr3 = 0 := by
  by_contra hPage
  have hOwned := (hKeeps.slot i hChosen).2
  have hMem : (s'.table i).pages .cr3 ∈ (s'.table i).ownedPages := by
    refine List.mem_filter.mpr ⟨List.mem_append_left _ ?_, ?_⟩
    · exact List.mem_map_of_mem (mem_addressSpacePages .cr3)
    · exact bne_iff_ne.mpr hPage
  rw [hOwned] at hMem
  exact absurd hMem List.not_mem_nil

/- What is left of the condition in each case. -/
theorem safe_iff_exhausted (hShort : ¬ (s.context.initialized = true ∧ Usable s.pmm 11)) :
    CreationSafe builder s ↔ ∀ p ∈ s.pmm.stack.take 11, Returnable s.pmm p := by
  have hShorter : ¬ (s.context.initialized = true ∧ Usable s.pmm 12) :=
    fun h => hShort ⟨h.1, h.2.mono (by decide)⟩
  constructor
  · intro hSafe p hp
    refine hSafe.returned hShorter p ?_
    split
    · exact (List.take_prefix_take_left (by decide)).subset hp
    · exact hp
  · intro hTop
    refine ⟨fun hSet hUsable => absurd ⟨hSet, hUsable⟩ hShort, fun _ => ?_,
      fun hSet hUsable => absurd ⟨hSet, hUsable⟩ hShorter⟩
    split
    next hSet =>
      -- the stack ends in front of the twelfth page
      have hLength : s.pmm.stack.length ≤ 11 := by
        by_contra hLong
        exact hShort ⟨hSet, usable_of_returnable (by omega) hTop⟩
      rw [List.take_of_length_le (by omega)]
      rw [List.take_of_length_le hLength] at hTop
      exact hTop
    next => exact hTop

section

variable (hSet : s.context.initialized = true)
variable (hPresent : KernelTablesPresent builder (s.pmm.stack.getD 4 0) s.mem)
include hSet hPresent

theorem safe_iff_stackless (hShort : ¬ Usable s.pmm 12) :
    CreationSafe builder s ↔ ∀ p ∈ s.pmm.stack.take 12, Returnable s.pmm p := by
  constructor
  · intro hSafe
    have hTop := hSafe.returned fun h => hShort h.2
    rw [if_pos hSet] at hTop
    exact hTop
  · intro hTop
    refine ⟨fun _ _ => hPresent, fun _ => ?_, fun _ hUsable => absurd hUsable hShort⟩
    rw [if_pos hSet]
    exact hTop

theorem safe_iff_full (hUsable : Usable s.pmm 12) :
    CreationSafe builder s ↔ s.nextPid ≠ 0 :=
  ⟨fun hSafe => hSafe.pid hSet hUsable,
    fun hPid => ⟨fun _ _ => hPresent, fun hShort => absurd ⟨hSet, hUsable⟩ hShort, fun _ _ => hPid⟩⟩

end

/- A creation with a page manager that is set up. -/
theorem keeps_iff_safe (hState : CreationState builder s) (hInit : s.pmm.initialized = true)
    (hChosen : c.chosen s = some i) :
    ((c.run s).1 = 0 → FailureKeeps c s (c.run s).2) ↔ CreationSafe builder s := by
  have hUnused := findUnusedProcess_some (chosen_some hChosen).2.2
  have hStack := hState.unused i hUnused
  have hFree := hState.free
  have hNodup := hFree.nodup
  by_cases hReach : s.context.initialized = true ∧ Usable s.pmm 11
  · obtain ⟨hSet, hUsable⟩ := hReach
    have hContext := hState.context
    have hBuilder := hSet
    rw [hContext] at hBuilder
    by_cases hPresent : KernelTablesPresent builder (s.pmm.stack.getD 4 0) s.mem
    · by_cases hEnough : Usable s.pmm 12
      · rw [safe_iff_full hSet hPresent hEnough]
        obtain ⟨hMade, hSpace⟩ :=
          @allocateProcess_full builder (s.slot i) hFree hInit hBuilder hUsable hPresent hEnough
        rw [← hContext] at hMade hSpace
        obtain ⟨hPid, hReady⟩ := run_made hFree.tables hContext hBuilder hChosen hMade hSpace
        rw [hPid]
        constructor
        · intro hKeeps hZero
          have hSlot := ((hKeeps hZero).slot i hChosen).1
          rw [hReady] at hSlot
          cases hSlot
        · exact fun hNonzero hZero => absurd hZero hNonzero
      · rw [safe_iff_stackless hSet hPresent hEnough]
        obtain ⟨hMade, hBack⟩ := @allocateProcess_stackless builder (s.slot i) hFree
            hInit hBuilder hUsable hStack hPresent hEnough
        rw [← hContext] at hMade hBack
        exact keeps_iff_of_givenBack hChosen hUnused hNodup (run_failed hChosen hMade) hBack
    · obtain ⟨hZero, -, hPage, -⟩ := run_unchecked hState hInit hSet hUsable hPresent hChosen
      refine iff_of_false ?_ fun hSafe => hPresent (hSafe.tables hSet hUsable)
      intro hKeeps
      have hNone := (hKeeps hZero).cr3 hChosen
      rw [hPage] at hNone
      exact hUsable 0 (by decide) hNone
  · rw [safe_iff_exhausted hReach]
    obtain ⟨hMade, hBack⟩ :=
      @allocateProcess_exhausted builder (s.slot i) s.context hFree hInit hStack hReach
    exact keeps_iff_of_givenBack hChosen hUnused hNodup (run_failed hChosen hMade) hBack

end System

----------
-- Creations After A Boot

/- The wide boot with some of its pages left. -/
def wideState (builder : BuilderState) (mem : ByteMemory) (free : List Nat) : ProcessSystem :=
  { processInitialize (wideSystem builder mem) with
    pmm := { (wideSystem builder mem).pmm with stack := free } }

theorem wideState_pmm (builder : BuilderState) (mem : ByteMemory) (free : List Nat) :
    (wideState builder mem free).pmm = ⟨true, free, 64, 0, 0, 0x200000, 0x23F000⟩ := by
  have hPmm : { pmmInit wideBoot.memoryRegions smallLayout with stack := [] } =
      (⟨true, [], 64, 0, 0, 0x200000, 0x23F000⟩ : Pmm) := by
    decide +kernel
  exact congrArg (fun pmm : Pmm => { pmm with stack := free }) hPmm

theorem wideState_creationState {builder : BuilderState} {mem : ByteMemory}
    (hBoot : ProcessBoot builder (wideSystem builder mem)) (mem' : ByteMemory) {free : List Nat}
    (hFree : free.Sublist (widePages 559 48)) :
    CreationState builder { wideState builder mem free with mem := mem' } := by
  have hSound := hBoot.sound
  have hMember : ∀ p ∈ free, p ∈ (processInitialize (wideSystem builder mem)).ledger :=
    fun p hp => (processInitialize_ledger _).symm ▸ hFree.subset hp
  have hLength : (widePages 559 48).length = 48 := by decide +kernel
  refine ⟨hBoot.context, ?_, fun _ _ => rfl⟩
  exact
    { nodup := hBoot.nodup.sublist hFree
      aligned := fun p hp => hSound.aligned p (hMember p hp)
      bound := fun p hp => hSound.bound p (hMember p hp)
      room := by
        show (wideState builder mem free).pmm.stack.length ≤
          (wideState builder mem free).pmm.trackedPages
        rw [wideState_pmm]
        exact (hFree.length_le.trans_eq hLength).trans (show 48 ≤ 64 by decide)
      tables := hSound.built.pages.aligned
      apart := fun b hb => hSound.apart b (hMember _ hb) }

section System

variable {builder : BuilderState}
variable {s : ProcessSystem}

/-
  A creation that returns zero leaves the free pages and its slot as they were exactly in the
  states that are safe.
-/
theorem failureKeeps_iff (hState : CreationState builder s) (c : Creation) :
    ((c.run s).1 = 0 → FailureKeeps c s (c.run s).2) ↔
      (c.chosen s ≠ none → s.pmm.initialized = true → CreationSafe builder s) := by
  cases hChosen : c.chosen s with
  | none =>
    rw [chosen_none hChosen]
    refine iff_of_true ?_ fun hSome => absurd rfl hSome
    refine fun _ => ⟨fun _ => Iff.rfl, ?_⟩
    rw [hChosen]
    exact nofun
  | some i =>
    cases hInit : s.pmm.initialized with
    | false =>
      have hUnused := findUnusedProcess_some (chosen_some hChosen).2.2
      obtain ⟨hMade, hPmm, hOwned, hSame⟩ :=
        @allocateProcess_off (s.slot i) s.context hInit (hState.unused i hUnused)
      rw [run_failed hChosen hMade]
      refine iff_of_true (fun _ => ⟨?_, ?_⟩) fun _ => nofun
      · intro p
        exact Iff.of_eq (congrArg (fun pmm => p ∈ pmm.stack) hPmm)
      · exact slot_of_setSlot hChosen (hSame.trans hUnused) hOwned
    | true =>
      rw [keeps_iff_safe hState hInit hChosen]
      exact ⟨fun hSafe _ _ => hSafe, fun hSafe => hSafe nofun rfl⟩

end System

/- A creation that finds five pages gives them back. -/
theorem failureKeeps_iff_five_pages : ∃ builder mem, ProcessBoot builder (wideSystem builder mem) ∧
        CreationState builder (wideState builder mem (widePages 559 5)) ∧
        (Creation.run (.kernel [] 1) (wideState builder mem (widePages 559 5))).1 = 0 ∧
        FailureKeeps (.kernel [] 1) (wideState builder mem (widePages 559 5))
          (Creation.run (.kernel [] 1) (wideState builder mem (widePages 559 5))).2 := by
  obtain ⟨builder, mem, hBoot⟩ := wideSystem_boots
  have hState :=
    @wideState_creationState builder mem hBoot mem (widePages 559 5) (by decide +kernel)
  have hShort : ¬ Usable (wideState builder mem (widePages 559 5)).pmm 11 := by
    rw [wideState_pmm]
    exact fun hUsable => hUsable 5 (by decide) (by decide +kernel)
  have hFailed : (Creation.run (.kernel [] 1) (wideState builder mem (widePages 559 5))).1 = 0 := by
    have hMade :=
      (@allocateProcess_exhausted builder ((wideState builder mem (widePages 559 5)).slot 0)
        (setPagingContext builder) hState.free rfl rfl
        fun h => hShort h.2).1
    rw [@run_failed _ (.kernel [] 1) 0 (by rfl) hMade]
  refine ⟨builder, mem, hBoot, hState, hFailed, ?_⟩
  refine (failureKeeps_iff hState (.kernel [] 1)).mpr (fun _ _ => ⟨?_, ?_, ?_⟩) hFailed
  · exact fun _ hUsable => absurd hUsable hShort
  · intro _ p hp
    have hPages : ∀ p ∈ widePages 559 5, p ≠ 0 ∧ 0x200000 ≤ p ∧ p ≤ 0x23F000 := by decide +kernel
    rw [wideState_pmm] at hp ⊢
    obtain ⟨hNonzero, hLow, hHigh⟩ := hPages p (List.mem_of_mem_take hp)
    exact ⟨hNonzero, hLow, hHigh⟩
  · exact fun _ hUsable => absurd (hUsable.mono (by decide)) hShort

/- The wide boot with the first table of the kernel cleared. -/
def wipedState (builder : BuilderState) (mem : ByteMemory) : ProcessSystem :=
  { wideState builder mem (widePages 559 48) with mem := clearPage mem (builder.tables .pml4Table) }

theorem wipedState_pmm (builder : BuilderState) (mem : ByteMemory) :
    (wipedState builder mem).pmm = ⟨true, widePages 559 48, 64, 0, 0, 0x200000, 0x23F000⟩ :=
  wideState_pmm builder mem (widePages 559 48)

theorem wipedState_missing (builder : BuilderState) (mem : ByteMemory) (codePt : Nat) :
    ¬ KernelTablesPresent builder codePt (wipedState builder mem).mem := by
  intro hPresent
  have hDirect := hPresent.direct
  have hEntry :
      entryAt (clearPage mem (builder.tables .pml4Table)) (builder.tables .pml4Table) 256 = 0 := by
    apply readLE_zero
    intro x hLow hHigh
    rw [clearPage, clearBytes_apply, if_pos (by omega)]
  change entryPresent (entryAt (clearPage mem (builder.tables .pml4Table))
    (builder.tables .pml4Table) 256) = true at hDirect
  rw [hEntry] at hDirect
  exact absurd hDirect (by decide)

/-
  There the creation fails in its check: its slot is not in use and still has the page for its
  first table, which is no longer free.
-/
theorem unchecked_creation_keeps_pages :
    ∃ builder mem, ProcessBoot builder (wideSystem builder mem) ∧
        (processCreate [] 1 (wipedState builder mem)).1 = 0 ∧
        ((processCreate [] 1 (wipedState builder mem)).2.table 0).state = .unused ∧
        ((processCreate [] 1 (wipedState builder mem)).2.table 0).pages .cr3 = 559 * 4096 ∧
        559 * 4096 ∈ (wipedState builder mem).pmm.stack ∧
        559 * 4096 ∉ (processCreate [] 1 (wipedState builder mem)).2.pmm.stack := by
  obtain ⟨builder, mem, hBoot⟩ := wideSystem_boots
  have hState : CreationState builder (wipedState builder mem) :=
    wideState_creationState hBoot _ (List.Sublist.refl _)
  have hSet : (wipedState builder mem).context.initialized = true :=
    setPagingContext_built (hBoot.ran.built hBoot.ok) hBoot.ok
  have hPmm := wipedState_pmm builder mem
  have hInit : (wipedState builder mem).pmm.initialized = true := by rw [hPmm]
  have hUsable : Usable (wipedState builder mem).pmm 11 := by
    rw [hPmm]
    unfold Usable
    decide +kernel
  have hChosen : Creation.chosen (.kernel [] 1) (wipedState builder mem) = some 0 := rfl
  have hRun : Creation.run (.kernel [] 1) (wipedState builder mem) =
        processCreate [] 1 (wipedState builder mem) := rfl
  obtain ⟨hZero, hUnused, hCr3, hStack⟩ :=
    run_unchecked hState hInit hSet hUsable (wipedState_missing builder mem _) hChosen
  rw [hRun] at hZero hUnused hCr3 hStack
  rw [hPmm] at hCr3 hStack
  refine ⟨builder, mem, hBoot, hZero, hUnused, hCr3.trans ?_, ?_, ?_⟩
  · decide +kernel
  · rw [hPmm]
    decide +kernel
  · intro hFree
    have hGone : 559 * 4096 ∉ (widePages 559 48).drop 11 := by decide +kernel
    rw [hStack] at hFree
    exact hGone hFree

end LiamOS.X64
