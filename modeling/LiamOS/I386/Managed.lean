import LiamOS.I386.PmmRuns
import LiamOS.I386.VmmMap

/-
  The i386 memory managers with pages in the hands of a caller: what an allocation, a mapping, an
  unmapping and a free do to the pages that can be handed out.

  The bump pointer wraps to zero behind the last page of the address space. From then on no page
  is taken back.

  Key definitions: `IsPage`, `Pmm.Kept`, `PageLent`, `Managed`, `TableOutcome`, `MapMade`.
-/

namespace LiamOS.I386

open Word

variable {m : Pmm} {t v : Nat}
variable {page : Nat} {held held' : List Nat} {s s' : PageState} {vmm : VmmStats}

----------
-- The Page Manager

/- A page of the address space. -/
def IsPage (p : Nat) : Prop := p % 4096 = 0 ∧ p < 4294967296

/-
  The page manager as its own calls leave it: freed pages lie in the region, the bump pointer lies
  in it or has wrapped, and only a region up to the last page lets it wrap.
-/
structure Pmm.Kept (m : Pmm) : Prop where
  wf : m.Wf
  stop : m.allocationEnd < 4294967296
  stack : ∀ p ∈ m.freeStack, m.allocationStart ≤ p ∧ p < m.allocationEnd
  next : m.nextFreePage ≠ 0 → m.allocationStart ≤ m.nextFreePage ∧ m.nextFreePage ≤ m.allocationEnd
  wrapped : m.nextFreePage = 0 → m.freeStack = [] ∨ 0xFFFFF000 ≤ m.allocationEnd

/- What an allocation does that hands out a page. -/
structure PageLent (m : Pmm) (page : Nat) (m' : Pmm) : Prop where
  kept : m'.Kept
  start : m'.allocationStart = m.allocationStart
  stop : m'.allocationEnd = m.allocationEnd
  low : m.allocationStart ≤ page
  below : m'.nextFreePage ≠ 0 → page < m'.nextFreePage ∧ page < m.allocationEnd
  grows : m'.nextFreePage ≠ 0 → m.nextFreePage ≠ 0 ∧ m.nextFreePage ≤ m'.nextFreePage
  stack : m'.freeStack = [] ∨ m'.freeStack.length + 1 = m.freeStack.length
  runs : m.allocationEnd < 0xFFFFF000 → m.nextFreePage ≠ 0 → m'.nextFreePage ≠ 0
  covers : ∀ p, IsPage p → m.Available p → p = page ∨ m'.Available p

theorem Pmm.Kept.alloc (hKept : m.Kept) (hSome : (pmmAllocPage m).1 ≠ 0) :
    PageLent m (pmmAllocPage m).1 (pmmAllocPage m).2 := by
  obtain ⟨hStart, hStop⟩ := pmmAllocPage_region m
  have hTaken := (pmmAllocPage_spec hKept.wf).resolve_left fun hNone => hSome hNone.1
  have hWf := hTaken.2.wf
  have hSource := pmmAllocPage_source hSome
  have hRegion := hKept.stop
  generalize (pmmAllocPage m).1 = page at hSome hSource ⊢
  generalize (pmmAllocPage m).2 = m' at hStart hStop hWf hSource ⊢
  cases hSource with
  | stack hStack hNext =>
    have hMember : page ∈ m.freeStack := by
      rw [hStack]
      exact List.mem_cons_self
    have hPage := hKept.stack page hMember
    have hBelow := hKept.wf.stackBelow page hMember
    refine ⟨⟨hWf, by omega, ?_, ?_, ?_⟩, hStart, hStop, hPage.1, ?_, ?_, Or.inr ?_, ?_, ?_⟩
    · intro p hp
      rw [hStart, hStop]
      apply hKept.stack p
      rw [hStack]
      exact List.mem_cons_of_mem _ hp
    · rw [hStart, hStop, hNext]
      exact hKept.next
    · intro hZero
      rw [hNext] at hZero
      have hWrapped := hKept.wrapped hZero
      rw [hStack] at hWrapped
      rw [hStop]
      exact Or.inr (hWrapped.resolve_left nofun)
    · omega
    · omega
    · rw [hStack, List.length_cons]
    · omega
    · rintro p - (hIn | hBump)
      · rw [hStack] at hIn
        rcases List.mem_cons.mp hIn with hEq | hRest
        · exact Or.inl hEq
        · exact Or.inr (Or.inl hRest)
      · rw [← hNext] at hBump
        exact Or.inr (Or.inr hBump)
  | bump hStack hStack' hPage hFits hNext =>
    have hOld := hKept.next (by omega)
    have hAligned := hKept.wf.nextAligned
    -- the bump pointer moves on, or wraps behind the end
    have hMoved : m'.nextFreePage = page + 4096 ∨ (m'.nextFreePage = 0 ∧ page = 0xFFFFF000) := by
      rw [hNext]
      unfold u32
      omega
    refine ⟨⟨hWf, by omega, ?_, ?_, fun _ => Or.inl hStack'⟩,
      hStart, hStop, by omega, ?_, ?_, Or.inl hStack', ?_, ?_⟩
    · rw [hStack']
      nofun
    · intro hSome'
      omega
    · omega
    · omega
    · omega
    · rintro p ⟨hPageOf, hWord⟩ (hIn | ⟨-, hLe⟩)
      · rw [hStack] at hIn
        exact absurd hIn List.not_mem_nil
      · unfold Pmm.Available
        omega

/- A page manager up to the last page that is exhausted. -/
theorem Pmm.Kept.next_of_exhausted (hKept : m.Kept) (hTop : 0xFFFFF000 ≤ m.allocationEnd)
    (hNone : (pmmAllocPage m).1 = 0) :
    m.nextFreePage = 0 := by
  have hNext := hKept.next
  have hStop := hKept.stop
  have hAligned := hKept.wf.nextAligned
  by_contra hSome
  unfold pmmAllocPage at hNone
  split at hNone
  · next page rest hStack =>
      have hPage := hKept.wf.stackPage page (by rw [hStack]; simp)
      exact hPage.2.1 hNone
  · rw [if_neg hSome, if_neg ?_] at hNone
    · exact hSome hNone
    · unfold u32
      omega

/- A page in the region, below the bump pointer, is taken back. -/
theorem pmmFreePage_returned (hZero : page ≠ 0) (hPage : IsPage page)
    (hLow : m.allocationStart ≤ page) (hNext : page < m.nextFreePage)
    (hHigh : page < m.allocationEnd) (hFresh : page ∉ m.freeStack)
    (hRoom : m.freeStack.length < pmmMaxFreePages) :
    (pmmFreePage page m).freeStack = page :: m.freeStack ∧
      (pmmFreePage page m).nextFreePage = m.nextFreePage ∧
      (pmmFreePage page m).allocationStart = m.allocationStart ∧
      (pmmFreePage page m).allocationEnd = m.allocationEnd := by
  obtain ⟨hAligned, -⟩ := hPage
  unfold pmmFreePage
  rw [if_neg hZero, if_neg (by omega), if_neg (by omega),
    if_neg (by omega), if_neg hFresh, if_neg (by omega)]
  exact ⟨rfl, rfl, rfl, rfl⟩

/- Once the bump pointer has wrapped, none is. -/
theorem pmmFreePage_wrapped (hWrapped : m.nextFreePage = 0) (page : Nat) :
    pmmFreePage page m = m := by
  unfold pmmFreePage
  rw [hWrapped, if_pos (Nat.zero_le page)]
  split_ifs <;> rfl

----------
-- Both Managers

/-
  The managers with some pages held by a caller: tables and held pages apart, and every held page
  one that can be given back unless the bump pointer has wrapped.
-/
structure Managed (s : PageState) (held : List Nat) : Prop where
  separate : s.Separate held
  distinct : ∀ v w, s.HasTable v → s.HasTable w →
      s.tableFor v = s.tableFor w → pageDirectoryIndex v = pageDirectoryIndex w
  nonzero : ∀ w, s.HasTable w → s.tableFor w ≠ 0
  kept : s.pmm.Kept
  region : ∀ p ∈ held, p ≠ 0 ∧ IsPage p ∧ s.pmm.allocationStart ≤ p ∧
        (s.pmm.nextFreePage ≠ 0 → p < s.pmm.nextFreePage ∧ p < s.pmm.allocationEnd)
  room : s.pmm.freeStack.length + held.length ≤ pmmMaxFreePages

section Managed

variable {s s' : PageState}
variable {held : List Nat}
variable {page : Nat}

section

variable (hManaged : Managed s held)
include hManaged

theorem Managed.laid : s.TablesLaid :=
  hManaged.separate.laid hManaged.distinct

theorem Managed.perm (hPerm : held.Perm held') : Managed s held' := by
  refine ⟨hManaged.separate.perm hPerm, hManaged.distinct, hManaged.nonzero, hManaged.kept, ?_, ?_⟩
  · intro p hp
    exact hManaged.region p (hPerm.mem_iff.mpr hp)
  · rw [← hPerm.length_eq]
    exact hManaged.room

theorem Managed.forget (hSub : held'.Sublist held) :
    Managed s held' := by
  have hLength := hSub.length_le
  have hRoom := hManaged.room
  refine ⟨hManaged.separate.forget hSub, hManaged.distinct,
    hManaged.nonzero, hManaged.kept, ?_, by omega⟩
  intro p hp
  exact hManaged.region p (hSub.subset hp)

/- The same pages and the same tables. -/
theorem Managed.of_same (hPmm : s'.pmm = s.pmm) (hDirectory : s'.directory = s.directory)
    (hHas : ∀ w, s'.HasTable w ↔ s.HasTable w) (hTable : ∀ w, s'.tableFor w = s.tableFor w) :
    Managed s' held := by
  refine ⟨?_, ?_, ?_, ?_, ?_, ?_⟩
  · apply hManaged.separate.ofTables _ _ hDirectory
    · intro w hw
      exact Or.inl ⟨(hHas w).mp hw, hTable w⟩
    · rw [hPmm]
      exact hManaged.separate.pmm
    · rw [hPmm]
      exact fun _ hq => hq
  · intro v w hv hw hSame
    rw [hTable, hTable] at hSame
    exact hManaged.distinct v w ((hHas v).mp hv) ((hHas w).mp hw) hSame
  · intro w hw
    rw [hTable]
    exact hManaged.nonzero w ((hHas w).mp hw)
  · rw [hPmm]
    exact hManaged.kept
  · rw [hPmm]
    exact hManaged.region
  · rw [hPmm]
    exact hManaged.room

theorem Managed.withVmm (vmm : VmmStats) :
    Managed { s with vmm := vmm } held :=
  hManaged.of_same rfl rfl (fun _ => Iff.rfl) (fun _ => rfl)

/- A page is taken from the page manager. -/
theorem Managed.alloc (hFew : held.length < pmmMaxFreePages) (hSome : (pmmAllocPage s.pmm).1 ≠ 0) :
    Managed { s with pmm := (pmmAllocPage s.pmm).2 } ((pmmAllocPage s.pmm).1 :: held) := by
  have hLent := hManaged.kept.alloc hSome
  have hTaken := (pmmAllocPage_spec hManaged.separate.pmm).resolve_left fun hNone => hSome hNone.1
  have hRoom := hManaged.room
  refine ⟨hManaged.separate.alloc hSome, hManaged.distinct, hManaged.nonzero, hLent.kept, ?_, ?_⟩
  · intro p hp
    have hStart := hLent.start
    have hStop := hLent.stop
    dsimp only
    rcases List.mem_cons.mp hp with rfl | hOld
    · refine ⟨hSome, ⟨hTaken.2.aligned, hTaken.2.word⟩, ?_, ?_⟩
      · rw [hStart]
        exact hLent.low
      · rw [hStop]
        exact hLent.below
    · obtain ⟨hZero, hPage, hLow, hBelow⟩ := hManaged.region p hOld
      refine ⟨hZero, hPage, by omega, ?_⟩
      intro hNext
      have hGrows := hLent.grows hNext
      have hOldBelow := hBelow hGrows.1
      omega
  · have hStack := hLent.stack
    dsimp only
    rw [List.length_cons]
    rcases hStack with hNil | hFewer
    · rw [hNil, List.length_nil]
      omega
    · omega

end

/- A held page is given back, or lost. -/
theorem Managed.free (hManaged : Managed s (page :: held)) :
    Managed { s with pmm := pmmFreePage page s.pmm } held := by
  by_cases hWrapped : s.pmm.nextFreePage = 0
  · rw [pmmFreePage_wrapped hWrapped]
    exact hManaged.forget (List.sublist_cons_self _ _)
  · obtain ⟨hZero, hPage, hLow, hBelow⟩ := hManaged.region page List.mem_cons_self
    have hTaken := hManaged.separate.heldTaken page List.mem_cons_self
    have hRoom := hManaged.room
    rw [List.length_cons] at hRoom
    have hBack := pmmFreePage_returned hZero hPage hLow (hBelow hWrapped).1
        (hBelow hWrapped).2 (fun hIn => hTaken (Or.inl hIn))
        (by omega)
    obtain ⟨hStack, hNext, hStart, hStop⟩ := hBack
    have hKept := hManaged.kept
    refine ⟨hManaged.separate.free, hManaged.distinct,
      hManaged.nonzero, ⟨pmmFreePage_wf hKept.wf page, ?_, ?_, ?_, ?_⟩, ?_, ?_⟩
    · rw [hStop]
      exact hKept.stop
    · intro p hp
      rw [hStack] at hp
      rw [hStart, hStop]
      rcases List.mem_cons.mp hp with rfl | hOld
      · exact ⟨hLow, (hBelow hWrapped).2⟩
      · exact hKept.stack p hOld
    · rw [hNext, hStart, hStop]
      exact hKept.next
    · intro hZeroNext
      rw [hNext] at hZeroNext
      exact absurd hZeroNext hWrapped
    · intro p hp
      dsimp only
      rw [hNext, hStart, hStop]
      exact hManaged.region p (List.mem_cons_of_mem _ hp)
    · dsimp only
      rw [hStack, List.length_cons]
      omega

/- A page given back can be handed out again. -/
theorem Managed.available_free (hManaged : Managed s (page :: held))
    (hNext : s.pmm.nextFreePage ≠ 0) :
    (pmmFreePage page s.pmm).nextFreePage = s.pmm.nextFreePage ∧
      ∀ q, s.pmm.Available q ∨ q = page → (pmmFreePage page s.pmm).Available q := by
  obtain ⟨hZero, hPage, hLow, hBelow⟩ := hManaged.region page List.mem_cons_self
  have hTaken := hManaged.separate.heldTaken page List.mem_cons_self
  have hRoom := hManaged.room
  rw [List.length_cons] at hRoom
  obtain ⟨hStack, hSame, -, -⟩ := pmmFreePage_returned hZero hPage hLow (hBelow hNext).1
      (hBelow hNext).2 (fun hIn => hTaken (Or.inl hIn))
      (by omega)
  refine ⟨hSame, ?_⟩
  unfold Pmm.Available
  rw [hStack, hSame]
  rintro q ((hIn | hBump) | rfl)
  · exact Or.inl (List.mem_cons_of_mem _ hIn)
  · exact Or.inr hBump
  · exact Or.inl List.mem_cons_self

end Managed

----------
-- Finding A Table

theorem hasTable_withPmm (s : PageState) (m : Pmm) (w : Nat) :
    ({ s with pmm := m } : PageState).HasTable w ↔ s.HasTable w :=
  Iff.rfl

theorem hasTable_withVmm (s : PageState) (vmm : VmmStats) (w : Nat) :
    ({ s with vmm := vmm } : PageState).HasTable w ↔ s.HasTable w :=
  Iff.rfl

theorem tableFor_withPmm (s : PageState) (m : Pmm) (w : Nat) :
    ({ s with pmm := m } : PageState).tableFor w = s.tableFor w := rfl

theorem tableFor_withVmm (s : PageState) (vmm : VmmStats) (w : Nat) :
    ({ s with vmm := vmm } : PageState).tableFor w = s.tableFor w := rfl

/-
  What happens to the pages while a caller maps one: a page that could be handed out still can, or
  is a table now.
-/
structure PagesMoved (s : PageState) (held : List Nat) (s' : PageState) : Prop where
  managed : Managed s' held
  initialized : s'.vmm.initialized = s.vmm.initialized
  stop : s'.pmm.allocationEnd = s.pmm.allocationEnd
  runs : s.pmm.allocationEnd < 0xFFFFF000 → s.pmm.nextFreePage ≠ 0 → s'.pmm.nextFreePage ≠ 0
  covers :
    ∀ q, IsPage q → s.pmm.Available q → s'.pmm.Available q ∨ ∃ w, s'.HasTable w ∧ s'.tableFor w = q
  tables : ∀ w, s.HasTable w → s'.HasTable w ∧ s'.tableFor w = s.tableFor w

theorem PagesMoved.refl (hManaged : Managed s held) : PagesMoved s held s :=
  ⟨hManaged, rfl, rfl, fun _ h => h, fun _ _ h => Or.inl h, fun _ hw => ⟨hw, rfl⟩⟩

/- Stored words and counters that leave the tables alone. -/
theorem PagesMoved.of_same {s'' : PageState} (hMoved : PagesMoved s held s')
    (hInit : s''.vmm.initialized = s'.vmm.initialized) (hPmm : s''.pmm = s'.pmm)
    (hDirectory : s''.directory = s'.directory) (hHas : ∀ w, s''.HasTable w ↔ s'.HasTable w)
    (hTable : ∀ w, s''.tableFor w = s'.tableFor w) :
    PagesMoved s held s'' := by
  refine ⟨hMoved.managed.of_same hPmm hDirectory hHas hTable,
    hInit.trans hMoved.initialized, ?_, ?_, ?_, ?_⟩
  · rw [hPmm]
    exact hMoved.stop
  · rw [hPmm]
    exact hMoved.runs
  · intro q hq hAvailable
    rw [hPmm]
    rcases hMoved.covers q hq hAvailable with hStill | ⟨w, hw, hEq⟩
    · exact Or.inl hStill
    · exact Or.inr ⟨w, (hHas w).mpr hw, (hTable w).trans hEq⟩
  · intro w hw
    obtain ⟨hStill, hSame⟩ := hMoved.tables w hw
    exact ⟨(hHas w).mpr hStill, (hTable w).trans hSame⟩

/- A page is entered as a table: it is taken and no other is. -/
theorem Managed.entered (hManaged : Managed s (t :: held)) (hNot : ¬ s.HasTable v) :
    Managed (s.entered v t 0) held ∧
      ((s.entered v t 0).HasTable v ∧ (s.entered v t 0).tableFor v = t) ∧
      ∀ w, s.HasTable w →
        (s.entered v t 0).HasTable w ∧ (s.entered v t 0).tableFor w = s.tableFor w := by
  have hSep := hManaged.separate
  obtain ⟨hZero, ⟨hAligned, hWord⟩, -, -⟩ := hManaged.region t List.mem_cons_self
  obtain ⟨hApart, hOther⟩ := hSep.heldApart t List.mem_cons_self
  have hHas := hasTable_entered hSep.directoryAligned hAligned hApart v 0
  have hTable := @tableFor_entered 0 t s hSep.directoryAligned hAligned hWord hApart rfl v
  have hReady := hSep.enterTable hAligned hWord hNot (Nat.zero_and _)
  obtain ⟨hPmm, -, -⟩ := entered_rest s v t 0
  have hForgot := hManaged.forget (List.sublist_cons_self t held)
  generalize s.entered v t 0 = e at hHas hTable hReady hPmm ⊢
  refine ⟨⟨hReady.separate, ?_, ?_, ?_, ?_, ?_⟩, ⟨hReady.has, hReady.table⟩, ?_⟩
  · -- two tables that are the same page
    intro x y hx hy hSame
    rw [hTable x, hTable y] at hSame
    by_cases hx' : s.directorySlot x = s.directorySlot v
    · by_cases hy' : s.directorySlot y = s.directorySlot v
      · exact (directorySlot_eq_iff s x y).mp (hx'.trans hy'.symm)
      · rw [if_pos hx', if_neg hy'] at hSame
        exact absurd hSame (hOther y (((hHas y).mp hy).resolve_left hy'))
    · by_cases hy' : s.directorySlot y = s.directorySlot v
      · rw [if_neg hx', if_pos hy'] at hSame
        exact absurd hSame.symm (hOther x (((hHas x).mp hx).resolve_left hx'))
      · rw [if_neg hx', if_neg hy'] at hSame
        exact hManaged.distinct x y (((hHas x).mp hx).resolve_left hx')
          (((hHas y).mp hy).resolve_left hy') hSame
  · intro w hw
    rw [hTable w]
    by_cases hSlot : s.directorySlot w = s.directorySlot v
    · rw [if_pos hSlot]
      exact hZero
    · rw [if_neg hSlot]
      exact hManaged.nonzero w (((hHas w).mp hw).resolve_left hSlot)
  · rw [hPmm]
    exact hForgot.kept
  · rw [hPmm]
    exact hForgot.region
  · rw [hPmm]
    exact hForgot.room
  · intro w hw
    obtain ⟨hStill, hSame, -⟩ := hReady.keeps w hw
    exact ⟨hStill, hSame⟩

/- Without a table there is no page for one. -/
theorem TableOutcome.exhausted (hOutcome : TableOutcome s v vmmPageWritable t s') (hManaged : Managed s held)
    (hZero : t = 0) :
    (pmmAllocPage s.pmm).1 = 0 ∧ s'.pmm = s.pmm := by
  cases hOutcome with
  | found hHas => exact absurd hZero (hManaged.nonzero v hHas)
  | marked hHas => exact absurd hZero (hManaged.nonzero v hHas)
  | none hNot hNone => exact ⟨hNone, pmmAllocPage_none hManaged.separate.pmm hNone⟩
  | created hNot hSome => exact absurd hZero hSome

/- A page taken for a table and entered as one. -/
theorem PagesMoved.created (hTaken : Managed { s with pmm := m } (page :: held))
    (hLent : PageLent s.pmm page m) (hNot : ¬ s.HasTable v) :
    PagesMoved s held (PageState.entered { s with pmm := m } v page 0) := by
  obtain ⟨hEntered, hNew, hOld⟩ := hTaken.entered fun hHas =>
      hNot ((hasTable_withPmm s m v).mp hHas)
  obtain ⟨hPmm, -, hRest⟩ := entered_rest { s with pmm := m } v page 0
  generalize PageState.entered { s with pmm := m } v page 0 = e at hEntered hNew hOld hPmm hRest ⊢
  refine ⟨hEntered, by rw [hRest], ?_, ?_, ?_, ?_⟩
  · rw [hPmm]
    exact hLent.stop
  · rw [hPmm]
    exact hLent.runs
  · intro q hq hAvailable
    rw [hPmm]
    rcases hLent.covers q hq hAvailable with hTable | hStill
    · exact Or.inr ⟨v, hNew.1, hNew.2.trans hTable.symm⟩
    · exact Or.inl hStill
  · intro w hw
    obtain ⟨hStill, hSame⟩ := hOld w ((hasTable_withPmm s m w).mpr hw)
    exact ⟨hStill, hSame.trans (tableFor_withPmm s m w)⟩

theorem TableOutcome.moved (hManaged : Managed s held) (hFew : held.length < pmmMaxFreePages)
    (hOutcome : TableOutcome s v vmmPageWritable t s') :
    PagesMoved s held s' := by
  cases hOutcome with
  | found hHas => exact PagesMoved.refl hManaged
  | none hNot hNone =>
    rw [pmmAllocPage_none hManaged.separate.pmm hNone]
    exact PagesMoved.refl hManaged
  | marked hHas =>
    exact (PagesMoved.refl hManaged).of_same rfl rfl rfl (hasTable_mark hHas _)
      (tableFor_mark s v (by decide))
  | created hNot hSome =>
    have hMoved := PagesMoved.created (hManaged.alloc hFew hSome) (hManaged.kept.alloc hSome) hNot
    have hRest :=
      (entered_rest { s with pmm := (pmmAllocPage s.pmm).2 } v (pmmAllocPage s.pmm).1 0).2.2
    rw [show vmmPageWritable &&& vmmPageUser = 0 by decide]
    generalize PageState.entered _ v (pmmAllocPage s.pmm).1 0 = e at hMoved hRest ⊢
    refine hMoved.of_same ?_ rfl rfl (hasTable_withVmm e _) (tableFor_withVmm e _)
    rw [hRest]

----------
-- Mapping And Unmapping

/- What the mapping of a kernel page does. -/
structure MapMade (s : PageState) (held : List Nat) (v : UInt32) (done : Bool)
    (s' : PageState) : Prop where
  moved : PagesMoved s held s'
  pageMap : ∀ page, s'.pageMap page = s.pageMap page ∨ (done = true ∧ page = virtualPage v.toNat)
  refused : done = false → s'.pmm = s.pmm ∧ (s.vmm.initialized = false ∨ (pmmAllocPage s.pmm).1 = 0)
  ready : done = true → s.vmm.initialized = true

/- A state is moved once its table is there. -/
theorem PagesMoved.store (hMoved : PagesMoved s held s') (hHas : s'.HasTable v) (entry : Nat)
    (hVmm : vmm.initialized = s'.vmm.initialized) :
    PagesMoved s held { s'.write (s'.tableSlot v) entry with vmm := vmm } := by
  have hApart := hMoved.managed.laid.slot_ne_tableSlot hHas
  exact hMoved.of_same hVmm rfl rfl (hasTable_write_apart s' hApart entry)
    (tableFor_write_apart s' hApart entry)

theorem PagesMoved.ofVmm (hMoved : PagesMoved { s with vmm := vmm } held s')
    (hVmm : vmm.initialized = s.vmm.initialized) :
    PagesMoved s held s' := by
  refine ⟨hMoved.managed, hMoved.initialized.trans hVmm,
    hMoved.stop, hMoved.runs, hMoved.covers, ?_⟩
  intro w hw
  obtain ⟨hStill, hSame⟩ := hMoved.tables w ((hasTable_withVmm s vmm w).mpr hw)
  exact ⟨hStill, hSame.trans (tableFor_withVmm s vmm w)⟩

theorem Managed.map (hManaged : Managed s held) (hFew : held.length < pmmMaxFreePages)
    (v p : UInt32) :
    MapMade s held v (vmmMapPage v.toNat p.toNat vmmPageWritable s).1
      (vmmMapPage v.toNat p.toNat vmmPageWritable s).2 := by
  have hAnswers := (map_answers ⟨hManaged.laid, rfl⟩ v p 2).2
  have hOutcome := vmmMapPage_outcome s v.toNat p.toNat vmmPageWritable
  change PageMap.Answers _ _ _ (vmmMapPage v.toNat p.toNat vmmPageWritable s).1.toNat
    (vmmMapPage v.toNat p.toNat vmmPageWritable s).2.pageMap
    at hAnswers
  generalize vmmMapPage v.toNat p.toNat vmmPageWritable s = result at hAnswers hOutcome ⊢
  obtain ⟨done, s'⟩ := result
  have hPages :
      ∀ page, s'.pageMap page = s.pageMap page ∨ (done = true ∧ page = virtualPage v.toNat) := by
    intro page
    rcases hAnswers with ⟨-, hSame⟩ | ⟨hDone, -, -, hSet⟩
    · exact Or.inl (congrFun hSame page)
    · by_cases hPage : page = virtualPage v.toNat
      · exact Or.inr ⟨Bool.toNat_eq_one.mp hDone, hPage⟩
      · refine Or.inl ?_
        rw [hSet]
        exact Function.update_of_ne hPage _ _
  cases hOutcome with
  | refused vmm hVmm hWhy =>
    refine ⟨(PagesMoved.refl hManaged).of_same hVmm rfl rfl
      (fun _ => Iff.rfl) (fun _ => rfl), hPages, ?_, by simp⟩
    intro _
    refine ⟨rfl, Or.inl (hWhy.resolve_right ?_)⟩
    decide
  | noTable vmm vmm' hInit hValid hVmm t s' hTable hNone hVmm' =>
    have hTables := vmmGetOrCreatePageTable_outcome (pageAlignDown v.toNat)
        vmmPageWritable { s with vmm := vmm }
    rw [hTable] at hTables
    have hMoved := (hTables.moved (hManaged.withVmm vmm) hFew).ofVmm hVmm
    refine ⟨hMoved.of_same hVmm' rfl rfl (hasTable_withVmm s' vmm') (tableFor_withVmm s' vmm'),
      hPages, ?_, by simp⟩
    intro _
    obtain ⟨hExhausted, hPmm⟩ := hTables.exhausted (hManaged.withVmm vmm) hNone
    exact ⟨hPmm, Or.inr hExhausted⟩
  | stored vmm vmm' hInit hValid hVmm t s' hTable hSome hVmm' =>
    have hTables := vmmGetOrCreatePageTable_outcome (pageAlignDown v.toNat)
        vmmPageWritable { s with vmm := vmm }
    have hFound := vmmGetOrCreatePageTable_found (hManaged.laid.withVmm vmm) (pageAlignDown v.toNat)
        vmmPageWritable
    rw [hTable] at hTables hFound
    have hFound := hFound.resolve_left fun hNone =>
        hSome (congrArg Prod.fst hNone.2.2)
    have hMoved := (hTables.moved (hManaged.withVmm vmm) hFew).ofVmm hVmm
    have hSlot : t + 4 * pageTableIndex (pageAlignDown v.toNat) =
          s'.tableSlot (pageAlignDown v.toNat) := by
      rw [PageState.tableSlot, hFound.table]
    rw [hSlot] at hPages ⊢
    exact ⟨hMoved.store hFound.has _ hVmm', hPages, by simp, fun _ => hInit⟩

/- What the unmapping of a page does. -/
structure Unmapped (s : PageState) (held : List Nat) (v : UInt32) (s' : PageState) : Prop where
  managed : Managed s' held
  pmm : s'.pmm = s.pmm
  initialized : s'.vmm.initialized = s.vmm.initialized
  tables : ∀ w, (s'.HasTable w ↔ s.HasTable w) ∧ s'.tableFor w = s.tableFor w
  pageMap : s.vmm.initialized = true → s'.pageMap = s.pageMap.set (virtualPage v.toNat) none

theorem Managed.unmap (hManaged : Managed s held) (v : UInt32) :
    Unmapped s held v (vmmUnmapPage v.toNat s).2 := by
  have hAnswers := (unmap_answers ⟨hManaged.laid, rfl⟩ v).2
  have hOutcome := vmmUnmapPage_outcome s v.toNat
  generalize vmmUnmapPage v.toNat s = result at hAnswers hOutcome ⊢
  obtain ⟨done, s'⟩ := result
  have hPages :
      s.vmm.initialized = true → s'.pageMap = s.pageMap.set (virtualPage v.toNat) none := by
    intro hInit
    dsimp only [PageMap.Answers] at hAnswers
    by_cases hMapped : s.pageMap (virtualPage v.toNat) ≠ none
    · rw [if_pos ⟨hInit, hMapped⟩] at hAnswers
      exact hAnswers.2
    · rw [if_neg fun hBoth => hMapped hBoth.2] at hAnswers
      -- nothing is mapped there, and nothing changes
      rw [hAnswers.2, PageMap.set, eq_comm, Function.update_eq_self_iff]
      exact (not_not.mp hMapped).symm
  cases hOutcome with
  | missing vmm hVmm hWhy =>
    exact ⟨hManaged.withVmm vmm, rfl, hVmm,
      fun w => ⟨hasTable_withVmm s vmm w, tableFor_withVmm s vmm w⟩, hPages⟩
  | cleared vmm hVmm hMapped hHas =>
    have hApart := hManaged.laid.slot_ne_tableSlot hHas
    have hHasSame := hasTable_write_apart s hApart 0
    have hTableSame := tableFor_write_apart s hApart 0
    exact ⟨hManaged.of_same rfl rfl hHasSame hTableSame, rfl,
      hVmm, fun w => ⟨hHasSame w, hTableSame w⟩, hPages⟩

end LiamOS.I386
