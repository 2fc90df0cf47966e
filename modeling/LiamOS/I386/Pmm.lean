import LiamOS.Lib.Word

/-
  The i386 physical memory manager, `kernel/memory/pmm.c`: pages come from a stack of freed pages
  first and from a bump pointer after that.

  Key definitions: `Pmm`, `pmmAllocPage`, `pmmFreePage`, `Pmm.Available`, `Pmm.Wf`.
-/

namespace LiamOS.I386

open Word

variable {m : Pmm}

def pmmMaxFreePages : Nat := 1024

/- `pmm_stats_t` and `free_stack`, its top first. -/
structure Pmm where
  allocationStart : Nat
  allocationEnd : Nat
  nextFreePage : Nat
  allocatedPages : Nat
  freeStack : List Nat
deriving DecidableEq

def pmmAllocPage (m : Pmm) : Nat × Pmm :=
  match m.freeStack with
  | page :: rest =>
    (page,
      { m with
        freeStack := rest
        allocatedPages := u32 (m.allocatedPages + 1) })
  | [] =>
    if m.nextFreePage = 0 then
      (0, m)
    else if m.allocationEnd < u32 (m.nextFreePage + 4096) then
      (0, m)
    else
      (m.nextFreePage,
        { m with
          nextFreePage := u32 (m.nextFreePage + 4096)
          allocatedPages := u32 (m.allocatedPages + 1) })

def pmmFreePage (page : Nat) (m : Pmm) : Pmm := if page = 0 then
    m
  else if page % 4096 ≠ 0 then
    m
  else if page < m.allocationStart ∨ m.allocationEnd ≤ page then
    m
  else if m.nextFreePage ≤ page then
    m
  else if page ∈ m.freeStack then
    m
  else if pmmMaxFreePages ≤ m.freeStack.length then
    m
  else
    { m with
      freeStack := page :: m.freeStack
      allocatedPages := if 0 < m.allocatedPages then m.allocatedPages - 1 else m.allocatedPages }

----------
-- Available Pages

/- The pages a later allocation may return. -/
def Pmm.Available (m : Pmm) (page : Nat) : Prop :=
  page ∈ m.freeStack ∨ m.nextFreePage ≠ 0 ∧ m.nextFreePage ≤ page

/- Freed pages are pages below the bump pointer, once each. -/
structure Pmm.Wf (m : Pmm) : Prop where
  nextAligned : m.nextFreePage % 4096 = 0
  nextWord : m.nextFreePage < 4294967296
  stackNodup : m.freeStack.Nodup
  stackPage : ∀ page ∈ m.freeStack, page % 4096 = 0 ∧ page ≠ 0 ∧ page < 4294967296
  stackBelow : ∀ page ∈ m.freeStack, m.nextFreePage = 0 ∨ page < m.nextFreePage

/- What an allocation that gives a page does. -/
structure PageTaken (m : Pmm) (page : Nat) (m' : Pmm) : Prop where
  aligned : page % 4096 = 0
  word : page < 4294967296
  was : m.Available page
  gone : ¬ m'.Available page
  fewer : ∀ q, m'.Available q → m.Available q
  wf : m'.Wf

/- An allocation with no freed page and room for a new one. -/
theorem pmmAllocPage_bump (hStack : m.freeStack = []) (hSome : m.nextFreePage ≠ 0)
    (hFits : u32 (m.nextFreePage + 4096) ≤ m.allocationEnd) :
    pmmAllocPage m =
      (m.nextFreePage,
        { m with
          nextFreePage := u32 (m.nextFreePage + 4096)
          allocatedPages := u32 (m.allocatedPages + 1) }) := by
  unfold pmmAllocPage
  rw [hStack]
  dsimp only
  rw [if_neg hSome, if_neg (Nat.not_lt.mpr hFits)]

theorem pmmAllocPage_spec (hWf : m.Wf) : ((pmmAllocPage m).1 = 0 ∧ (pmmAllocPage m).2 = m) ∨
      ((pmmAllocPage m).1 ≠ 0 ∧ PageTaken m (pmmAllocPage m).1 (pmmAllocPage m).2) := by
  have hAligned := hWf.nextAligned
  have hWord := hWf.nextWord
  unfold pmmAllocPage
  cases hStack : m.freeStack with
  | cons page rest =>
    have hMem : page ∈ m.freeStack := by simp [hStack]
    have hSub : ∀ q, q ∈ rest → q ∈ m.freeStack := by
      intro q hq
      simp [hStack, hq]
    have hNodup := hWf.stackNodup
    rw [hStack, List.nodup_cons] at hNodup
    rcases hWf.stackPage page hMem with ⟨hPage, hZero, hSmall⟩
    refine Or.inr ⟨hZero, hPage, hSmall, Or.inl hMem, ?_, ?_, ⟨hAligned, hWord, hNodup.2, ?_, ?_⟩⟩
    · rintro (hRest | ⟨hSome, hLe⟩)
      · exact hNodup.1 hRest
      · rcases hWf.stackBelow page hMem with hNone | hLt
        · exact hSome hNone
        · simp only at hLe
          omega
    · rintro q (hRest | hBump)
      · exact Or.inl (hSub q hRest)
      · exact Or.inr hBump
    · intro q hq
      exact hWf.stackPage q (hSub q hq)
    · intro q hq
      exact hWf.stackBelow q (hSub q hq)
  | nil =>
    by_cases hNone : m.nextFreePage = 0
    · exact Or.inl (by simp [hNone])
    by_cases hFull : m.allocationEnd < u32 (m.nextFreePage + 4096)
    · exact Or.inl (by simp [hNone, hFull])
    simp only [hNone, hFull, if_false]
    have hNext : u32 (m.nextFreePage + 4096) = 0 ∨
          u32 (m.nextFreePage + 4096) = m.nextFreePage + 4096 := by
      unfold u32
      omega
    refine Or.inr ⟨hNone, hAligned, hWord, Or.inr ⟨hNone, le_refl _⟩, ?_, ?_,
      ⟨?_, u32_lt _, ?_, ?_, ?_⟩⟩
    · rintro (hRest | ⟨hSome, hLe⟩)
      · simp at hRest
      · simp only at hSome hLe
        omega
    · rintro q (hRest | ⟨hSome, hLe⟩)
      · simp at hRest
      · simp only at hSome hLe
        exact Or.inr ⟨hNone, by omega⟩
    · simp only
      omega
    · simp
    · simp
    · simp

theorem pmmAllocPage_none (hWf : m.Wf) (hPage : (pmmAllocPage m).1 = 0) :
    (pmmAllocPage m).2 = m := by
  rcases pmmAllocPage_spec hWf with ⟨-, hSame⟩ | ⟨hSome, -⟩
  · exact hSame
  · exact absurd hPage hSome

theorem pmmFreePage_available {page q : Nat} (hAvailable : (pmmFreePage page m).Available q) :
    m.Available q ∨ q = page := by
  unfold pmmFreePage at hAvailable
  split at hAvailable
  · exact Or.inl hAvailable
  split at hAvailable
  · exact Or.inl hAvailable
  split at hAvailable
  · exact Or.inl hAvailable
  split at hAvailable
  · exact Or.inl hAvailable
  split at hAvailable
  · exact Or.inl hAvailable
  split at hAvailable
  · exact Or.inl hAvailable
  rcases hAvailable with hStack | hBump
  · rcases List.mem_cons.mp hStack with hEq | hMem
    · exact Or.inr hEq
    · exact Or.inl (Or.inl hMem)
  · exact Or.inl (Or.inr hBump)

theorem pmmFreePage_wf (hWf : m.Wf) (page : Nat) : (pmmFreePage page m).Wf := by
  have hWord := hWf.nextWord
  unfold pmmFreePage
  split
  · exact hWf
  rename_i hZero
  split
  · exact hWf
  rename_i hAligned
  split
  · exact hWf
  split
  · exact hWf
  rename_i hBelow
  split
  · exact hWf
  rename_i hFresh
  split
  · exact hWf
  refine ⟨hWf.nextAligned, hWord, List.nodup_cons.mpr ⟨hFresh, hWf.stackNodup⟩, ?_, ?_⟩
  · intro q hq
    rcases List.mem_cons.mp hq with hEq | hMem
    · subst hEq
      exact ⟨by simpa using hAligned, hZero, by omega⟩
    · exact hWf.stackPage q hMem
  · intro q hq
    rcases List.mem_cons.mp hq with hEq | hMem
    · subst hEq
      exact Or.inr (by simpa using hBelow)
    · exact hWf.stackBelow q hMem

end LiamOS.I386
