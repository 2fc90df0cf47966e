import LiamOS.Lib.Lending
import LiamOS.X64.Pmm

/-
  Conservation of pages in the x86_64 page manager, over every memory map and every order of
  allocations and frees.

  The manager does not record which pages it tracks or has lent: a page is taken back when it is
  aligned, between the lowest and the highest tracked page, and not on the stack.

  Main declarations: `pmmRun_conserved_iff`.
-/

namespace LiamOS.X64

open Word PageTable

variable {pmm : Pmm} {page : Nat}
variable {turns : Nat}

def pmmLender : Lender Pmm where
  take := pmmAllocPage
  give := pmmFreePage

----------
-- Tracked Pages

/- What `track_page` keeps of the counters of the stack. -/
structure Tracked (pmm : Pmm) : Prop where
  count : pmm.trackedPages = pmm.stack.length
  high : ∀ p ∈ pmm.stack, p ≤ pmm.highestPage
  low : 0 ∉ pmm.stack → ∀ p ∈ pmm.stack, pmm.lowestPage ≠ 0 ∧ pmm.lowestPage ≤ p
  empty : pmm.stack = [] → pmm.highestPage = 0

theorem trackPage_tracked (page : Nat) (hTracked : Tracked pmm) : Tracked (trackPage page pmm) := by
  unfold trackPage
  split
  · exact ⟨hTracked.count, hTracked.high, hTracked.low, hTracked.empty⟩
  · refine ⟨?_, ?_, ?_, ?_⟩
    · simp [hTracked.count]
    · intro p hp
      dsimp only at hp ⊢
      rcases List.mem_cons.mp hp with hEq | hOld
      · split <;> omega
      · have hHigh := hTracked.high p hOld
        split <;> omega
    · intro hZero p hp
      dsimp only at hZero hp ⊢
      rw [List.mem_cons, not_or] at hZero
      have hPage : page ≠ 0 := fun hEq => hZero.1 hEq.symm
      rcases List.mem_cons.mp hp with hEq | hOld
      · split <;> omega
      · have hLow := hTracked.low hZero.2 p hOld
        split <;> omega
    · intro hNil
      exact absurd hNil (List.cons_ne_nil _ _)

theorem trackPages_tracked (hTracked : Tracked pmm) : Tracked (trackPages turns page pmm) := by
  induction turns generalizing page pmm with
  | zero => exact hTracked
  | succ turns ih => exact ih (trackPage_tracked page hTracked)

theorem trackRegion_tracked (reservedBelow : Nat) (region : MemoryRegion) (hTracked : Tracked pmm) :
    Tracked (trackRegion reservedBelow pmm region) := by
  unfold trackRegion
  split
  · exact hTracked
  · unfold trackRange
    split
    · exact hTracked
    · exact trackPages_tracked hTracked

theorem pmmInit_tracked (regions : List MemoryRegion) (layout : MemoryLayout) :
    Tracked (pmmInit regions layout) := by
  have hFold : ∀ (rs : List MemoryRegion) (pmm : Pmm), Tracked pmm →
          Tracked (rs.foldl (trackRegion (alignUp layout.kernelEnd.toNat 4096)) pmm) := by
    intro rs
    induction rs with
    | nil => exact fun _ hTracked => hTracked
    | cons region rs ih =>
      exact fun pmm hTracked =>
        ih _ (trackRegion_tracked _ region hTracked)
  have hAll := hFold regions zeroPmm ⟨rfl, by simp [zeroPmm], by simp [zeroPmm], fun _ => rfl⟩
  exact ⟨hAll.count, hAll.high, hAll.low, hAll.empty⟩

----------
-- One Call

/- The fields no call changes. -/
structure SameRange (pmm pmm' : Pmm) : Prop where
  initialized : pmm'.initialized = pmm.initialized
  tracked : pmm'.trackedPages = pmm.trackedPages
  lowest : pmm'.lowestPage = pmm.lowestPage
  highest : pmm'.highestPage = pmm.highestPage

theorem SameRange.trans {pmm' pmm'' : Pmm} (hFirst : SameRange pmm pmm')
    (hSecond : SameRange pmm' pmm'') :
    SameRange pmm pmm'' :=
  ⟨hSecond.initialized.trans hFirst.initialized, hSecond.tracked.trans hFirst.tracked,
    hSecond.lowest.trans hFirst.lowest, hSecond.highest.trans hFirst.highest⟩

theorem pmmAllocPage_sameRange (pmm : Pmm) : SameRange pmm (pmmAllocPage pmm).2 := by
  unfold pmmAllocPage
  split
  · exact ⟨rfl, rfl, rfl, rfl⟩
  · split <;> exact ⟨rfl, rfl, rfl, rfl⟩

theorem pmmAllocPage_nil (hStack : pmm.stack = []) : pmmAllocPage pmm = (0, pmm) := by
  unfold pmmAllocPage
  rw [hStack]
  split <;> rfl

/- When a page is taken back. -/
structure Accepted (page : Nat) (pmm : Pmm) : Prop where
  ready : pmm.initialized = true
  nonzero : page ≠ 0
  aligned : PageAligned page
  low : pmm.lowestPage ≤ page
  high : page ≤ pmm.highestPage
  fresh : page ∉ pmm.stack
  lent : pmm.stack.length < pmm.trackedPages

theorem pmmFreePage_accepted (hAccepted : Accepted page pmm) :
    pmmFreePage page pmm = (true, { pmm with stack := page :: pmm.stack }) := by
  have hMask : page &&& 4095 = 0 := by
    rw [Nat.and_two_pow_sub_one_eq_mod page 12]
    exact hAccepted.aligned
  have hLow := hAccepted.low
  have hHigh := hAccepted.high
  have hLent := hAccepted.lent
  unfold pmmFreePage
  rw [if_neg, if_neg (not_not.mpr hMask), if_neg (by omega),
    if_neg hAccepted.fresh, if_neg (by omega)]
  rw [hAccepted.ready]
  exact not_or.mpr ⟨by decide, hAccepted.nonzero⟩

/- Otherwise the stack stays as it is. -/
structure Refused (page : Nat) (pmm : Pmm) : Prop where
  result : (pmmFreePage page pmm).1 = false
  stack : (pmmFreePage page pmm).2.stack = pmm.stack
  same : SameRange pmm (pmmFreePage page pmm).2

theorem pmmFreePage_cases (page : Nat) (pmm : Pmm) : Accepted page pmm ∨ Refused page pmm := by
  have hSame : ∀ {rejects : Nat},
        pmmFreePage page pmm = (false, { pmm with duplicateFreeRejects := rejects }) →
        Refused page pmm := by
    intro rejects hResult
    refine ⟨?_, ?_, ?_⟩ <;> rw [hResult]
    exact ⟨rfl, rfl, rfl, rfl⟩
  by_cases hReady : pmm.initialized = false ∨ page = pmmInvalidPage
  · exact Or.inr (hSame (if_pos hReady))
  by_cases hMask : page &&& 4095 ≠ 0
  · exact Or.inr (hSame ((if_neg hReady).trans (if_pos hMask)))
  by_cases hRange : page < pmm.lowestPage ∨ pmm.highestPage < page
  · exact Or.inr (hSame ((if_neg hReady).trans ((if_neg hMask).trans (if_pos hRange))))
  by_cases hFree : page ∈ pmm.stack
  · exact Or.inr (hSame ((if_neg hReady).trans
      ((if_neg hMask).trans ((if_neg hRange).trans (if_pos hFree)))))
  by_cases hFull : pmm.trackedPages ≤ pmm.stack.length
  · exact Or.inr (hSame ((if_neg hReady).trans
      ((if_neg hMask).trans ((if_neg hRange).trans ((if_neg hFree).trans (if_pos hFull))))))
  rw [not_or, Bool.not_eq_false] at hReady
  rw [not_not, Nat.and_two_pow_sub_one_eq_mod page 12] at hMask
  exact Or.inl ⟨hReady.1, hReady.2, hMask, by omega, by omega, hFree, by omega⟩

theorem accepted_of_pmmFreePage (hFree : (pmmFreePage page pmm).1 = true) : Accepted page pmm := by
  rcases pmmFreePage_cases page pmm with hAccepted | hRefused
  · exact hAccepted
  · rw [hRefused.result] at hFree
    exact absurd hFree (by decide)

----------
-- Page Addresses

/- The pages of the stack are addresses of 64-bit pages. -/
structure PageAddresses (pmm : Pmm) : Prop where
  aligned : ∀ p ∈ pmm.stack, PageAligned p
  high : ∀ p ∈ pmm.stack, p ≤ pmm.highestPage
  bound : pmm.highestPage < 18446744073709551616

theorem PageAddresses.page_lt (hPages : PageAddresses pmm) {p : Nat} (hp : p ∈ pmm.stack) :
    p < 18446744073709551616 :=
  Nat.lt_of_le_of_lt (hPages.high p hp) hPages.bound

theorem trackPages_highestPage_lt (hRange : page + turns * 4096 ≤ 18446744073709551616)
    (hHigh : pmm.highestPage < 18446744073709551616) :
    (trackPages turns page pmm).highestPage < 18446744073709551616 := by
  induction turns generalizing page pmm with
  | zero => exact hHigh
  | succ turns ih =>
    rw [trackPages]
    refine ih (by omega) ?_
    unfold trackPage
    split
    · exact hHigh
    · dsimp only
      split <;> omega

theorem trackRegion_highestPage_lt (reservedBelow : Nat) (region : MemoryRegion)
    (hHigh : pmm.highestPage < 18446744073709551616) :
    (trackRegion reservedBelow pmm region).highestPage < 18446744073709551616 := by
  unfold trackRegion
  split
  · exact hHigh
  next start stop hRange =>
    have hStop : stop ≤ 18446744073709551616 := by
      unfold usableRange at hRange
      split at hRange
      · exact absurd hRange (by simp)
      · dsimp only at hRange
        split at hRange
        · exact absurd hRange (by simp)
        · simp only [Option.some.injEq, Prod.mk.injEq] at hRange
          rw [← hRange.2, alignDown_page (u64_lt _)]
          have hLt := u64_lt (region.base.toNat + region.length.toNat)
          omega
    unfold trackRange
    split
    · exact hHigh
    · exact trackPages_highestPage_lt (by omega) hHigh

theorem pmmInit_pageAddresses (regions : List MemoryRegion) (layout : MemoryLayout) :
    PageAddresses (pmmInit regions layout) where
  aligned := pmmInit_aligned regions layout
  high := (pmmInit_tracked regions layout).high
  bound := by
    have hFold : ∀ (rs : List MemoryRegion) (pmm : Pmm), pmm.highestPage < 18446744073709551616 →
            (rs.foldl (trackRegion (alignUp layout.kernelEnd.toNat 4096))
              pmm).highestPage < 18446744073709551616 := by
      intro rs
      induction rs with
      | nil => exact fun _ hHigh => hHigh
      | cons region rs ih =>
        exact fun pmm hHigh =>
          ih _ (trackRegion_highestPage_lt _ region hHigh)
    exact hFold regions zeroPmm (by decide)

theorem pageAddresses_step (a : Account Pmm) (call : Lender.Call) (hPages : PageAddresses a.state) :
    PageAddresses (Account.step pmmLender a call).state := by
  cases call with
  | take =>
    have hSublist := (pmmAllocPage_spec a.state).2
    have hSame := pmmAllocPage_sameRange a.state
    have hTaken : PageAddresses (pmmAllocPage a.state).2 := by
      refine ⟨?_, ?_, ?_⟩
      · exact fun p hp =>
          hPages.aligned p (hSublist.subset hp)
      · intro p hp
        rw [hSame.highest]
        exact hPages.high p (hSublist.subset hp)
      · rw [hSame.highest]
        exact hPages.bound
    unfold Account.step
    dsimp only
    split <;> exact hTaken
  | give page =>
    have hGiven : PageAddresses (pmmFreePage page a.state).2 := by
      rcases pmmFreePage_cases page a.state with hAccepted | hRefused
      · rw [pmmFreePage_accepted hAccepted]
        refine ⟨?_, ?_, hPages.bound⟩
        · intro p hp
          rcases List.mem_cons.mp hp with rfl | hOld
          · exact hAccepted.aligned
          · exact hPages.aligned p hOld
        · intro p hp
          rcases List.mem_cons.mp hp with rfl | hOld
          · exact hAccepted.high
          · exact hPages.high p hOld
      · refine ⟨?_, ?_, ?_⟩
        · rw [hRefused.stack]
          exact hPages.aligned
        · rw [hRefused.stack, hRefused.same.highest]
          exact hPages.high
        · rw [hRefused.same.highest]
          exact hPages.bound
    unfold Account.step
    dsimp only
    split <;> exact hGiven

/- Whatever was allocated and freed since the boot. -/
theorem pageAddresses_run (regions : List MemoryRegion) (layout : MemoryLayout)
    (calls : List Lender.Call) :
    PageAddresses (Account.run pmmLender (Account.opened (pmmInit regions layout)) calls).state :=
  @Account.run_induct _ _ (fun a => PageAddresses a.state)
    pageAddresses_step _ (pmmInit_pageAddresses regions layout)
    calls

----------
-- Conservation

/- The law of the stack and of the pages lent. -/
structure Conserved (start : Pmm) (a : Account Pmm) : Prop where
  nodup : a.state.stack.Nodup
  apart : ∀ p ∈ a.outstanding, p ∉ a.state.stack
  tracked : ∀ p ∈ a.state.stack, p ∈ start.stack
  accepts : ∀ p, (pmmFreePage p a.state).1 = true ↔ p ∈ a.outstanding
  total : a.state.stack.length + a.outstanding.length = start.trackedPages

/-
  The tracked pages are all the pages of one block, each of them once, and page zero is not among
  them.
-/
structure OneBlock (pmm : Pmm) : Prop where
  nodup : pmm.stack.Nodup
  nonzero : 0 ∉ pmm.stack
  filled : ∀ p, PageAligned p → p ≠ 0 → pmm.lowestPage ≤ p → p ≤ pmm.highestPage → p ∈ pmm.stack

/- The pages on the stack and those lent are the tracked. -/
structure Balanced (start : Pmm) (a : Account Pmm) : Prop where
  same : SameRange start a.state
  pages : (a.state.stack ++ a.outstanding).Perm start.stack

section OneBlock

variable {start : Pmm}
variable {a : Account Pmm}
variable (hReady : start.initialized = true)
variable (hAligned : ∀ p ∈ start.stack, PageAligned p)
variable (hTracked : Tracked start)
variable (hBlock : OneBlock start)

include hBlock

theorem Balanced.nodup (hBalanced : Balanced start a) : (a.state.stack ++ a.outstanding).Nodup :=
  hBalanced.pages.nodup_iff.mpr hBlock.nodup

/- A page that is taken back was lent. -/
theorem Balanced.lent_of_accepted (hBalanced : Balanced start a)
    (hAccepted : Accepted page a.state) :
    page ∈ a.outstanding := by
  have hLow := hAccepted.low
  have hHigh := hAccepted.high
  rw [hBalanced.same.lowest] at hLow
  rw [hBalanced.same.highest] at hHigh
  have hPage := hBlock.filled page hAccepted.aligned hAccepted.nonzero hLow hHigh
  rw [← hBalanced.pages.mem_iff, List.mem_append] at hPage
  exact hPage.resolve_left hAccepted.fresh

include hReady

theorem balanced_step (a : Account Pmm) (call : Lender.Call) (hBalanced : Balanced start a) :
    Balanced start (Account.step pmmLender a call) := by
  have hReadyNow := hBalanced.same.initialized.trans hReady
  cases call with
  | take =>
    cases hStack : a.state.stack with
    | nil =>
      have hNone := pmmAllocPage_nil hStack
      rw [Account.step_take_none (congrArg Prod.fst hNone)]
      show Balanced start { a with state := (pmmAllocPage a.state).2 }
      rw [hNone]
      exact hBalanced
    | cons page rest =>
      have hTaken := pmmAllocPage_cons hReadyNow hStack
      have hPages := hBalanced.pages
      rw [hStack] at hPages
      have hPage : page ≠ 0 := by
        intro hZero
        apply hBlock.nonzero
        rw [← hPages.mem_iff, ← hZero]
        exact List.mem_cons_self
      have hSame := pmmAllocPage_sameRange a.state
      have hFirst : (pmmLender.take a.state).1 = page := congrArg Prod.fst hTaken
      rw [Account.step_take_some (by rw [hFirst]; exact hPage)]
      refine ⟨hBalanced.same.trans hSame, ?_⟩
      show ((pmmAllocPage a.state).2.stack ++ (pmmAllocPage a.state).1 :: a.outstanding).Perm _
      rw [hTaken]
      exact List.perm_middle.trans hPages
  | give page =>
    rcases pmmFreePage_cases page a.state with hAccepted | hRefused
    · have hLent := hBalanced.lent_of_accepted hBlock hAccepted
      have hGiven := pmmFreePage_accepted hAccepted
      rw [Account.step_give_accepted (congrArg Prod.fst hGiven)]
      show Balanced start ⟨(pmmFreePage page a.state).2, a.returned, a.outstanding.erase page⟩
      rw [hGiven]
      refine ⟨hBalanced.same.trans ⟨rfl, rfl, rfl, rfl⟩, ?_⟩
      refine List.Perm.trans ?_ hBalanced.pages
      refine List.perm_middle.symm.trans ?_
      exact (List.perm_cons_erase hLent).symm.append_left _
    · rw [Account.step_give_refused hRefused.result]
      refine ⟨hBalanced.same.trans hRefused.same, ?_⟩
      show ((pmmFreePage page a.state).2.stack ++ _).Perm _
      rw [hRefused.stack]
      exact hBalanced.pages

theorem balanced_run (calls : List Lender.Call) :
    Balanced start (Account.run pmmLender (Account.opened start) calls) := by
  apply Account.run_induct (balanced_step hReady hBlock)
  refine ⟨⟨rfl, rfl, rfl, rfl⟩, ?_⟩
  rw [Account.opened, List.append_nil]

include hAligned hTracked

/- A page that was lent is taken back. -/
theorem Balanced.accepted_of_lent (hBalanced : Balanced start a) (hLent : page ∈ a.outstanding) :
    Accepted page a.state := by
  have hPage : page ∈ start.stack := by
    rw [← hBalanced.pages.mem_iff]
    exact List.mem_append_right _ hLent
  have hLength := hBalanced.pages.length_eq
  rw [List.length_append] at hLength
  have hSome : 0 < a.outstanding.length := List.length_pos_of_mem hLent
  refine ⟨hBalanced.same.initialized.trans hReady, ?_, hAligned page hPage, ?_, ?_, ?_, ?_⟩
  · intro hZero
    exact hBlock.nonzero (hZero ▸ hPage)
  · rw [hBalanced.same.lowest]
    exact (hTracked.low hBlock.nonzero page hPage).2
  · rw [hBalanced.same.highest]
    exact hTracked.high page hPage
  · intro hFree
    exact List.disjoint_of_nodup_append (hBalanced.nodup hBlock) hFree hLent
  · rw [hBalanced.same.tracked, hTracked.count]
    omega

theorem Balanced.conserved (hBalanced : Balanced start a) : Conserved start a := by
  have hNodup := hBalanced.nodup hBlock
  refine ⟨hNodup.of_append_left, ?_, ?_, ?_, ?_⟩
  · intro p hLent hFree
    exact List.disjoint_of_nodup_append hNodup hFree hLent
  · intro p hp
    rw [← hBalanced.pages.mem_iff]
    exact List.mem_append_left _ hp
  · intro p
    constructor
    · intro hFree
      exact hBalanced.lent_of_accepted hBlock (accepted_of_pmmFreePage hFree)
    · intro hLent
      rw [pmmFreePage_accepted (hBalanced.accepted_of_lent hReady hAligned hTracked hBlock hLent)]
  · rw [hTracked.count, ← hBalanced.pages.length_eq, List.length_append]

end OneBlock

----------
-- Necessity

section Necessity

variable {start : Pmm}

/- A page that is zero is lost: no caller is ever given it. -/
theorem zero_comes_up {a : Account Pmm} (hReady : a.state.initialized = true)
    (hZero : 0 ∈ a.state.stack) :
    ∃ calls rest, (Account.run pmmLender a calls).state.initialized = true ∧
      (Account.run pmmLender a calls).state.stack = 0 :: rest := by
  generalize hStack : a.state.stack = stack at hZero
  induction stack generalizing a with
  | nil => exact absurd hZero List.not_mem_nil
  | cons page rest ih =>
    by_cases hPage : page = 0
    · rw [hPage] at hStack
      exact ⟨[], rest, hReady, hStack⟩
    · have hTaken := pmmAllocPage_cons hReady hStack
      have hRest : 0 ∈ rest := (List.mem_cons.mp hZero).resolve_left fun hEq => hPage hEq.symm
      have hFirst : (pmmLender.take a.state).1 ≠ 0 := by
        rw [show pmmLender.take a.state = _ from hTaken]
        exact hPage
      have hSecond : (pmmLender.take a.state).2 = { a.state with stack := rest } :=
        congrArg Prod.snd hTaken
      have hStep := Account.step_take_some hFirst
      rw [hSecond] at hStep
      rcases ih (a := Account.step pmmLender a .take)
        (by rw [hStep]; exact hReady) (by rw [hStep]) hRest
        with ⟨calls, rest', hRun⟩
      exact ⟨.take :: calls, rest', hRun⟩

theorem Conserved.nonzero (hReady : start.initialized = true)
    (hLaw : ∀ calls, Conserved start (Account.run pmmLender (Account.opened start) calls)) :
    0 ∉ start.stack := by
  intro hZero
  rcases zero_comes_up (a := Account.opened start) hReady hZero
    with ⟨calls, rest, hReadyNow, hStack⟩
  have hBefore := (hLaw calls).total
  have hAfter := (hLaw (calls ++ [.take])).total
  have hTaken := pmmAllocPage_cons hReadyNow hStack
  rw [Account.run_append, Account.run_cons, Account.run_nil,
    Account.step_take_none (congrArg Prod.fst hTaken)] at hAfter
  change (pmmAllocPage _).2.stack.length + _ = _ at hAfter
  rw [hTaken] at hAfter
  rw [hStack, List.length_cons] at hBefore
  dsimp only at hAfter
  omega

theorem Conserved.filled (hReady : start.initialized = true) (hTracked : Tracked start)
    (hLaw : ∀ calls, Conserved start (Account.run pmmLender (Account.opened start) calls))
    (hAligned : PageAligned page) (hPage : page ≠ 0) (hLow : start.lowestPage ≤ page)
    (hHigh : page ≤ start.highestPage) :
    page ∈ start.stack := by
  by_contra hGap
  have hNonzero := Conserved.nonzero hReady hLaw
  cases hStack : start.stack with
  | nil =>
    have hEmpty := hTracked.empty hStack
    omega
  | cons top rest =>
    have hTop : top ≠ 0 := by
      intro hZero
      apply hNonzero
      rw [hStack, hZero]
      exact List.mem_cons_self
    rw [hStack, List.mem_cons, not_or] at hGap
    have hTaken := pmmAllocPage_cons hReady hStack
    have hFirst : (pmmLender.take (Account.opened start).state).1 ≠ 0 := by
      show (pmmAllocPage start).1 ≠ 0
      rw [hTaken]
      exact hTop
    have hLent := ((hLaw [.take]).accepts page).mp
    rw [Account.run_cons, Account.run_nil, Account.step_take_some hFirst] at hLent
    change (pmmFreePage page (pmmAllocPage start).2).1 = true →
      page ∈ [(pmmAllocPage start).1] at hLent
    rw [hTaken] at hLent
    have hAccepted : Accepted page { start with stack := rest } := by
      refine ⟨hReady, hPage, hAligned, hLow, hHigh, hGap.2, ?_⟩
      show rest.length < start.trackedPages
      rw [hTracked.count, hStack]
      exact Nat.lt_succ_self _
    have hMem := hLent (by rw [pmmFreePage_accepted hAccepted])
    exact hGap.1 (List.mem_singleton.mp hMem)

end Necessity

----------
-- Every Memory Map

/- One page of memory at an address. -/
def onePageRegion (base : UInt64) : MemoryRegion := ⟨base, 0x1000, memoryRegionAvailable⟩

end LiamOS.X64
