import LiamOS.X64.Process.Ownership

/-
  The free pages over the life of a process.

  A page is taken back only between the lowest and the highest page of the page manager. The pages
  of the processes and the free ones are in this range from the boot on, so a process that is
  reaped gives all its pages back.

  Key definitions: `PagesInRange`, `CreationFrame`.
-/

namespace LiamOS.X64

open Word PageTable

variable {i : Fin 64} {context : PagingContext} {w w' : SlotState} {builder : BuilderState}
variable {request : UserImageRequest} {pmm : Pmm} {pages : List Nat} {pid : Nat}

----------
-- Limits Of The Page Manager

theorem SameRange.refl (pmm : Pmm) : SameRange pmm pmm := ⟨rfl, rfl, rfl, rfl⟩

theorem pmmFreePage_sameRange (page : Nat) (pmm : Pmm) :
    SameRange pmm (pmmFreePage page pmm).2 := by
  rcases pmmFreePage_cases page pmm with hAccepted | hRefused
  · rw [pmmFreePage_accepted hAccepted]
    exact ⟨rfl, rfl, rfl, rfl⟩
  · exact hRefused.same

theorem takePages_sameRange (names : List SpacePage) (pages : SpacePage → Nat) (pmm : Pmm) :
    SameRange pmm (takePages names pages pmm).2 := by
  induction names generalizing pages pmm with
  | nil => exact SameRange.refl pmm
  | cons name names ih =>
    rw [takePages]
    exact (pmmAllocPage_sameRange pmm).trans (ih _ _)

theorem releasePages_sameRange (pages : List Nat) (pmm : Pmm) :
    SameRange pmm (releasePages pages pmm) := by
  induction pages generalizing pmm with
  | nil => exact SameRange.refl pmm
  | cons page pages ih =>
    rw [releasePages]
    split
    · exact (pmmFreePage_sameRange page pmm).trans (ih _)
    · exact ih pmm

theorem allocateAddressSpace_sameRange (context : PagingContext) (w : SlotState) :
    SameRange w.pmm (allocateAddressSpace context w).2.pmm := by
  have hTaken := takePages_sameRange addressSpacePages w.process.pages w.pmm
  unfold allocateAddressSpace
  dsimp only
  split
  · exact hTaken.trans (releasePages_sameRange _ _)
  · split
    · exact hTaken.trans (releasePages_sameRange _ _)
    · exact hTaken

theorem allocateKernelStack_sameRange (w : SlotState) :
    SameRange w.pmm (allocateKernelStack w).2.pmm := by
  have hTaken := pmmAllocPage_sameRange w.pmm
  unfold allocateKernelStack
  dsimp only
  split <;> exact hTaken

theorem allocateProcess_sameRange (context : PagingContext) (w : SlotState) :
    SameRange w.pmm (allocateProcess context w).2.pmm := by
  have hSpace := allocateAddressSpace_sameRange context w
  have hStack := hSpace.trans (allocateKernelStack_sameRange (allocateAddressSpace context w).2)
  unfold allocateProcess
  dsimp only
  split
  · exact hSpace
  · split
    · exact hStack.trans ((releasePages_sameRange _ _).trans (releasePages_sameRange _ _))
    · exact hStack

/- The image is loaded to pages the process has. -/
theorem openUserImage_keeps (request : UserImageRequest) (w : SlotState) :
    (openUserImage request w).pmm = w.pmm ∧
      (openUserImage request w).process.pages = w.process.pages := by
  have hPages :
      ∀ (indices : List Nat) (w : SlotState), (indices.foldl (loadCodePage request) w).pmm = w.pmm ∧
          (indices.foldl (loadCodePage request) w).process.pages = w.process.pages := by
    intro indices
    induction indices with
    | nil => exact fun _ => ⟨rfl, rfl⟩
    | cons i indices ih => exact fun w => ih (loadCodePage request w i)
  exact hPages _ _

----------
-- What A Creation Keeps

/- The slots in use stay as they are. -/
structure CreationFrame (s s' : ProcessSystem) : Prop where
  used : ∀ j, (s.table j).state ≠ .unused → s'.table j = s.table j
  range : SameRange s.pmm s'.pmm
  ready : s'.counters.initialized = s.counters.initialized

variable {s s' : ProcessSystem}

theorem CreationFrame.refl (s : ProcessSystem) : CreationFrame s s :=
  ⟨fun _ _ => rfl, SameRange.refl _, rfl⟩

theorem CreationFrame.of_slot (hUnused : (s.table i).state = .unused)
    (hTable : ∀ j, j ≠ i → s'.table j = s.table j) (hRange : SameRange s.pmm s'.pmm)
    (hReady : s'.counters.initialized = s.counters.initialized) :
    CreationFrame s s' := by
  refine ⟨?_, hRange, hReady⟩
  intro j hUsed
  apply hTable
  rintro rfl
  exact hUsed hUnused

theorem processCreate_frame (name : List UInt8) (entry : Nat) (s : ProcessSystem) :
    CreationFrame s (processCreate name entry s).2 := by
  unfold processCreate
  split
  · exact CreationFrame.refl s
  · split
    · exact CreationFrame.refl s
    · next i hFind =>
        have hUnused := findUnusedProcess_some hFind
        have hRange := allocateProcess_sameRange s.context (s.slot i)
        dsimp only
        split
        · exact CreationFrame.of_slot hUnused (fun j hj => Function.update_of_ne hj _ _) hRange rfl
        · exact CreationFrame.of_slot hUnused (fun j hj => Function.update_of_ne hj _ _) hRange rfl

theorem processCreateUserImage_frame (request : UserImageRequest) (s : ProcessSystem) :
    CreationFrame s (processCreateUserImage request s).2 := by
  unfold processCreateUserImage
  split
  · exact CreationFrame.refl s
  · split
    · exact CreationFrame.refl s
    · next i hFind =>
        have hUnused := findUnusedProcess_some hFind
        have hRange := allocateProcess_sameRange s.context (s.slot i)
        -- the image is loaded without the page manager
        have hLoaded : ∀ w, (openUserImage request w).pmm = w.pmm :=
          fun w => (openUserImage_keeps request w).1
        have hTwice : ∀ (w w' : Process) (j : Fin 64), j ≠ i →
              Function.update (Function.update s.table i w) i w' j = s.table j := by
          intro w w' j hj
          rw [Function.update_of_ne hj, Function.update_of_ne hj]
        dsimp only
        split
        · exact CreationFrame.of_slot hUnused (fun j hj => Function.update_of_ne hj _ _) hRange rfl
        · split
          · refine CreationFrame.of_slot hUnused (hTwice _ _) ?_ rfl
            refine hRange.trans (SameRange.trans ?_ (releasePages_sameRange _ _))
            refine SameRange.trans ?_ (releasePages_sameRange _ _)
            show SameRange _ (openUserImage request _).pmm
            rw [hLoaded]
            exact SameRange.refl _
          · refine CreationFrame.of_slot hUnused (hTwice _ _) ?_ rfl
            show SameRange _ (openUserImage request _).pmm
            rw [hLoaded]
            exact hRange

/- A process takes eleven pages and one for its stack. -/
theorem allocateProcess_kernelStack (hRun : allocateProcess context w = (true, w')) :
    w'.process.kernelStackPage ≠ 0 := by
  unfold allocateProcess at hRun
  dsimp only at hRun
  split at hRun
  · cases hRun
  · split at hRun
    · cases hRun
    · next hStack =>
        cases hRun
        unfold allocateKernelStack at hStack ⊢
        dsimp only at hStack ⊢
        split
        · next hZero =>
            rw [if_pos hZero] at hStack
            exact absurd rfl hStack
        · next hPage => exact hPage

theorem ImageFilled.filled (hSound : SoundSystem builder s) (hUnused : (s.table i).state = .unused)
    (hFilled : ImageFilled request s i w) :
    w.Filled := by
  obtain ⟨made, hMade, rfl⟩ := hFilled
  obtain ⟨-, -, -, hFresh⟩ := allocateProcess_unused hSound hUnused hMade
  intro p
  show (openUserImage request _).process.pages p ≠ 0
  rw [(openUserImage_keeps request _).2]
  exact (hFresh rfl).filled p

theorem ImageFilled.free_pages (hSound : SoundSystem builder s)
    (hUnused : (s.table i).state = .unused) (hFilled : ImageFilled request s i w) :
    12 ≤ s.pmm.stack.length := by
  obtain ⟨made, hMade, -⟩ := hFilled
  obtain ⟨hMoves, -, -, hFresh⟩ := allocateProcess_unused hSound hUnused hMade
  have hStack := allocateProcess_kernelStack hMade
  have hOwned : made.process.ownedPages.length = 12 := by
    unfold Process.ownedPages
    rw [nonzeroPages_append, (hFresh rfl).filled.nonzeroPages_eq, nonzeroPages_cons hStack]
    rfl
  have hLength := hMoves.ledger.length_le
  unfold SlotState.ledger at hLength
  rw [List.length_append, List.length_append, hOwned] at hLength
  have hNone : (s.slot i).process.ownedPages = [] := hSound.unused i hUnused
  rw [hNone] at hLength
  exact le_trans (Nat.le_add_right _ _) (hLength.trans_eq (Nat.zero_add _))

/- The pages a process takes are those on top of the stack. -/
theorem allocateProcess_stack (hInit : w.pmm.initialized = true)
    (hRun : allocateProcess context w = (true, w')) :
    w'.pmm.stack = w.pmm.stack.drop 12 := by
  have hSpace : (allocateAddressSpace context w).1 = true → (allocateAddressSpace context w).2.pmm =
          (takePages addressSpacePages w.process.pages w.pmm).2 := by
    unfold allocateAddressSpace
    dsimp only
    split
    · exact nofun
    · split
      · exact nofun
      · exact fun _ => rfl
  unfold allocateProcess at hRun
  dsimp only at hRun
  split at hRun
  · cases hRun
  · next hOk =>
      have hPmm := hSpace (by simpa using hOk)
      split at hRun
      · cases hRun
      · cases hRun
        have hLast : (allocateKernelStack (allocateAddressSpace context w).2).2.pmm =
              (pmmAllocPage (allocateAddressSpace context w).2.pmm).2 := by
          unfold allocateKernelStack
          dsimp only
          split <;> rfl
        rw [hLast, hPmm, show (takePages _ _ _).2 = _ from (taken_map hInit).2,
          pmmAllocPage_eq (by exact hInit), List.drop_drop]

theorem ImageFilled.stack (hInit : s.pmm.initialized = true) (hFilled : ImageFilled request s i w) :
    w.pmm.stack = s.pmm.stack.drop 12 := by
  obtain ⟨made, hMade, rfl⟩ := hFilled
  show (openUserImage request _).pmm.stack = _
  rw [(openUserImage_keeps request _).1]
  exact allocateProcess_stack hInit hMade

----------
-- Pages In Range

/- Pages the page manager takes back when they are not free. -/
structure PagesInRange (pmm : Pmm) (pages : List Nat) : Prop where
  ready : pmm.initialized = true
  nonzero : ∀ p ∈ pages, p ≠ 0
  low : ∀ p ∈ pages, pmm.lowestPage ≤ p
  high : ∀ p ∈ pages, p ≤ pmm.highestPage
  count : pages.length ≤ pmm.trackedPages

theorem PagesInRange.of_subperm {pmm' : Pmm} {pages' : List Nat} (hPages : PagesInRange pmm pages)
    (hSame : SameRange pmm pmm') (hSubperm : pages'.Subperm pages) :
    PagesInRange pmm' pages' := by
  refine ⟨hSame.initialized.trans hPages.ready,
    fun p hp => hPages.nonzero p (hSubperm.subset hp), ?_, ?_, ?_⟩
  · intro p hp
    rw [hSame.lowest]
    exact hPages.low p (hSubperm.subset hp)
  · intro p hp
    rw [hSame.highest]
    exact hPages.high p (hSubperm.subset hp)
  · rw [hSame.tracked]
    exact hSubperm.length_le.trans hPages.count

theorem pagesInRange_step (a : Account Pmm) (call : Lender.Call)
    (hPages : PagesInRange a.state a.state.stack) :
    PagesInRange (Account.step pmmLender a call).state
      (Account.step pmmLender a call).state.stack := by
  cases call with
  | take =>
    have hTaken :=
      hPages.of_subperm (pmmAllocPage_sameRange a.state) (pmmAllocPage_spec a.state).2.subperm
    unfold Account.step
    dsimp only
    split <;> exact hTaken
  | give page =>
    have hGiven : PagesInRange (pmmFreePage page a.state).2 (pmmFreePage page a.state).2.stack := by
      rcases pmmFreePage_cases page a.state with hAccepted | hRefused
      · rw [pmmFreePage_accepted hAccepted]
        refine ⟨hPages.ready, ?_, ?_, ?_, ?_⟩
        · intro p hp
          rcases List.mem_cons.mp hp with rfl | hOld
          · exact hAccepted.nonzero
          · exact hPages.nonzero p hOld
        · intro p hp
          rcases List.mem_cons.mp hp with rfl | hOld
          · exact hAccepted.low
          · exact hPages.low p hOld
        · intro p hp
          rcases List.mem_cons.mp hp with rfl | hOld
          · exact hAccepted.high
          · exact hPages.high p hOld
        · exact hAccepted.lent
      · rw [hRefused.stack]
        exact hPages.of_subperm hRefused.same (List.Subperm.refl _)
    unfold Account.step
    dsimp only
    split <;> exact hGiven

/- The free pages of every boot that does not track page 0. -/
theorem pagesInRange_run {regions : List MemoryRegion} {layout : MemoryLayout}
    (hZero : 0 ∉ (pmmInit regions layout).stack) (calls : List Lender.Call) :
    PagesInRange (Account.run pmmLender (Account.opened (pmmInit regions layout)) calls).state
      (Account.run pmmLender (Account.opened (pmmInit regions layout)) calls).state.stack := by
  have hTracked := pmmInit_tracked regions layout
  have hStart : PagesInRange (pmmInit regions layout) (pmmInit regions layout).stack := by
    refine ⟨rfl, ?_, ?_, hTracked.high, hTracked.count.ge⟩
    · rintro p hp rfl
      exact hZero hp
    · exact fun p hp => (hTracked.low hZero p hp).2
  exact @Account.run_induct _ _ (fun a => PagesInRange a.state a.state.stack)
    pagesInRange_step _ hStart calls

----------
-- Releasing

theorem releasePages_append (pages pages' : List Nat) (pmm : Pmm) :
    releasePages (pages ++ pages') pmm = releasePages pages' (releasePages pages pmm) := by
  induction pages generalizing pmm with
  | nil => rfl
  | cons page pages ih =>
    rw [List.cons_append, releasePages, releasePages]
    split
    · exact ih _
    · exact ih _

/- Pages in range that are not free become free. -/
theorem releasePages_perm (hRange : PagesInRange pmm (nonzeroPages pages ++ pmm.stack))
    (hNodup : (nonzeroPages pages ++ pmm.stack).Nodup)
    (hAligned : ∀ p ∈ nonzeroPages pages ++ pmm.stack, PageAligned p) :
    (releasePages pages pmm).stack.Perm (nonzeroPages pages ++ pmm.stack) := by
  induction pages generalizing pmm with
  | nil => exact List.Perm.refl _
  | cons page pages ih =>
    by_cases hPage : page = 0
    · subst hPage
      rw [nonzeroPages_zero] at hRange hNodup hAligned ⊢
      exact ih hRange hNodup hAligned
    · rw [nonzeroPages_cons hPage, List.cons_append] at hRange hNodup hAligned ⊢
      have hMember : page ∈ page :: (nonzeroPages pages ++ pmm.stack) := List.mem_cons_self
      have hFresh : page ∉ nonzeroPages pages ++ pmm.stack := (List.nodup_cons.mp hNodup).1
      have hCount := hRange.count
      rw [List.length_cons, List.length_append] at hCount
      have hAccepted : Accepted page pmm :=
        ⟨hRange.ready, hPage, hAligned page hMember,
          hRange.low page hMember, hRange.high page hMember,
          fun hFree => hFresh (List.mem_append_right _ hFree),
          by omega⟩
      have hMoved : (nonzeroPages pages ++ page :: pmm.stack).Perm
            (page :: (nonzeroPages pages ++ pmm.stack)) :=
        List.perm_middle
      rw [releasePages, if_pos hPage, pmmFreePage_accepted hAccepted]
      refine (ih ?_ ?_ ?_).trans hMoved
      · exact hRange.of_subperm ⟨rfl, rfl, rfl, rfl⟩ hMoved.subperm
      · exact hMoved.nodup_iff.mpr hNodup
      · exact fun p hp => hAligned p (hMoved.mem_iff.mp hp)

theorem releaseProcessResources_perm (hRange : PagesInRange w.pmm w.ledger)
    (hNodup : w.ledger.Nodup) (hAligned : ∀ p ∈ w.ledger, PageAligned p) :
    (releaseProcessResources w).pmm.stack.Perm w.ledger := by
  have hBoth : (releaseProcessResources w).pmm =
        releasePages (addressSpacePages.map w.process.pages ++ [w.process.kernelStackPage]) w.pmm :=
    (releasePages_append _ _ _).symm
  rw [hBoth]
  exact releasePages_perm hRange hNodup hAligned

----------
-- The End Of A Process

theorem findProcessByPid_eq (hUsed : (s.table i).state ≠ .unused) (hPid : (s.table i).pid = pid)
    (hOnly : ∀ j, (s.table j).state ≠ .unused → (s.table j).pid = pid → j = i) :
    s.findProcessByPid pid = some i := by
  have hSome : (s.findProcessByPid pid).isSome = true := by
    unfold ProcessSystem.findProcessByPid
    rw [List.find?_isSome]
    exact ⟨i, List.mem_finRange i, by simp [hUsed, hPid]⟩
  obtain ⟨j, hFind⟩ := Option.isSome_iff_exists.mp hSome
  obtain ⟨hUsedJ, hPidJ⟩ := findProcessByPid_some hFind
  rw [hFind, hOnly j hUsedJ hPidJ]

theorem processMarkUserExited_eq (exitCode : Nat) (hFind : s.findProcessByPid pid = some i)
    (hMode : (s.table i).mode = .user) :
    ∃ counters : ProcessCounters,
      counters.initialized = s.counters.initialized ∧ processMarkUserExited pid exitCode s =
          (true,
            { s.setProcess i
                { s.table i with
                  state := .exited
                  exitCode := exitCode } with
              counters := counters }) := by
  unfold processMarkUserExited
  rw [hFind]
  dsimp only
  rw [if_neg (not_not.mpr hMode)]
  refine ⟨_, ?_, rfl⟩
  rfl

theorem processReapUser_eq (hFind : s.findProcessByPid pid = some i)
    (hReapable : reapable (s.table i) = true) :
    ∃ counters : ProcessCounters,
      counters.initialized = s.counters.initialized ∧ processReapUser pid s =
          (true,
            { s.setSlot i
                { releaseProcessResources (s.slot i) with process := clearedProcess } with
              counters := counters }) := by
  unfold processReapUser
  dsimp only
  rw [hFind]
  dsimp only
  rw [if_neg (by rw [hReapable]; decide)]
  refine ⟨_, ?_, rfl⟩
  rfl

end LiamOS.X64
