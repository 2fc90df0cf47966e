import LiamOS.X64.PmmConservation
import LiamOS.X64.Process.Tables

/-
  The pages of one slot of the process table.

  The pages a slot records and the free pages together are its ledger. Every function on a slot
  moves pages inside the ledger or loses them, never takes one twice, and writes only to pages of
  the ledger. With tables of the builder in memory the address space of a new process passes its
  checks, so a slot whose creation fails records no page.

  Key definitions: `Process.ownedPages`, `SlotState.ledger`, `SlotState.Moves`, `SoundSlot`,
  `FreshSpace`.
-/

namespace LiamOS.X64

open Word PageTable

variable {page : Nat} {context : PagingContext} {ok : Bool} {rest : List Nat}

----------
-- Ledgers

def nonzeroPages (pages : List Nat) : List Nat := pages.filter (· != 0)

/- The pages recorded in a slot. -/
def Process.ownedPages (process : Process) : List Nat :=
  nonzeroPages (addressSpacePages.map process.pages ++ [process.kernelStackPage])

def SlotState.ledger (w : SlotState) : List Nat := w.process.ownedPages ++ w.pmm.stack

/- Pages move or get lost, and only their bytes change. -/
structure SlotState.Moves (w w' : SlotState) : Prop where
  ledger : w'.ledger.Subperm w.ledger
  mem : OnlyPages w.ledger w.mem w'.mem

theorem SlotState.Moves.trans {w w' w'' : SlotState} (hFirst : w.Moves w')
    (hSecond : w'.Moves w'') :
    w.Moves w'' where
  ledger := hSecond.ledger.trans hFirst.ledger
  mem := hFirst.mem.trans (hSecond.mem.mono hFirst.ledger.subset)

theorem nonzeroPages_append (pages pages' : List Nat) :
    nonzeroPages (pages ++ pages') = nonzeroPages pages ++ nonzeroPages pages' :=
  List.filter_append _ _

theorem nonzeroPages_cons (hPage : page ≠ 0) (pages : List Nat) :
    nonzeroPages (page :: pages) = page :: nonzeroPages pages := by
  simp [nonzeroPages, hPage]

theorem nonzeroPages_zero (pages : List Nat) : nonzeroPages (0 :: pages) = nonzeroPages pages := by
  simp [nonzeroPages]

theorem nodup_of_subperm {pages pages' : List Nat} (hSubperm : pages.Subperm pages')
    (hNodup : pages'.Nodup) :
    pages.Nodup := by
  rcases hSubperm with ⟨middle, hPerm, hSublist⟩
  exact hPerm.nodup_iff.mp (hNodup.sublist hSublist)

----------
-- Taking And Releasing

/- The pages taken leave the stack in the order of names. -/
theorem takePages_spec {names : List SpacePage} (hNodup : names.Nodup) (pages : SpacePage → Nat)
    (pmm : Pmm) :
    (∀ p ∉ names, (takePages names pages pmm).1 p = pages p) ∧
      (nonzeroPages (names.map (takePages names pages pmm).1) ++
        (takePages names pages pmm).2.stack).Subperm pmm.stack := by
  induction names generalizing pages pmm with
  | nil => exact ⟨fun _ _ => rfl, List.Subperm.refl _⟩
  | cons name names ih =>
    obtain ⟨hFresh, hRest⟩ := List.nodup_cons.mp hNodup
    obtain ⟨hTop, hShorter⟩ := pmmAllocPage_spec pmm
    obtain ⟨hOther, hSubperm⟩ :=
      ih hRest (Function.update pages name (pmmAllocPage pmm).1) (pmmAllocPage pmm).2
    have hName := hOther name hFresh
    rw [Function.update_self] at hName
    rw [takePages]
    refine ⟨?_, ?_⟩
    · intro p hp
      obtain ⟨hNe, hNot⟩ := List.ne_and_not_mem_of_not_mem_cons hp
      rw [hOther p hNot, Function.update_of_ne hNe]
    · rw [List.map_cons, hName]
      by_cases hZero : (pmmAllocPage pmm).1 = 0
      · rw [hZero, nonzeroPages_zero]
        rw [hZero] at hSubperm
        exact hSubperm.trans hShorter.subperm
      · rw [nonzeroPages_cons hZero, hTop hZero, List.cons_append]
        exact (List.subperm_cons _).mpr hSubperm

theorem releasePages_subperm (pages : List Nat) (pmm : Pmm) :
    (releasePages pages pmm).stack.Subperm (nonzeroPages pages ++ pmm.stack) := by
  induction pages generalizing pmm with
  | nil => exact List.Subperm.refl _
  | cons page pages ih =>
    rw [releasePages]
    split
    next hPage =>
      rw [nonzeroPages_cons hPage, List.cons_append]
      refine (ih _).trans ?_
      have hFreed := pmmFreePage_subperm page pmm
      exact
        ((List.subperm_append_left (nonzeroPages pages)).mpr hFreed).trans List.perm_middle.subperm
    next hPage =>
      rw [not_not.mp hPage, nonzeroPages_zero]
      exact ih pmm

theorem releaseAddressSpace_moves (w : SlotState) : w.Moves (releaseAddressSpace w) := by
  refine ⟨?_, OnlyPages.refl _ _⟩
  have hNone : nonzeroPages (addressSpacePages.map fun _ => (0 : Nat)) = [] := by decide
  have hReleased := releasePages_subperm (addressSpacePages.map w.process.pages) w.pmm
  unfold SlotState.ledger Process.ownedPages
  rw [nonzeroPages_append, nonzeroPages_append]
  show (nonzeroPages (addressSpacePages.map fun _ => 0) ++
    nonzeroPages [w.process.kernelStackPage] ++ (releasePages _ w.pmm).stack).Subperm _
  rw [hNone, List.nil_append]
  refine ((List.subperm_append_left _).mpr hReleased).trans ?_
  rw [← List.append_assoc]
  exact (List.perm_append_comm.append_right _).subperm

theorem releaseKernelStack_moves (w : SlotState) : w.Moves (releaseKernelStack w) := by
  refine ⟨?_, OnlyPages.refl _ _⟩
  have hReleased := releasePages_subperm [w.process.kernelStackPage] w.pmm
  unfold SlotState.ledger Process.ownedPages
  rw [nonzeroPages_append, nonzeroPages_append, List.append_assoc, List.append_assoc]
  show (nonzeroPages (addressSpacePages.map w.process.pages) ++
    (nonzeroPages [0] ++ (releasePages _ w.pmm).stack)).Subperm _
  rw [nonzeroPages_zero]
  exact (List.subperm_append_left _).mpr hReleased

----------
-- Sound Slots

/-
  The pages of the ledger are distinct page addresses beside those of the builder, whose tables
  are in memory.
-/
structure SoundSlot (builder : BuilderState) (w : SlotState) : Prop where
  ok : builder.builderOk = true
  nodup : w.ledger.Nodup
  aligned : ∀ p ∈ w.ledger, PageAligned p
  bound : ∀ p ∈ w.ledger, p < 18446744073709551616
  apart : ∀ b, builder.tables b ∉ w.ledger
  built : BuiltTables builder w.mem

variable {builder : BuilderState}
variable {w w' : SlotState}

theorem SoundSlot.of_moves (hSound : SoundSlot builder w) (hMoves : w.Moves w') :
    SoundSlot builder w' where
  ok := hSound.ok
  nodup := nodup_of_subperm hMoves.ledger hSound.nodup
  aligned p hp := hSound.aligned p (hMoves.ledger.subset hp)
  bound p hp := hSound.bound p (hMoves.ledger.subset hp)
  apart b hb := hSound.apart b (hMoves.ledger.subset hb)
  built := hSound.built.of_onlyPages hMoves.mem hSound.apart

/- All pages of the address space are there. -/
def SlotState.Filled (w : SlotState) : Prop := ∀ p, w.process.pages p ≠ 0

theorem SlotState.any_zero_iff (w : SlotState) :
    addressSpacePages.any (fun p => w.process.pages p == 0) = true ↔ ¬ w.Filled := by
  rw [List.any_eq_true]
  constructor
  · rintro ⟨p, -, hZero⟩ hFilled
    exact hFilled p (by simpa using hZero)
  · intro hNot
    obtain ⟨p, hZero⟩ := not_forall.mp hNot
    exact ⟨p, mem_addressSpacePages p, by simpa using hZero⟩

theorem SlotState.Filled.mem_ledger (hFilled : w.Filled) (p : SpacePage) :
    w.process.pages p ∈ w.ledger := by
  refine List.mem_append_left _ (List.mem_filter.mpr ⟨?_, ?_⟩)
  · exact List.mem_append_left _ (List.mem_map_of_mem (mem_addressSpacePages p))
  · simpa using hFilled p

theorem SlotState.Filled.subset_ledger (hFilled : w.Filled) :
    addressSpacePages.map w.process.pages ⊆ w.ledger := by
  intro page hPage
  obtain ⟨p, -, rfl⟩ := List.mem_map.mp hPage
  exact hFilled.mem_ledger p

theorem SlotState.Filled.nonzeroPages_eq (hFilled : w.Filled) :
    nonzeroPages (addressSpacePages.map w.process.pages) =
      addressSpacePages.map w.process.pages := by
  refine List.filter_eq_self.mpr ?_
  intro page hPage
  obtain ⟨p, -, rfl⟩ := List.mem_map.mp hPage
  simpa using hFilled p

theorem SoundSlot.spaceFits (hSound : SoundSlot builder w) (hFilled : w.Filled) :
    SpaceFits builder w.process.pages where
  family :=
    { injective := by
        have hOwned := hSound.nodup
        unfold SlotState.ledger Process.ownedPages at hOwned
        rw [nonzeroPages_append, hFilled.nonzeroPages_eq, List.append_assoc] at hOwned
        have hMap := (List.nodup_append.mp hOwned).1
        intro p q hSame
        exact List.inj_on_of_nodup_map hMap (mem_addressSpacePages p) (mem_addressSpacePages q)
          hSame
      aligned := fun p =>
        hSound.aligned _ (hFilled.mem_ledger p) }
  nonzero := hFilled
  bound p := hSound.bound _ (hFilled.mem_ledger p)
  apart b p hSame := hSound.apart b (hSame ▸ hFilled.mem_ledger p)

/- Writes to its own pages do not move any. -/
theorem moves_of_mem (hPages : w'.process.pages = w.process.pages)
    (hStack : w'.process.kernelStackPage = w.process.kernelStackPage) (hPmm : w'.pmm = w.pmm)
    (hFilled : w.Filled) (hMem : OnlyPages (addressSpacePages.map w.process.pages) w.mem w'.mem) :
    w.Moves w' where
  ledger := by
    unfold SlotState.ledger Process.ownedPages
    rw [hPages, hStack, hPmm]
  mem := hMem.mono hFilled.subset_ledger

----------
-- Fresh Address Spaces

/- An address space whose tables can be written. -/
structure FreshSpace (builder : BuilderState) (w : SlotState) : Prop where
  filled : w.Filled
  opened : SpaceOpened w.process
  prepared : Prepared builder w.process.pages w.mem

/- The fields by which a process is found. -/
structure SameIdentity (process process' : Process) : Prop where
  pid : process'.pid = process.pid
  state : process'.state = process.state
  mode : process'.mode = process.mode
  entry : process'.entry = process.entry

theorem SameIdentity.trans {p q r : Process} (hFirst : SameIdentity p q)
    (hSecond : SameIdentity q r) :
    SameIdentity p r where
  pid := hSecond.pid.trans hFirst.pid
  state := hSecond.state.trans hFirst.state
  mode := hSecond.mode.trans hFirst.mode
  entry := hSecond.entry.trans hFirst.entry

/- The slot once its pages are taken. -/
def SlotState.taken (w : SlotState) : SlotState :=
  { w.setPages
      (takePages addressSpacePages w.process.pages w.pmm).1 with
    pmm := (takePages addressSpacePages w.process.pages w.pmm).2 }

theorem taken_moves (w : SlotState) : w.Moves w.taken := by
  refine ⟨?_, OnlyPages.refl _ _⟩
  have hTaken := (takePages_spec nodup_addressSpacePages w.process.pages w.pmm).2
  unfold SlotState.ledger Process.ownedPages
  rw [nonzeroPages_append, nonzeroPages_append]
  show (nonzeroPages (addressSpacePages.map
      (takePages addressSpacePages w.process.pages w.pmm).1) ++
    nonzeroPages [w.process.kernelStackPage] ++
      (takePages addressSpacePages w.process.pages w.pmm).2.stack).Subperm _
  have hKeep : (nonzeroPages [w.process.kernelStackPage] ++ w.pmm.stack).Subperm
      (nonzeroPages (addressSpacePages.map w.process.pages) ++
        nonzeroPages [w.process.kernelStackPage] ++ w.pmm.stack) := by
    rw [List.append_assoc]
    exact (List.sublist_append_right _ _).subperm
  refine List.Subperm.trans ?_ hKeep
  refine ((List.perm_append_comm.append_right _).subperm).trans ?_
  rw [List.append_assoc]
  exact (List.subperm_append_left _).mpr hTaken

/- The slot with a fresh address space, its tables written. -/
def SlotState.opened (context : PagingContext) (w : SlotState) : SlotState :=
  let open' :=
    { w with
      mem := clearProcessPages w.process.pages w.mem
      nextAddressSpaceId := u64 (w.nextAddressSpaceId + 1)
      process := w.process.openAddressSpace w.nextAddressSpaceId }
  buildUserPageTables context
    { open' with mem := cloneKernelMappings context open'.process open'.mem }

theorem allocateAddressSpace_eq (hContext : context.initialized = true) (w : SlotState) :
    allocateAddressSpace context w = if addressSpacePages.any fun p =>
          w.taken.process.pages p == 0 then
        (false, releaseAddressSpace w.taken)
      else
        ((w.taken.opened context).process.kernelMappingsReady &&
          (w.taken.opened context).process.userPageTablesReady, w.taken.opened context) := by
  unfold allocateAddressSpace
  dsimp only
  split
  next hAny => exact (if_pos hAny).symm
  next hAny =>
    rw [if_neg (by simp [hContext])]
    exact (if_neg hAny).symm

/- The fields of a fresh address space. -/
theorem openAddressSpace_opened (process : Process) (id : Nat) :
    SpaceOpened (process.openAddressSpace id) ∧
      ∀ i < (process.openAddressSpace id).userCodePageCount,
        (process.openAddressSpace id).codeFlagsAt i =
          AddressSpace.codeFlags ((fun _ => false) i) := by
  refine ⟨⟨rfl, rfl, Nat.one_pos, (by decide : 1 ≤ 4)⟩, ?_⟩
  intro i hi
  have hZero : i = 0 := Nat.lt_one_iff.mp hi
  rw [hZero]
  rfl

/-
  The tables of a fresh address space, in any memory: they pass their checks if the kernel's own
  tables hold what the checks ask for.
-/
theorem opened_written (hAligned : ∀ b, PageAligned (builder.tables b))
    (hInit : (setPagingContext builder).initialized = true)
    (hFits : SpaceFits builder w.process.pages) :
    OnlyPages (addressSpacePages.map w.process.pages) w.mem
        (w.opened (setPagingContext builder)).mem ∧
      KernelCloned builder w.process.pages (w.opened (setPagingContext builder)).mem ∧
      (((w.opened (setPagingContext builder)).process.kernelMappingsReady &&
          (w.opened (setPagingContext builder)).process.userPageTablesReady) = true ↔
        KernelTablesPresent builder (w.process.pages .userCodePtPage) w.mem) := by
  obtain ⟨hOpened, hFlags⟩ := openAddressSpace_opened w.process w.nextAddressSpaceId
  have hLow := codeFlagsAt_lt hFlags
  -- the pages are cleared, then filled from the kernel's
  have hCleared := @onlyPages_clearProcessPages w.mem w.process.pages hFits.family
  have hCloned :=
    (@entryAt_cloneKernelMappings builder (w.process.openAddressSpace w.nextAddressSpaceId)
      (clearProcessPages w.process.pages w.mem) hAligned hInit hFits).2
  have hKernel := @kernelCloned_of_clone builder (w.process.openAddressSpace w.nextAddressSpaceId)
      (clearProcessPages w.process.pages w.mem) hAligned hInit
      hFits
  have hWritten :=
    @onlyPages_writeUserPageTables builder (w.process.openAddressSpace w.nextAddressSpaceId)
      (cloneKernelMappings (setPagingContext builder)
        (w.process.openAddressSpace w.nextAddressSpaceId)
        (clearProcessPages w.process.pages w.mem)) hFits hOpened
  have hBefore := hCleared.trans hCloned
  refine ⟨hBefore.trans hWritten, hKernel.write hAligned hFits hOpened hLow, ?_⟩
  have hPresent : KernelTablesPresent builder (w.process.pages .userCodePtPage)
          (cloneKernelMappings (setPagingContext builder)
            (w.process.openAddressSpace w.nextAddressSpaceId)
            (clearProcessPages w.process.pages w.mem)) ↔
        KernelTablesPresent builder (w.process.pages .userCodePtPage) w.mem :=
    ⟨fun hAfter =>
        hAfter.of_onlyPages hAligned hBefore.symm hFits.not_mem, fun hThere =>
        hThere.of_onlyPages hAligned hBefore hFits.not_mem⟩
  rw [Bool.and_eq_true, ← hPresent]
  refine (and_congr (validateKernelMappings_iff hKernel hAligned hInit hFits hOpened hLow)
    (validateUserPageTables_iff hKernel hAligned hInit hFits hOpened hFlags)).trans (and_self_iff)

/- With the builder's tables the new tables pass the checks. -/
theorem opened_fresh (hSound : SoundSlot builder w) (hFilled : w.Filled) :
    w.Moves (w.opened (setPagingContext builder)) ∧
      FreshSpace builder (w.opened (setPagingContext builder)) ∧
      ((w.opened (setPagingContext builder)).process.kernelMappingsReady &&
        (w.opened (setPagingContext builder)).process.userPageTablesReady) = true := by
  have hFits := hSound.spaceFits hFilled
  have hAligned := hSound.built.pages.aligned
  have hInit := setPagingContext_built hSound.built hSound.ok
  obtain ⟨hOnly, -, hReady⟩ := opened_written hAligned hInit hFits
  obtain ⟨hOpened, hFlags⟩ := openAddressSpace_opened w.process w.nextAddressSpaceId
  have hLow := codeFlagsAt_lt hFlags
  have hCleared := @onlyPages_clearProcessPages w.mem w.process.pages hFits.family
  have hBuilt₁ := hSound.built.of_onlyPages hCleared hFits.not_mem
  obtain ⟨hPrepared, hCloned⟩ :=
    @prepared_of_clone builder (w.process.openAddressSpace w.nextAddressSpaceId)
      (clearProcessPages w.process.pages w.mem) hBuilt₁ hSound.ok
      hFits fun p j hj =>
        entryAt_clearProcessPages w.process.pages p hj
  have hBuilt₂ := hBuilt₁.of_onlyPages hCloned hFits.not_mem
  refine ⟨moves_of_mem rfl rfl rfl hFilled hOnly, ⟨hFilled, ?_, ?_⟩, ?_⟩
  · exact ⟨rfl, rfl, Nat.one_pos, (by decide : 1 ≤ 4)⟩
  · exact hPrepared.write hBuilt₂ hFits hOpened rfl hLow
  · exact hReady.mpr (hSound.built.present hFits)

/- Creation of an address space, in full or not at all. -/
theorem allocateAddressSpace_spec (hSound : SoundSlot builder w)
    (hContext : context = setPagingContext builder)
    (hRun : allocateAddressSpace context w = (ok, w')) :
    w.Moves w' ∧ SameIdentity w.process w'.process ∧
      w'.process.kernelStackPage = w.process.kernelStackPage ∧
      (ok = false → ∀ p, w'.process.pages p = 0) ∧
      (ok = true → FreshSpace builder w') := by
  have hInitialized : context.initialized = true := by
    rw [hContext, setPagingContext_eq hSound.built hSound.ok]
  have hTaken := taken_moves w
  rw [allocateAddressSpace_eq hInitialized, hContext] at hRun
  split at hRun
  next hAny =>
    cases hRun
    exact ⟨hTaken.trans (releaseAddressSpace_moves _), ⟨rfl, rfl, rfl, rfl⟩, rfl, fun _ _ => rfl,
      fun hOk => absurd hOk (by simp)⟩
  next hAny =>
    rw [SlotState.any_zero_iff, not_not] at hAny
    obtain ⟨hMoves, hFresh, hReady⟩ := opened_fresh (hSound.of_moves hTaken) hAny
    rw [hReady] at hRun
    cases hRun
    exact ⟨hTaken.trans hMoves, ⟨rfl, rfl, rfl, rfl⟩, rfl,
      fun hFailed => absurd hFailed (by simp), fun _ => hFresh⟩

----------
-- Kernel Stacks And Whole Processes

theorem allocateKernelStack_spec (hSound : SoundSlot builder w)
    (hRun : allocateKernelStack w = (ok, w')) :
    w.Moves w' ∧ SameIdentity w.process w'.process ∧ w'.process.pages = w.process.pages ∧
      (FreshSpace builder w → FreshSpace builder w') := by
  obtain ⟨hTop, hShorter⟩ := pmmAllocPage_spec w.pmm
  unfold allocateKernelStack at hRun
  dsimp only at hRun
  split at hRun
  next hZero =>
    cases hRun
    refine ⟨⟨?_, OnlyPages.refl _ _⟩, ⟨rfl, rfl, rfl, rfl⟩, rfl,
      fun hFresh => ⟨hFresh.filled, hFresh.opened, hFresh.prepared⟩⟩
    exact (hShorter.append_left _).subperm
  next hPage =>
    cases hRun
    have hStack := hTop hPage
    have hMember : (pmmAllocPage w.pmm).1 ∈ w.ledger := by
      refine List.mem_append_right _ ?_
      rw [hStack]
      exact List.mem_cons_self
    have hOnly := @onlyPages_clearPage w.mem (pmmAllocPage w.pmm).1 (hSound.aligned _ hMember)
    refine ⟨⟨?_, hOnly.mono (by simpa using hMember)⟩, ⟨rfl, rfl, rfl, rfl⟩, rfl, ?_⟩
    · unfold SlotState.ledger Process.ownedPages
      rw [nonzeroPages_append, nonzeroPages_append]
      show (nonzeroPages (addressSpacePages.map w.process.pages) ++
        nonzeroPages [(pmmAllocPage w.pmm).1] ++ (pmmAllocPage w.pmm).2.stack).Subperm _
      rw [nonzeroPages_cons hPage, List.append_assoc, List.append_assoc]
      refine (List.subperm_append_left _).mpr ?_
      show ((pmmAllocPage w.pmm).1 :: (pmmAllocPage w.pmm).2.stack).Subperm _
      rw [← hStack]
      exact (List.sublist_append_right _ _).subperm
    · intro hFresh
      have hOpened := hFresh.opened
      refine ⟨hFresh.filled, ⟨hOpened.code, hOpened.stack, hOpened.count_pos, hOpened.count_le⟩, ?_⟩
      refine hFresh.prepared.of_onlyPages hSound.built (hSound.spaceFits hFresh.filled) hOnly ?_ ?_
      · intro hSame
        exact hSound.apart _ ((List.mem_singleton.mp hSame).symm ▸ hMember)
      · -- the new page was free, so it is none of the tables
        intro p _ hSame
        have hOwned : w.process.pages p ∈ w.process.ownedPages := by
          refine List.mem_filter.mpr ⟨?_, ?_⟩
          · exact List.mem_append_left _ (List.mem_map_of_mem (mem_addressSpacePages p))
          · simpa using hFresh.filled p
        have hFree : w.process.pages p ∈ w.pmm.stack := by
          rw [List.mem_singleton.mp hSame, hStack]
          exact List.mem_cons_self
        exact List.disjoint_of_nodup_append hSound.nodup hOwned hFree

theorem ownedPages_eq_nil {process : Process} (hPages : ∀ p, process.pages p = 0)
    (hStack : process.kernelStackPage = 0) :
    process.ownedPages = [] := by
  refine List.filter_eq_nil_iff.mpr ?_
  intro page hPage
  rcases List.mem_append.mp hPage with hSpace | hKernel
  · obtain ⟨p, -, rfl⟩ := List.mem_map.mp hSpace
    simp [hPages p]
  · simp [List.mem_singleton.mp hKernel, hStack]

/- A new process has all its pages, or the slot has none. -/
theorem allocateProcess_spec (hSound : SoundSlot builder w)
    (hContext : context = setPagingContext builder) (hStack : w.process.kernelStackPage = 0)
    (hRun : allocateProcess context w = (ok, w')) :
    w.Moves w' ∧ SameIdentity w.process w'.process ∧ (ok = false → w'.process.ownedPages = []) ∧
      (ok = true → FreshSpace builder w') := by
  unfold allocateProcess at hRun
  rcases hSpace : allocateAddressSpace context w with ⟨spaceOk, space⟩
  obtain ⟨hMoves, hSame, hKernel, hFailed, hFresh⟩ :=
    allocateAddressSpace_spec hSound hContext hSpace
  simp only [hSpace] at hRun
  split at hRun
  next hNot =>
    cases hRun
    refine ⟨hMoves, hSame, fun _ => ?_, fun hOk => absurd hOk (by simp)⟩
    exact ownedPages_eq_nil (hFailed hNot) (hKernel.trans hStack)
  next hOk =>
    rcases hTop : allocateKernelStack space with ⟨topOk, top⟩
    obtain ⟨hTopMoves, hTopSame, -, hTopFresh⟩ :=
      allocateKernelStack_spec (hSound.of_moves hMoves) hTop
    simp only [hTop] at hRun
    split at hRun
    next =>
      cases hRun
      refine ⟨?_, ?_, fun _ => ?_, fun hTrue => absurd hTrue (by simp)⟩
      · exact (hMoves.trans hTopMoves).trans
          ((releaseKernelStack_moves _).trans (releaseAddressSpace_moves _))
      · exact (hSame.trans hTopSame).trans ⟨rfl, rfl, rfl, rfl⟩
      · exact ownedPages_eq_nil (fun _ => rfl) rfl
    next =>
      cases hRun
      exact ⟨hMoves.trans hTopMoves, hSame.trans hTopSame, fun hFalse => absurd hFalse (by simp),
        fun _ => hTopFresh (hFresh (by simpa using hOk))⟩

----------
-- Enough Free Pages

theorem directMap_aligned (hAligned : PageAligned page) :
    u64 (directMapBase + page) % 4096 = 0 := by
  unfold PageAligned at hAligned
  unfold u64 directMapBase
  omega

/- The top pages of the stack are there and not zero. -/
def Usable (pmm : Pmm) (n : Nat) : Prop := ∀ k < n, pmm.stack.getD k 0 ≠ 0

theorem pmmAllocPage_eq {pmm : Pmm} (hInit : pmm.initialized = true) :
    pmmAllocPage pmm = (pmm.stack.getD 0 0, { pmm with stack := pmm.stack.drop 1 }) := by
  unfold pmmAllocPage
  rw [if_neg (by rw [hInit]; decide)]
  rcases pmm with ⟨_, stack, _, _, _, _, _⟩
  cases stack with
  | nil => rfl
  | cons page stack => rfl

theorem getD_drop (stack : List Nat) (n k : Nat) :
    (stack.drop n).getD k 0 = stack.getD (n + k) 0 := by
  rw [List.getD_eq_getElem?_getD, List.getElem?_drop, ← List.getD_eq_getElem?_getD]

theorem getD_mem_drop {stack : List Nat} {k : Nat} (hSome : stack.getD k 0 ≠ 0) :
    stack.getD k 0 ∈ stack.drop k := by
  have hLength : k < stack.length := by
    by_contra hShort
    exact hSome (List.getD_eq_default _ _ (by omega))
  rw [List.drop_eq_getElem_cons hLength, List.getD_eq_getElem _ _ hLength]
  exact List.mem_cons_self

/- The names get the top pages in their order. -/
theorem takePages_map {names : List SpacePage} (hNodup : names.Nodup) (pages : SpacePage → Nat)
    {pmm : Pmm} (hInit : pmm.initialized = true) :
    names.map (takePages names pages pmm).1 =
        (List.range names.length).map (fun k => pmm.stack.getD k 0) ∧
      (takePages names pages pmm).2 = { pmm with stack := pmm.stack.drop names.length } := by
  induction names generalizing pages pmm with
  | nil => exact ⟨rfl, rfl⟩
  | cons name names ih =>
    obtain ⟨hFresh, hRest⟩ := List.nodup_cons.mp hNodup
    rw [takePages, pmmAllocPage_eq hInit]
    obtain ⟨hMap, hPmm⟩ := @ih hRest (Function.update pages name (pmm.stack.getD 0 0))
        { pmm with stack := pmm.stack.drop 1 } hInit
    have hName :=
      (takePages_spec hRest (Function.update pages name (pmm.stack.getD 0 0))
        { pmm with stack := pmm.stack.drop 1 }).1 name hFresh
    rw [Function.update_self] at hName
    refine ⟨?_, ?_⟩
    · rw [List.map_cons, hName, hMap, List.length_cons,
        List.range_succ_eq_map, List.map_cons, List.map_map]
      congr 1
      refine List.map_congr_left fun k _ => ?_
      show (pmm.stack.drop 1).getD k 0 = _
      rw [getD_drop, Nat.add_comm]
      rfl
    · rw [hPmm, List.length_cons]
      show { pmm with stack := (pmm.stack.drop 1).drop names.length } = _
      rw [List.drop_drop, Nat.add_comm]

section

variable (hInit : w.pmm.initialized = true)
include hInit

theorem taken_map : addressSpacePages.map w.taken.process.pages =
        (List.range 11).map (fun k => w.pmm.stack.getD k 0) ∧
      w.taken.pmm = { w.pmm with stack := w.pmm.stack.drop 11 } :=
  takePages_map nodup_addressSpacePages w.process.pages hInit

theorem taken_filled_iff : w.taken.Filled ↔ Usable w.pmm 11 := by
  have hPages : w.taken.Filled ↔ ∀ q ∈ addressSpacePages.map w.taken.process.pages, q ≠ 0 := by
    constructor
    · intro hFilled q hq
      obtain ⟨p, -, rfl⟩ := List.mem_map.mp hq
      exact hFilled p
    · intro hPages p
      exact hPages _ (List.mem_map_of_mem (mem_addressSpacePages p))
  rw [hPages, (taken_map hInit).1]
  constructor
  · intro hTop k hk
    exact hTop _ (List.mem_map_of_mem (List.mem_range.mpr hk))
  · intro hUsable q hq
    obtain ⟨k, hk, rfl⟩ := List.mem_map.mp hq
    exact hUsable k (List.mem_range.mp hk)

/- The page that is left for the kernel stack. -/
theorem opened_top (context : PagingContext) :
    pmmAllocPage (w.taken.opened context).pmm =
      (w.pmm.stack.getD 11 0, { w.pmm with stack := w.pmm.stack.drop 12 }) := by
  have hPmm : (w.taken.opened context).pmm = { w.pmm with stack := w.pmm.stack.drop 11 } :=
    (taken_map hInit).2
  have hTop := @pmmAllocPage_eq { w.pmm with stack := w.pmm.stack.drop 11 } hInit
  rw [getD_drop, List.drop_drop] at hTop
  rw [hPmm]
  exact hTop

end

/- A page that is not zero is a kernel stack. -/
theorem allocateKernelStack_succeeds {pmm : Pmm} (hTop : pmmAllocPage w.pmm = (page, pmm))
    (hNonzero : page ≠ 0) (hAligned : PageAligned page) :
    (allocateKernelStack w).1 = true := by
  have hBase := directMap_aligned hAligned
  have hEnd : u64 (u64 (directMapBase + page) + 4096) % 16 = 0 := by
    generalize u64 (directMapBase + page) = base at hBase ⊢
    unfold u64
    omega
  unfold allocateKernelStack
  rw [hTop]
  dsimp only
  rw [if_neg (show page ≠ pmmInvalidPage from hNonzero)]
  unfold isAligned
  simp only [Bool.and_eq_true, beq_iff_eq]
  exact ⟨⟨hAligned, hBase⟩, hEnd⟩

/- Twelve free pages are enough for a process. -/
theorem allocateProcess_succeeds (hSound : SoundSlot builder w) (hInit : w.pmm.initialized = true)
    (hUsable : Usable w.pmm 12) :
    (allocateProcess (setPagingContext builder) w).1 = true := by
  have hFilled : w.taken.Filled := (taken_filled_iff hInit).mpr fun k hk => hUsable k (by omega)
  obtain ⟨-, -, hReady⟩ := opened_fresh (hSound.of_moves (taken_moves w)) hFilled
  have hInitialized : (setPagingContext builder).initialized = true := by
    rw [setPagingContext_eq hSound.built hSound.ok]
  have hSpace := allocateAddressSpace_eq hInitialized w
  rw [if_neg fun hAny => w.taken.any_zero_iff.mp hAny hFilled, hReady] at hSpace
  have hLast := hUsable 11 (by decide)
  have hMember : w.pmm.stack.getD 11 0 ∈ w.ledger :=
    List.mem_append_right _ (List.mem_of_mem_drop (getD_mem_drop hLast))
  have hKernel := allocateKernelStack_succeeds (opened_top hInit (setPagingContext builder)) hLast
    (hSound.aligned _ hMember)
  unfold allocateProcess
  rw [hSpace]
  simp [hKernel]

----------
-- User Images

def userCodeFrames (process : Process) : List Nat := (List.finRange 4).map fun i =>
    process.pages (.userCodePages i)

theorem userCodeFrames_subset (process : Process) :
    userCodeFrames process ⊆ addressSpacePages.map process.pages := by
  intro page hPage
  obtain ⟨i, -, rfl⟩ := List.mem_map.mp hPage
  exact List.mem_map_of_mem (mem_addressSpacePages _)

/- The tables of an address space are no code pages. -/
theorem tablePages_not_mem_frames {process : Process} (hFamily : PageFamily process.pages)
    {p : SpacePage} (hTable : p ∈ tablePages) :
    process.pages p ∉ userCodeFrames process := by
  intro hMem
  obtain ⟨i, -, hSame⟩ := List.mem_map.mp hMem
  have hName := hFamily.injective hSame
  rw [← hName] at hTable
  simp [tablePages] at hTable

theorem userCodeFlagsForBitmap_eq (writable : Bool) :
    userCodeFlagsForBitmap writable = AddressSpace.codeFlags writable := by
  cases writable <;> rfl

theorem codeCopySize_le (codeBytes i : Nat) : codeCopySize codeBytes i ≤ 4096 := by
  unfold codeCopySize
  dsimp only
  generalize (if i * 4096 < codeBytes then codeBytes - i * 4096 else 0) = remaining
  split <;> omega

/- Loading writes flags and code pages and nothing else. -/
theorem foldl_loadCodePage (request : UserImageRequest) (w : SlotState)
    (hAligned : ∀ i, PageAligned (w.process.pages (.userCodePages i))) {n : Nat} (hn : n ≤ 4) :
    ∃ flags mem, (List.range n).foldl (loadCodePage request) w =
          { w with
            process := { w.process with userCodePageFlags := flags }
            mem := mem } ∧
        (∀ i < n, flags (Fin.ofNat 4 i) = AddressSpace.codeFlags (request.pageWritable i)) ∧
        OnlyPages (userCodeFrames w.process) w.mem mem := by
  induction n with
  | zero =>
    exact ⟨w.process.userCodePageFlags, w.mem, rfl, fun i hi => absurd hi (Nat.not_lt_zero i),
      OnlyPages.refl _ _⟩
  | succ n ih =>
    obtain ⟨flags, mem, hRun, hFlags, hOnly⟩ := ih (by omega)
    have hMember : w.process.codePageAt n ∈ userCodeFrames w.process :=
      List.mem_map_of_mem (List.mem_finRange (Fin.ofNat 4 n))
    have hSize : codeCopySize request.codeBytes.toNat n ≤ 4096 := codeCopySize_le _ _
    have hPage : OnlyPages [w.process.codePageAt n] mem
          (copyBytes (clearPage mem (w.process.codePageAt n)) (w.process.codePageAt n)
            (request.loadedCodePages.toNat + n * 4096) (codeCopySize request.codeBytes.toNat n)) :=
      (onlyPages_clearPage (hAligned _)).trans (onlyPages_copyBytes (hAligned _) hSize)
    refine ⟨Function.update flags (Fin.ofNat 4 n)
        (userCodeFlagsForBitmap (request.pageWritable n)), _, ?_, ?_,
      hOnly.trans (hPage.mono (by simpa using hMember))⟩
    · rw [List.range_succ, List.foldl_append, hRun]
      rfl
    · intro i hi
      by_cases hLast : i = n
      · rw [hLast, Function.update_self, userCodeFlagsForBitmap_eq]
      · have hOther : Fin.ofNat 4 i ≠ Fin.ofNat 4 n := by
          intro hSame
          have hValue := congrArg Fin.val hSame
          simp only [Fin.val_ofNat] at hValue
          omega
        rw [Function.update_of_ne hOther]
        exact hFlags i (by omega)

/- The bytes of the code pages, if the image is on pages beside them. -/
theorem foldl_loadCodePage_bytes {request : UserImageRequest} {w : SlotState}
    (hFamily : PageFamily w.process.pages) (hSource : PageAligned request.loadedCodePages.toNat)
    (hApart : ∀ i < 4, request.loadedCodePages.toNat + i * 4096 ∉ userCodeFrames w.process)
    {n : Nat} (hn : n ≤ 4) {i j : Nat} (hi : i < n) (hj : j < 4096) :
    ((List.range n).foldl (loadCodePage request) w).mem (w.process.codePageAt i + j) =
      if j < codeCopySize request.codeBytes.toNat i then
        w.mem (request.loadedCodePages.toNat + i * 4096 + j)
      else
        0 := by
  induction n with
  | zero => exact absurd hi (Nat.not_lt_zero i)
  | succ n ih =>
    obtain ⟨flags, mem, hRun, -, hOnly⟩ :=
      foldl_loadCodePage request w (fun k => hFamily.aligned _) (show n ≤ 4 by omega)
    have hSize := codeCopySize_le request.codeBytes.toNat n
    have hPage : PageAligned (w.process.codePageAt n) := hFamily.aligned _
    rw [List.range_succ, List.foldl_append, List.foldl_cons, List.foldl_nil, hRun]
    show copyBytes (clearPage mem (w.process.codePageAt n)) (w.process.codePageAt n)
      (request.loadedCodePages.toNat + n * 4096)
      (codeCopySize request.codeBytes.toNat n)
      (w.process.codePageAt i + j) = _
    by_cases hLast : i = n
    · subst hLast
      have hOther := hApart i (by omega)
      have hBeside : w.process.codePageAt i ≠ request.loadedCodePages.toNat + i * 4096 := by
        intro hSame
        rw [← hSame] at hOther
        exact hOther (List.mem_map_of_mem (List.mem_finRange (Fin.ofNat 4 i)))
      unfold PageAligned at hPage hSource
      by_cases hCopied : j < codeCopySize request.codeBytes.toNat i
      · rw [if_pos hCopied, copyBytes_inside (by omega) hCopied, clearPage,
          clearBytes_apply, if_neg (by omega)]
        refine hOnly _ ?_
        rw [pageOf_add (by unfold PageAligned; omega) hj]
        exact hOther
      · rw [if_neg hCopied, copyBytes_outside (by omega),
          clearPage, clearBytes_apply, if_pos (by omega)]
    · have hPrevious : PageAligned (w.process.codePageAt i) := hFamily.aligned _
      have hDistinct : w.process.codePageAt i ≠ w.process.codePageAt n := by
        intro hSame
        have hName := hFamily.injective hSame
        have hValue := congrArg Fin.val (SpacePage.userCodePages.inj hName)
        simp only [Fin.val_ofNat] at hValue
        omega
      have hBefore := ih (by omega) (by omega)
      rw [hRun] at hBefore
      unfold PageAligned at hPage hPrevious
      rw [copyBytes_outside (by omega), clearPage, clearBytes_apply, if_neg (by omega)]
      exact hBefore

/- What loading an image does to a fresh address space. -/
structure ImageLoaded (request : UserImageRequest) (builder : BuilderState)
    (w w' : SlotState) : Prop where
  moves : w.Moves w'
  same : SameIdentity w.process w'.process
  pages : w'.process.pages = w.process.pages
  count : w'.process.userCodePageCount = request.pageCountNat
  fresh : FreshSpace builder w'
  flags : ∀ i < w'.process.userCodePageCount,
      w'.process.codeFlagsAt i = AddressSpace.codeFlags (request.pageWritable i)

theorem openUserImage_loaded (hSound : SoundSlot builder w) (hFresh : FreshSpace builder w)
    {request : UserImageRequest} (hPos : 0 < request.pageCountNat)
    (hLe : request.pageCountNat ≤ 4) :
    ImageLoaded request builder w (openUserImage request w) := by
  have hFits := hSound.spaceFits hFresh.filled
  have hSubset := userCodeFrames_subset w.process
  obtain ⟨flags, mem, hRun, hFlags, hOnly⟩ := foldl_loadCodePage request
      { w with
        process :=
          { w.process with
            userCodePageCount := request.pageCountNat
            userCodePageFlags := fun _ => 0 } }
      (fun i => hFits.family.aligned _) hLe
  have hLoaded : openUserImage request w = _ := hRun
  rw [hLoaded]
  refine ⟨?_, ⟨rfl, rfl, rfl, rfl⟩, rfl, rfl, ⟨?_, ?_, ?_⟩, ?_⟩
  · exact moves_of_mem rfl rfl rfl hFresh.filled (hOnly.mono hSubset)
  · exact hFresh.filled
  · exact ⟨hFresh.opened.code, hFresh.opened.stack, hPos, hLe⟩
  · refine hFresh.prepared.of_onlyPages hSound.built hFits hOnly ?_ ?_
    · intro hMem
      exact hFits.not_mem _ (hSubset hMem)
    · intro p hp
      refine tablePages_not_mem_frames hFits.family ?_
      revert p
      decide
  · exact hFlags

/- The tables of the loaded image, and that they are checked. -/
theorem buildUserPageTables_loaded (hSound : SoundSlot builder w) (hFresh : FreshSpace builder w)
    {codeWritable : Nat → Bool}
    (hFlags : ∀ i < w.process.userCodePageCount,
        w.process.codeFlagsAt i = AddressSpace.codeFlags (codeWritable i)) :
    w.Moves (buildUserPageTables (setPagingContext builder) w) ∧
      (buildUserPageTables (setPagingContext builder) w).process.userPageTablesReady = true ∧
      (processSpace
        (buildUserPageTables (setPagingContext builder) w).process codeWritable).InMemory
        (buildUserPageTables (setPagingContext builder) w).mem := by
  have hFits := hSound.spaceFits hFresh.filled
  refine ⟨?_, ?_, ?_⟩
  · exact moves_of_mem rfl rfl rfl hFresh.filled (onlyPages_writeUserPageTables hFits hFresh.opened)
  · exact hFresh.prepared.validate hSound.built hSound.ok hFits hFresh.opened hFlags
  · exact hFresh.prepared.inMemory hSound.built hFits hFresh.opened hFlags

end LiamOS.X64
