import LiamOS.X64.Process.Slots

/-
  The pages of the whole process table.

  The pages recorded in all slots and the free pages together are the ledger of the system. A
  function of `process.c` leaves the table as it is or replaces one slot, moving pages inside the
  ledger; a creation gives its slot the next pid and every other call leaves the pids of the slots
  in use alone.

  Key definitions: `ProcessSystem.recordedPages`, `ProcessSystem.ledger`, `SoundSystem`,
  `Replaced`, `SystemStep`.
-/

namespace LiamOS.X64

open Word PageTable

variable {i : Fin 64} {w : SlotState} {process : Process} {created : Bool} {pid : Nat}
variable {request : UserImageRequest}

----------
-- Ledger Of The System

namespace ProcessSystem

/- The pages recorded in the slots of the table. -/
def recordedPages (s : ProcessSystem) : List Nat :=
  (List.finRange 64).flatMap fun i => (s.table i).ownedPages

def ledger (s : ProcessSystem) : List Nat := s.recordedPages ++ s.pmm.stack

/- The pages recorded in the slots beside one. -/
def otherPages (s : ProcessSystem) (i : Fin 64) : List Nat :=
  ((List.finRange 64).erase i).flatMap fun j =>
    (s.table j).ownedPages

theorem ledger_perm (s : ProcessSystem) (i : Fin 64) :
    s.ledger.Perm (s.otherPages i ++ (s.slot i).ledger) := by
  have hSlots : (List.finRange 64).Perm (i :: (List.finRange 64).erase i) :=
    List.perm_cons_erase (List.mem_finRange i)
  have hRecorded : s.recordedPages.Perm (s.otherPages i ++ (s.table i).ownedPages) := by
    refine (hSlots.flatMap_right _).trans ?_
    rw [List.flatMap_cons]
    exact List.perm_append_comm
  have hLedger := hRecorded.append_right s.pmm.stack
  rw [List.append_assoc] at hLedger
  exact hLedger

end ProcessSystem

/-
  The pages of the ledger are distinct page addresses beside those of the builder, whose tables
  are in memory, and a slot that is not in use has no page.
-/
structure SoundSystem (builder : BuilderState) (s : ProcessSystem) : Prop where
  ok : builder.builderOk = true
  context : s.context = setPagingContext builder
  nodup : s.ledger.Nodup
  aligned : ∀ p ∈ s.ledger, PageAligned p
  bound : ∀ p ∈ s.ledger, p < 18446744073709551616
  apart : ∀ b, builder.tables b ∉ s.ledger
  built : BuiltTables builder s.mem
  unused : ∀ i, (s.table i).state = .unused → (s.table i).ownedPages = []

variable {builder : BuilderState}
variable {s s' : ProcessSystem}

theorem SoundSystem.slot (hSound : SoundSystem builder s) (i : Fin 64) :
    SoundSlot builder (s.slot i) := by
  have hPerm := s.ledger_perm i
  have hMem : (s.slot i).ledger ⊆ s.ledger := fun p hp =>
    hPerm.mem_iff.mpr (List.mem_append_right _ hp)
  exact
    { ok := hSound.ok
      nodup := (hPerm.nodup_iff.mp hSound.nodup).sublist (List.sublist_append_right _ _)
      aligned := fun p hp => hSound.aligned p (hMem hp)
      bound := fun p hp => hSound.bound p (hMem hp)
      apart := fun b hb => hSound.apart b (hMem hb)
      built := hSound.built }

----------
-- Replacing One Slot

/- What a call does to the table and the pages. -/
structure Replaced (s s' : ProcessSystem) (i : Fin 64) (w : SlotState) : Prop where
  table : s'.table = Function.update s.table i w.process
  context : s'.context = s.context
  pmm : s'.pmm = w.pmm
  mem : s'.mem = w.mem
  moves : (s.slot i).Moves w
  unused : w.process.state = .unused → w.process.ownedPages = []
  -- a kernel process stays one, whatever runs meanwhile
  kernel : (s.table i).state ≠ .unused → (s.table i).mode = .kernel →
      w.process.state ≠ .unused ∧ w.process.mode = .kernel

theorem Replaced.table_self (hReplaced : Replaced s s' i w) : s'.table i = w.process := by
  rw [hReplaced.table, Function.update_self]

theorem Replaced.table_other {j : Fin 64} (hReplaced : Replaced s s' i w) (hOther : j ≠ i) :
    s'.table j = s.table j := by
  rw [hReplaced.table, Function.update_of_ne hOther]

theorem Replaced.ledger_subperm (hReplaced : Replaced s s' i w) : s'.ledger.Subperm s.ledger := by
  have hOther : s'.otherPages i = s.otherPages i := by
    refine List.flatMap_congr fun j hj => ?_
    have hNe : j ≠ i := ((List.nodup_finRange 64).mem_erase_iff.mp hj).1
    rw [hReplaced.table_other hNe]
  have hSlot : (s'.slot i).ledger = w.ledger := by
    unfold SlotState.ledger ProcessSystem.slot
    rw [hReplaced.table_self, hReplaced.pmm]
  have hMoved := (List.subperm_append_left (s.otherPages i)).mpr hReplaced.moves.ledger
  rw [← hSlot, ← hOther] at hMoved
  refine (s'.ledger_perm i).subperm.trans (hMoved.trans ?_)
  rw [hOther]
  exact (s.ledger_perm i).symm.subperm

theorem SoundSystem.replace (hSound : SoundSystem builder s) (hReplaced : Replaced s s' i w) :
    SoundSystem builder s' := by
  have hLedger := hReplaced.ledger_subperm
  have hSlot := (hSound.slot i).of_moves hReplaced.moves
  refine ⟨hSound.ok, hReplaced.context.trans hSound.context, nodup_of_subperm hLedger hSound.nodup,
    fun p hp => hSound.aligned p (hLedger.subset hp),
    fun p hp => hSound.bound p (hLedger.subset hp),
    fun b hb => hSound.apart b (hLedger.subset hb), ?_, ?_⟩
  · rw [hReplaced.mem]
    exact hSlot.built
  · intro j hj
    by_cases hSame : j = i
    · subst hSame
      rw [hReplaced.table_self] at hj ⊢
      exact hReplaced.unused hj
    · rw [hReplaced.table_other hSame] at hj ⊢
      exact hSound.unused j hj

/- The table with the state of one process changed. -/
theorem replaced_setProcess (hTable : s'.table = Function.update s.table i process)
    (hContext : s'.context = s.context) (hPmm : s'.pmm = s.pmm) (hMem : s'.mem = s.mem)
    (hOwned : process.ownedPages = (s.table i).ownedPages) (hUsed : process.state ≠ .unused)
    (hMode : process.mode = (s.table i).mode) :
    Replaced s s' i { s.slot i with process := process } where
  table := hTable
  context := hContext
  pmm := hPmm
  mem := hMem
  moves := by
    refine ⟨?_, OnlyPages.refl _ _⟩
    unfold SlotState.ledger
    show (process.ownedPages ++ s.pmm.stack).Subperm ((s.table i).ownedPages ++ s.pmm.stack)
    rw [hOwned]
  unused hUnused := absurd hUnused hUsed
  kernel _ hKernel := ⟨hUsed, hMode.trans hKernel⟩

----------
-- Steps Of The System

/- The pids of the slots in use stay. -/
structure KeepsPid (s s' : ProcessSystem) (i : Fin 64) (w : SlotState) : Prop where
  nextPid : s'.nextPid = s.nextPid
  pid : w.process.state ≠ .unused → (s.table i).state ≠ .unused ∧ w.process.pid = (s.table i).pid

/- A slot that was not in use gets the next pid. -/
structure AddsPid (s s' : ProcessSystem) (i : Fin 64) (w : SlotState) : Prop where
  nextPid : s'.nextPid = u32 (s.nextPid + 1)
  unused : (s.table i).state = .unused
  pid : w.process.pid = s.nextPid

/- The fields the laws of the table read. -/
structure SameTable (s s' : ProcessSystem) : Prop where
  table : s'.table = s.table
  context : s'.context = s.context
  pmm : s'.pmm = s.pmm
  mem : s'.mem = s.mem
  nextPid : s'.nextPid = s.nextPid

/- One call, and whether it created a process. -/
inductive SystemStep (s s' : ProcessSystem) : Bool → Prop
| same (hSame : SameTable s s') : SystemStep s s' false
| kept
    (i : Fin 64)
    (w : SlotState)
    (hReplaced : Replaced s s' i w)
    (hPids : KeepsPid s s' i w) :
    SystemStep s s' false
| added
    (i : Fin 64)
    (w : SlotState)
    (hReplaced : Replaced s s' i w)
    (hPids : AddsPid s s' i w) :
    SystemStep s s' true

theorem SameTable.refl (s : ProcessSystem) : SameTable s s := ⟨rfl, rfl, rfl, rfl, rfl⟩

theorem SoundSystem.of_same (hSound : SoundSystem builder s) (hSame : SameTable s s') :
    SoundSystem builder s' := by
  have hLedger : s'.ledger = s.ledger := by
    unfold ProcessSystem.ledger ProcessSystem.recordedPages
    rw [hSame.table, hSame.pmm]
  refine ⟨hSound.ok, hSame.context.trans hSound.context, ?_, ?_, ?_, ?_, ?_, ?_⟩
  · rw [hLedger]
    exact hSound.nodup
  · rw [hLedger]
    exact hSound.aligned
  · rw [hLedger]
    exact hSound.bound
  · rw [hLedger]
    exact hSound.apart
  · rw [hSame.mem]
    exact hSound.built
  · rw [hSame.table]
    exact hSound.unused

theorem SoundSystem.step (hSound : SoundSystem builder s) (hStep : SystemStep s s' created) :
    SoundSystem builder s' := by
  cases hStep with
  | same hSame => exact hSound.of_same hSame
  | kept i w hReplaced _ => exact hSound.replace hReplaced
  | added i w hReplaced _ => exact hSound.replace hReplaced

/- No call finds pages that were not in the ledger. -/
theorem SystemStep.ledger_subperm (hStep : SystemStep s s' created) :
    s'.ledger.Subperm s.ledger := by
  cases hStep with
  | same hSame =>
    unfold ProcessSystem.ledger ProcessSystem.recordedPages
    rw [hSame.table, hSame.pmm]
  | kept i w hReplaced _ => exact hReplaced.ledger_subperm
  | added i w hReplaced _ => exact hReplaced.ledger_subperm

theorem SystemStep.ledger_subset (hStep : SystemStep s s' created) : s'.ledger ⊆ s.ledger :=
  hStep.ledger_subperm.subset

----------
-- Creation

theorem findUnusedProcess_some (hFind : s.findUnusedProcess = some i) :
    (s.table i).state = .unused := by
  have hFound := List.find?_some hFind
  exact of_decide_eq_true hFound

theorem kernelStackPage_eq_zero (hOwned : process.ownedPages = []) :
    process.kernelStackPage = 0 := by
  by_contra hPage
  have hMem : process.kernelStackPage ∈ process.ownedPages := by
    refine List.mem_filter.mpr ⟨?_, by simpa using hPage⟩
    exact List.mem_append_right _ (List.mem_singleton_self _)
  rw [hOwned] at hMem
  exact absurd hMem List.not_mem_nil

/- What a creation does once it has found a slot. -/
theorem allocateProcess_unused {made : Bool} (hSound : SoundSystem builder s)
    (hUnused : (s.table i).state = .unused)
    (hRun : allocateProcess s.context (s.slot i) = (made, w)) :
    (s.slot i).Moves w ∧ w.process.state = .unused ∧ (made = false → w.process.ownedPages = []) ∧
      (made = true → FreshSpace builder w) := by
  obtain ⟨hMoves, hSame, hFailed, hFresh⟩ := allocateProcess_spec (hSound.slot i) hSound.context
      (kernelStackPage_eq_zero (hSound.unused i hUnused)) hRun
  exact ⟨hMoves, hSame.state.trans hUnused, hFailed, hFresh⟩

/- A failed creation leaves its slot without pages. -/
theorem step_failed (hUnused : (s.table i).state = .unused) (hMoves : (s.slot i).Moves w)
    (hState : w.process.state = .unused) (hOwned : w.process.ownedPages = []) :
    SystemStep s (s.setSlot i w) false := by
  refine .kept i w ⟨rfl, rfl, rfl, rfl, hMoves, fun _ => hOwned, fun hUsed => absurd hUnused hUsed⟩
    ⟨rfl, fun hUsed => absurd hState hUsed⟩

/- The next pid, or zero with what a failure may do. -/
theorem processCreate_step {name : List UInt8} {entry : Nat} (hSound : SoundSystem builder s)
    (hRun : processCreate name entry s = (pid, s')) :
    ∃ created, SystemStep s s' created ∧ pid = if created then s.nextPid else 0 := by
  unfold processCreate at hRun
  split at hRun
  next =>
    cases hRun
    exact ⟨false, .same (SameTable.refl s), rfl⟩
  next =>
    split at hRun
    next =>
      cases hRun
      exact ⟨false, .same (SameTable.refl s), rfl⟩
    next i hFind =>
      have hUnused := findUnusedProcess_some hFind
      rcases hMade : allocateProcess s.context (s.slot i) with ⟨made, w⟩
      obtain ⟨hMoves, hState, hFailed, -⟩ := allocateProcess_unused hSound hUnused hMade
      simp only [hMade] at hRun
      split at hRun
      next hNot =>
        cases hRun
        exact ⟨false, step_failed hUnused hMoves hState (hFailed hNot), rfl⟩
      next =>
        cases hRun
        refine ⟨true, .added i _ ⟨rfl, rfl, rfl, rfl, ⟨hMoves.ledger, hMoves.mem⟩, ?_, ?_⟩
          ⟨rfl, hUnused, rfl⟩, rfl⟩
        · intro hReady
          exact absurd hReady (by simp)
        · exact fun hUsed => absurd hUnused hUsed

theorem isValid_pageCount (hValid : request.isValid = true) :
    0 < request.pageCountNat ∧ request.pageCountNat ≤ 4 := by
  unfold UserImageRequest.isValid at hValid
  simp only [Bool.and_eq_true, decide_eq_true_eq, bne_iff_ne, ne_eq] at hValid
  refine ⟨?_, hValid.1.1.2⟩
  have hCount := hValid.1.1.1.2
  exact Nat.pos_of_ne_zero fun hZero =>
    hCount (UInt32.toNat_inj.mp hZero)

theorem isValid_of_created (hRun : processCreateUserImage request s = (pid, s')) (hPid : pid ≠ 0) :
    request.isValid = true := by
  by_contra hInvalid
  unfold processCreateUserImage at hRun
  rw [if_pos (Or.inr (by simpa using hInvalid))] at hRun
  cases hRun
  exact hPid rfl

/- A slot whose image is loaded and whose tables are written. -/
structure ImageSlot (builder : BuilderState) (request : UserImageRequest) (pid : Nat)
    (w : SlotState) : Prop where
  tablesReady : w.process.userPageTablesReady = true
  state : w.process.state = .ready
  mode : w.process.mode = .user
  pid : w.process.pid = pid
  count : w.process.userCodePageCount = request.pageCountNat
  inMemory : (processSpace w.process request.pageWritable).InMemory w.mem
  kernelEntry : ∀ j < 512, j ≠ 0 →
      entryAt w.mem (w.process.pages .cr3) j = entryAt w.mem (builder.tables .pml4Table) j

/- The slot of a new process in front of its image. -/
def SlotState.assigned (w : SlotState) (request : UserImageRequest) (pid : Nat) : SlotState :=
  { w with
    process :=
      { w.process with
        mode := .user
        name := copyName userProcessName
        imagePath := copyImagePath request.path
        entry := 0
        userEntry := request.entry.toNat
        imageBytes := u32 request.codeBytes.toNat
        pid := pid
        state := .ready
        exitCode := 0 } }

theorem SlotState.assigned_moves (w : SlotState) (request : UserImageRequest) (pid : Nat) :
    w.Moves (w.assigned request pid) :=
  ⟨List.Subperm.refl _, OnlyPages.refl _ _⟩

theorem FreshSpace.assigned (hFresh : FreshSpace builder w) (request : UserImageRequest)
    (pid : Nat) :
    FreshSpace builder (w.assigned request pid) where
  filled := hFresh.filled
  opened :=
    ⟨hFresh.opened.code, hFresh.opened.stack, hFresh.opened.count_pos, hFresh.opened.count_le⟩
  prepared := hFresh.prepared

theorem assignPid_slot (s : ProcessSystem) (i : Fin 64) (w : SlotState) (fill : Process → Process) :
    (assignPid s i w fill).slot i =
      { w with
        process :=
          { fill w.process with
            pid := s.nextPid
            state := .ready
            exitCode := 0 } } := by
  unfold ProcessSystem.slot assignPid ProcessSystem.setSlot
  dsimp only
  rw [Function.update_self]

/- Loading the image and writing the tables, once assigned. -/
theorem buildUserPageTables_imageSlot {w' : SlotState} (hSound : SoundSlot builder w)
    (hFresh : FreshSpace builder w) (hValid : request.isValid = true)
    (hLoaded : buildUserPageTables (setPagingContext builder)
        (openUserImage request (w.assigned request pid)) = w') :
    w.Moves w' ∧ ImageSlot builder request pid w' := by
  obtain ⟨hPos, hLe⟩ := isValid_pageCount hValid
  have hMoves₁ := w.assigned_moves request pid
  have hFresh₁ := hFresh.assigned request pid
  generalize hAssigned : w.assigned request pid = w₁ at hLoaded hMoves₁ hFresh₁
  have hSound₁ := hSound.of_moves hMoves₁
  have hImage := openUserImage_loaded hSound₁ hFresh₁ hPos hLe
  have hSound₂ := hSound₁.of_moves hImage.moves
  obtain ⟨hWritten, hReady, hSpace⟩ := buildUserPageTables_loaded hSound₂ hImage.fresh hImage.flags
  have hKernel : ∀ j < 512, j ≠ 0 → entryAt w'.mem (w'.process.pages .cr3) j =
          entryAt w'.mem (builder.tables .pml4Table) j := by
    intro j hj hNonzero
    rw [← hLoaded]
    refine hImage.fresh.prepared.kernel_entry hSound₂.built (hSound₂.spaceFits hImage.fresh.filled)
      hImage.fresh.opened (codeFlagsAt_lt hImage.flags) hj
      hNonzero
  -- writing the tables keeps the identity of the process
  have hSame : SameIdentity w₁.process w'.process := by
    rw [← hLoaded]
    exact hImage.same.trans ⟨rfl, rfl, rfl, rfl⟩
  have hCount : w'.process.userCodePageCount = request.pageCountNat := by
    rw [← hLoaded]
    exact hImage.count
  rw [hLoaded] at hWritten hReady hSpace
  rw [← hAssigned] at hSame
  exact ⟨(hMoves₁.trans hImage.moves).trans hWritten, hReady,
    hSame.state, hSame.mode, hSame.pid, hCount, hSpace, hKernel⟩

/-
  A creation that succeeds: a slot that was not in use, with an address space of its own into
  which the image is loaded.
-/
structure ImageCreated (builder : BuilderState) (request : UserImageRequest) (s s' : ProcessSystem)
    (i : Fin 64) (w : SlotState) : Prop where
  replaced : Replaced s s' i w
  pids : AddsPid s s' i w
  image : ImageSlot builder request s.nextPid w

/- The slot holds the pages of a creation and its image. -/
def ImageFilled (request : UserImageRequest) (s : ProcessSystem) (i : Fin 64)
    (w : SlotState) : Prop :=
  ∃ made, allocateProcess s.context (s.slot i) = (true, made) ∧
      buildUserPageTables s.context (openUserImage request (made.assigned request s.nextPid)) = w

section

variable (hSound : SoundSystem builder s) (hReady : s.counters.initialized = true)
variable (hValid : request.isValid = true)
variable (hFind : s.findUnusedProcess = some i)
include hSound hReady hValid hFind

/-
  What happens once the pages of the process are there. The counters show the tables of the
  process that came last.
-/
theorem processCreateUserImage_made (hMade : allocateProcess s.context (s.slot i) = (true, w)) :
    ∃ s' w',
      processCreateUserImage request s = (s.nextPid, s') ∧ ImageCreated builder request s s' i w' ∧
        ImageFilled request s i w' ∧
        s'.counters.lastUserCr3 = w'.process.pages .cr3 := by
  have hUnused := findUnusedProcess_some hFind
  obtain ⟨hMoves, -, -, hFresh⟩ := allocateProcess_unused hSound hUnused hMade
  generalize hLoaded : buildUserPageTables (setPagingContext builder)
      (openUserImage request (w.assigned request s.nextPid)) = w'
  obtain ⟨hMoves', hImage⟩ :=
    buildUserPageTables_imageSlot ((hSound.slot i).of_moves hMoves) (hFresh rfl) hValid hLoaded
  have hFilled : ImageFilled request s i w' := ⟨w, hMade, hSound.context ▸ hLoaded⟩
  unfold processCreateUserImage
  rw [if_neg (by simp [hReady, hValid]), hFind]
  simp only [hMade]
  rw [if_neg (by decide), assignPid_slot, hSound.context]
  unfold SlotState.assigned at hLoaded
  -- so the tables of a loaded image pass their checks
  rw [hLoaded, if_neg (by rw [hImage.tablesReady]; decide)]
  refine ⟨_, w', rfl, ⟨⟨?_, rfl, rfl, rfl, hMoves.trans hMoves',
    ?_, ?_⟩, ⟨rfl, hUnused, hImage.pid⟩, hImage⟩, hFilled, rfl⟩
  · exact Function.update_idem _ _ _
  · intro hNone
    rw [hImage.state] at hNone
    exact absurd hNone (by decide)
  · exact fun hUsed => absurd hUnused hUsed

/- A valid request succeeds with a slot and twelve pages. -/
theorem processCreateUserImage_succeeds (hInit : s.pmm.initialized = true)
    (hUsable : Usable s.pmm 12) :
    ∃ s' w, processCreateUserImage request s = (s.nextPid, s') ∧
        ImageCreated builder request s s' i w := by
  have hMade := allocateProcess_succeeds (hSound.slot i) hInit hUsable
  rw [← hSound.context] at hMade
  obtain ⟨s', w, hResult, hCreated, -⟩ :=
    processCreateUserImage_made hSound hReady hValid hFind (Prod.ext hMade rfl)
  exact ⟨s', w, hResult, hCreated⟩

end

section

variable (hSound : SoundSystem builder s) (hRun : processCreateUserImage request s = (pid, s'))
include hSound hRun

/- A creation in full, or one that takes no slot. -/
theorem processCreateUserImage_outcome :
    (pid = 0 ∧ SystemStep s s' false ∧
        ∀ j, (s.table j).state = .unused → (s'.table j).state = .unused) ∨
      (pid = s.nextPid ∧ ∃ i w, ImageCreated builder request s s' i w ∧ ImageFilled request s i w ∧
            s'.counters.lastUserCr3 = w.process.pages .cr3) := by
  by_cases hRefused : s.counters.initialized = false ∨ request.isValid = false
  · unfold processCreateUserImage at hRun
    rw [if_pos hRefused] at hRun
    cases hRun
    exact Or.inl ⟨rfl, .same (SameTable.refl s), fun _ h => h⟩
  · have hReady := hRefused
    rw [not_or, Bool.not_eq_false, Bool.not_eq_false] at hReady
    cases hFind : s.findUnusedProcess with
    | none =>
      unfold processCreateUserImage at hRun
      rw [if_neg hRefused, hFind] at hRun
      cases hRun
      exact Or.inl ⟨rfl, .same (SameTable.refl s), fun _ h => h⟩
    | some i =>
      rcases hMade : allocateProcess s.context (s.slot i) with ⟨made, w⟩
      cases made with
      | false =>
        have hUnused := findUnusedProcess_some hFind
        obtain ⟨hMoves, hState, hFailed, -⟩ := allocateProcess_unused hSound hUnused hMade
        unfold processCreateUserImage at hRun
        rw [if_neg hRefused, hFind] at hRun
        simp only [hMade] at hRun
        cases hRun
        refine Or.inl ⟨rfl, step_failed hUnused hMoves hState (hFailed rfl), ?_⟩
        intro j hj
        by_cases hSlot : j = i
        · rw [hSlot]
          show (Function.update s.table i w.process i).state = .unused
          rw [Function.update_self]
          exact hState
        · show (Function.update s.table i w.process j).state = .unused
          rw [Function.update_of_ne hSlot]
          exact hj
      | true =>
        obtain ⟨s₁, w', hResult, hCreated⟩ :=
          processCreateUserImage_made hSound hReady.1 hReady.2 hFind hMade
        rw [hRun] at hResult
        cases hResult
        exact Or.inr ⟨rfl, i, w', hCreated⟩

theorem processCreateUserImage_cases :
    (pid = 0 ∧ SystemStep s s' false) ∨
      (pid = s.nextPid ∧
        ∃ i w, ImageCreated builder request s s' i w ∧ ImageFilled request s i w) := by
  rcases processCreateUserImage_outcome hSound hRun with
    ⟨hPid, hStep, -⟩ | ⟨hPid, i, w, hCreated, hFilled, -⟩
  · exact Or.inl ⟨hPid, hStep⟩
  · exact Or.inr ⟨hPid, i, w, hCreated, hFilled⟩

theorem processCreateUserImage_step :
    ∃ created, SystemStep s s' created ∧ pid = if created then s.nextPid else 0 := by
  rcases processCreateUserImage_cases hSound hRun with ⟨hPid, hStep⟩ | ⟨hPid, i, w, hCreated, -⟩
  · exact ⟨false, hStep, hPid⟩
  · exact ⟨true, .added i w hCreated.replaced hCreated.pids, hPid⟩

end

----------
-- Running And Reaping

theorem findNextReadyProcess_cases {found : Option (Fin 64)}
    (hFind : findNextReadyProcess s = (found, s')) :
    SameTable s s' ∧ ∀ i, found = some i → readyKernel (s.table i) = true := by
  unfold findNextReadyProcess at hFind
  dsimp only at hFind
  split at hFind
  next =>
    cases hFind
    exact ⟨⟨rfl, rfl, rfl, rfl, rfl⟩, by simp⟩
  next i hFound =>
    cases hFind
    refine ⟨⟨rfl, rfl, rfl, rfl, rfl⟩, ?_⟩
    intro j hj
    have hReady := List.find?_some hFound
    rw [← Option.some.inj hj]
    exact hReady

/- A process in use whose state changes to one in use. -/
theorem setProcess_step (hTable : s'.table = Function.update s.table i process)
    (hContext : s'.context = s.context) (hPmm : s'.pmm = s.pmm) (hMem : s'.mem = s.mem)
    (hNext : s'.nextPid = s.nextPid) (hOwned : process.ownedPages = (s.table i).ownedPages)
    (hUsed : process.state ≠ .unused) (hMode : process.mode = (s.table i).mode)
    (hPid : process.pid = (s.table i).pid) (hUsedBefore : (s.table i).state ≠ .unused) :
    SystemStep s s' false :=
  .kept i _ (replaced_setProcess hTable hContext hPmm hMem hOwned hUsed hMode)
    ⟨hNext, fun _ => ⟨hUsedBefore, hPid⟩⟩

theorem setState_setState (s : ProcessSystem) (i : Fin 64) (state state' : ProcessStateCode) :
    (s.setState i state).setState i state' = s.setState i state' := by
  unfold ProcessSystem.setState ProcessSystem.setProcess
  dsimp only
  rw [Function.update_self, Function.update_idem]

theorem setState_step {state : ProcessStateCode} (hSame : SameTable s s')
    (hUsedBefore : (s.table i).state ≠ .unused) (hUsed : state ≠ .unused) :
    SystemStep s (s'.setState i state) false := by
  refine setProcess_step (congrArg₂ (Function.update · i ·) hSame.table rfl)
    hSame.context hSame.pmm hSame.mem hSame.nextPid ?_ hUsed
    ?_ ?_ hUsedBefore
  all_goals rw [hSame.table]
  rfl

/- The slot a run has entered, and the system it left. -/
def RunStart.outcome : RunStart → Option (Fin 64) × ProcessSystem
| .idle s => (none, s)
| .refused s => (none, s)
| .entered i s => (some i, s)

theorem startNextReady_step {entered : Option (Fin 64)}
    (hStart : (startNextReady s).outcome = (entered, s')) :
    SystemStep s s' false ∧
      ∀ i, entered = some i → (s'.table i).state ≠ .unused ∧ (s'.table i).mode = .kernel := by
  unfold startNextReady at hStart
  rcases hFind : findNextReadyProcess s with ⟨found, s₁⟩
  obtain ⟨hSame, hReady⟩ := findNextReadyProcess_cases hFind
  rw [hFind] at hStart
  cases found with
  | none =>
    cases hStart
    exact ⟨.same hSame, by simp⟩
  | some i =>
    have hKernel := hReady i rfl
    unfold readyKernel at hKernel
    simp only [Bool.and_eq_true, decide_eq_true_eq] at hKernel
    have hUsed : (s.table i).state ≠ .unused := by
      rw [hKernel.1.1]
      decide
    dsimp only at hStart
    split at hStart
    next =>
      rw [setState_setState] at hStart
      cases hStart
      exact ⟨setState_step hSame hUsed (by decide), by simp⟩
    next =>
      cases hStart
      refine ⟨setState_step hSame hUsed (by decide), ?_⟩
      intro j hj
      obtain rfl := Option.some.inj hj
      unfold ProcessSystem.setState ProcessSystem.setProcess
      dsimp only
      rw [Function.update_self, hSame.table]
      exact ⟨nofun, hKernel.1.2⟩

theorem finishRun_step (hUsed : (s.table i).state ≠ .unused) :
    SystemStep s (finishRun i s) false := by
  exact setProcess_step rfl rfl rfl rfl rfl rfl nofun rfl rfl hUsed

theorem findProcessByPid_some (hFind : s.findProcessByPid pid = some i) :
    (s.table i).state ≠ .unused ∧ (s.table i).pid = pid := by
  have hFound := List.find?_some hFind
  simpa using hFound

theorem processMarkUserExited_step (pid exitCode : Nat) (s : ProcessSystem) :
    SystemStep s (processMarkUserExited pid exitCode s).2 false := by
  unfold processMarkUserExited
  split
  next => exact .same (SameTable.refl s)
  next i hFind =>
    dsimp only
    split
    next => exact .same (SameTable.refl s)
    next =>
      exact setProcess_step rfl rfl rfl rfl rfl rfl nofun rfl rfl (findProcessByPid_some hFind).1

theorem releaseProcessResources_moves (w : SlotState) : w.Moves (releaseProcessResources w) :=
  (releaseAddressSpace_moves w).trans (releaseKernelStack_moves _)

theorem processReapUser_step (pid : Nat) (s : ProcessSystem) :
    SystemStep s (processReapUser pid s).2 false := by
  unfold processReapUser
  dsimp only
  split
  next => exact .same ⟨rfl, rfl, rfl, rfl, rfl⟩
  next i hFind =>
    split
    next => exact .same ⟨rfl, rfl, rfl, rfl, rfl⟩
    next hReapable =>
      have hMoves := releaseProcessResources_moves (s.slot i)
      have hUser : (s.table i).mode = .user := by
        rw [Bool.not_eq_false] at hReapable
        unfold reapable at hReapable
        simp only [Bool.and_eq_true, decide_eq_true_eq] at hReapable
        exact hReapable.1
      refine .kept i _ ⟨rfl, rfl, rfl, rfl, hMoves.trans ⟨?_, OnlyPages.refl _ _⟩, fun _ => rfl, ?_⟩
        ⟨rfl, fun hUsed => absurd rfl hUsed⟩
      · -- the cleared slot keeps nothing of the released one
        exact (List.sublist_append_right _ _).subperm
      · intro _ hKernel
        rw [hUser] at hKernel
        exact absurd hKernel (by decide)

end LiamOS.X64
