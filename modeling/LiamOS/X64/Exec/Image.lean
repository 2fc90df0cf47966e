import LiamOS.X64.Exec.Loader
import LiamOS.X64.Process.Separation

/-
  A program from its file to the pages of its process.

  The EXEC service stages a program and fills the code pages of a new process from the staging
  area. User mode then finds at each address of its code pages the byte that the last segment has
  there.

  Main declarations: `programInMemory_of_exec`.
-/

namespace LiamOS.X64

open Word PageTable Transition

variable {w : SlotState} {mem mem' : ByteMemory} {boot : ProcessSystem}
variable {x : Nat}

----------
-- The Service

/- The arguments of the creation, out of the dispatcher. -/
def execRequest (path : List UInt8) (state : ExecState) : UserImageRequest where
  path := path
  loadedCodePages := UInt64.ofNat state.execUserCodePage
  codeBytes := UInt64.ofNat state.execUserImageBytes
  entry := UInt64.ofNat state.execEntry
  pageCount := UInt32.ofNat state.execUserImagePageCount
  writablePageBitmap := UInt32.ofNat state.execUserWritablePageBitmap

/- EXEC for a path that names an executable file: the pid of the new process, or zero. -/
def execProgram (path : List UInt8) (image : UserImage) (state : ExecState)
    (s : ProcessSystem) : Nat × ExecState × ProcessSystem :=
  match loadExecElf (some image) { state with execLoaded := false, execEntry := 0 } s.mem with
  | (false, state, mem) => (0, state, { s with mem := mem })
  | (true, state, mem) =>
    match processCreateUserImage (execRequest path state) { s with mem := mem } with
    | (pid, s) => (pid, state, s)

/-
  The staging area is an aligned array of four pages in the image of the kernel. Neither the page
  manager nor the builder has pages there.
-/
structure StagingArea (builder : BuilderState) (s : ProcessSystem) (staging : Nat) : Prop where
  aligned : PageAligned staging
  bound : staging + userImageMaxBytes ≤ 18446744073709551616
  notFree : ∀ i < 4, staging + i * 4096 ∉ s.pmm.stack
  apart : ∀ i < 4, ∀ b, builder.tables b ≠ staging + i * 4096

/- The program of a file in the memory of a process. -/
structure ProgramInMemory (image : UserImage) (process : Process) (mem : ByteMemory) : Prop where
  bytes : ∀ o < process.userCodePageCount * 4096, ∃ physical writable,
        walk mem (process.pages .cr3) (0x400000 + o) = some ⟨physical, true, writable⟩ ∧
          mem physical = fileByteAt image (loadSegments image) o
  entry : process.userEntry = (elfHeaderAt image.bytes 0).entry
  entryMapped : ∃ page < process.userCodePageCount, 0x400000 + page * 4096 ≤ process.userEntry ∧
        process.userEntry < 0x400000 + (page + 1) * 4096 ∧
        UserAt mem (process.pages .cr3) process.userEntry
  writable : ∀ page < process.userCodePageCount, ∀ offset < 4096,
      ∃ physical writable, walk mem (process.pages .cr3) (0x400000 + page * 4096 + offset) =
          some ⟨physical, true, writable⟩ ∧
        (writable = true ↔
          ∃ phdr ∈ loadSegments image, segmentWritable phdr = true ∧ Intersects phdr page)

----------
-- Filled Code Pages

variable {builder : BuilderState}
variable {request : UserImageRequest}
variable {s s' : ProcessSystem}

/- What the code pages of a new process are filled with. -/
structure CodeFilled (request : UserImageRequest) (mem : ByteMemory) (w : SlotState) : Prop where
  bytes : ∀ i < request.pageCountNat, ∀ j < 4096,
      w.mem (w.process.codePageAt i + j) = if j < codeCopySize request.codeBytes.toNat i then
          mem (request.loadedCodePages.toNat + i * 4096 + j)
        else
          0
  entry : w.process.userEntry = request.entry.toNat

/- The code pages are not among those that hold tables. -/
theorem SpaceFits.code_not_mem {pages : SpacePage → Nat} (hFits : SpaceFits builder pages)
    (i : Fin 4) :
    pages (.userCodePages i) ∉ tablePages.map pages := by
  intro hMem
  obtain ⟨p, hp, hSame⟩ := List.mem_map.mp hMem
  obtain rfl := hFits.family.injective hSame
  simp [tablePages] at hp

theorem openUserImage_filled (hSound : SoundSlot builder w) (hFresh : FreshSpace builder w)
    (hCount : request.pageCountNat ≤ 4) (hSource : PageAligned request.loadedCodePages.toNat)
    (hApart : ∀ i < 4, request.loadedCodePages.toNat + i * 4096 ∉ w.ledger) :
    (∀ i < request.pageCountNat, ∀ j < 4096,
      (openUserImage request w).mem (w.process.codePageAt i + j) =
        if j < codeCopySize request.codeBytes.toNat i then
          w.mem (request.loadedCodePages.toNat + i * 4096 + j)
        else
          0) ∧
      (openUserImage request w).process.userEntry = w.process.userEntry := by
  have hFits := hSound.spaceFits hFresh.filled
  constructor
  · intro i hi j hj
    have hBeside :
        ∀ i < 4, request.loadedCodePages.toNat + i * 4096 ∉ userCodeFrames w.process := by
      intro k hk hMem
      obtain ⟨f, -, hSame⟩ := List.mem_map.mp hMem
      exact hApart k hk (hSame ▸ hFresh.filled.mem_ledger _)
    exact @foldl_loadCodePage_bytes request
      { w with
        process :=
          { w.process with
            userCodePageCount := request.pageCountNat
            userCodePageFlags := fun _ => 0 } }
      hFits.family hSource hBeside _ hCount i j hi hj
  · obtain ⟨flags, mem, hRun, -, -⟩ := foldl_loadCodePage request
        { w with
          process :=
            { w.process with
              userCodePageCount := request.pageCountNat
              userCodePageFlags := fun _ => 0 } }
        (fun i => hFits.family.aligned _) hCount
    have hLoaded : openUserImage request w = _ := hRun
    rw [hLoaded]

/- A creation copies its image, if the image is on pages that are neither free nor of a process. -/
theorem ImageFilled.bytes {i : Fin 64} (hFilled : ImageFilled request s i w)
    (hSound : SoundSystem builder s) (hUnused : (s.table i).state = .unused)
    (hValid : request.isValid = true) (hSource : PageAligned request.loadedCodePages.toNat)
    (hApart : ∀ i < 4, request.loadedCodePages.toNat + i * 4096 ∉ s.ledger) :
    CodeFilled request s.mem w := by
  obtain ⟨made, hMade, hBuilt⟩ := hFilled
  obtain ⟨hPos, hCount⟩ := isValid_pageCount hValid
  obtain ⟨hMoves, -, -, hFresh⟩ := allocateProcess_unused hSound hUnused hMade
  have hSlot : (s.slot i).ledger ⊆ s.ledger := fun p hp =>
    (s.ledger_perm i).mem_iff.mpr (List.mem_append_right _ hp)
  have hMoves₁ := hMoves.trans (made.assigned_moves request s.nextPid)
  have hFresh₁ := (hFresh rfl).assigned request s.nextPid
  have hEntry₁ : (made.assigned request s.nextPid).process.userEntry = request.entry.toNat := rfl
  generalize made.assigned request s.nextPid = w₁ at hBuilt hMoves₁ hFresh₁ hEntry₁
  have hSound₁ := (hSound.slot i).of_moves hMoves₁
  have hBeside : ∀ k < 4, request.loadedCodePages.toNat + k * 4096 ∉ (s.slot i).ledger :=
    fun k hk hMem => hApart k hk (hSlot hMem)
  obtain ⟨hBytes, hEntry⟩ := openUserImage_filled hSound₁ hFresh₁ hCount hSource
      (fun k hk hMem =>
        hBeside k hk (hMoves₁.ledger.subset hMem))
  have hImage := openUserImage_loaded hSound₁ hFresh₁ hPos hCount
  have hFits := (hSound₁.of_moves hImage.moves).spaceFits hImage.fresh.filled
  generalize openUserImage request w₁ = w₂ at hBuilt hBytes hEntry hImage hFits
  have hTables :
      OnlyPages (tablePages.map w₂.process.pages) w₂.mem (writeUserPageTables w₂.process w₂.mem) :=
    onlyPages_tablePages hFits hImage.fresh.opened
  refine ⟨?_, ?_⟩
  · intro k hk j hj
    have hPage : w₂.process.codePageAt k = w₁.process.codePageAt k := congrFun hImage.pages _
    have hOther : pageOf (w₂.process.codePageAt k + j) ∉ tablePages.map w₂.process.pages := by
      unfold Process.codePageAt
      rw [pageOf_add (hFits.family.aligned _) hj]
      exact hFits.code_not_mem _
    have hStaged : w₁.mem (request.loadedCodePages.toNat + k * 4096 + j) =
          s.mem (request.loadedCodePages.toNat + k * 4096 + j) := by
      refine hMoves₁.mem _ ?_
      rw [pageOf_add (by unfold PageAligned at *; omega) hj]
      exact hBeside k (by omega)
    rw [← hBuilt]
    show writeUserPageTables w₂.process w₂.mem (w₂.process.codePageAt k + j) = _
    rw [hTables _ hOther, hPage, hBytes k hk j hj, hStaged]
  · rw [← hBuilt]
    exact hEntry.trans hEntry₁

----------
-- The Staged Program

variable {path : List UInt8}
variable {image : UserImage}
variable {state state' : ExecState}
variable {staging pid : Nat}

/- A creation that succeeds was asked for a staged program. -/
theorem execProgram_created (hLive : state.Live staging)
    (hRun : execProgram path image state s = (pid, state', s')) (hPid : pid ≠ 0) :
    ∃ mem, ExecLoaded image staging s.mem state' mem ∧
        processCreateUserImage (execRequest path state') { s with mem := mem } = (pid, s') := by
  unfold execProgram at hRun
  rcases hLoaded : loadExecElf (some image) { state with execLoaded := false, execEntry := 0 } s.mem
    with ⟨ok, staged, mem⟩
  rw [hLoaded] at hRun
  cases ok with
  | false =>
    cases hRun
    exact absurd rfl hPid
  | true =>
    have hCleared : ({ state with execLoaded := false, execEntry := 0 } : ExecState).Live staging :=
      ⟨hLive.nonzero, hLive.codePage, hLive.pages⟩
    have hStaged := loadExecElf_loaded hCleared hLoaded
    rcases hCreated :
      processCreateUserImage (execRequest path staged) { s with mem := mem } with ⟨created, s₁⟩
    dsimp only at hRun
    rw [hCreated] at hRun
    cases hRun
    exact ⟨mem, hStaged, hCreated⟩

section

variable (hLoaded : ExecLoaded image staging mem state' mem')
include hLoaded

/- No segment has file bytes behind the end of the image. -/
theorem ExecLoaded.fileByteAt_eq_zero {o : Nat} (ho : state'.execUserImageBytes ≤ o) :
    fileByteAt image (loadSegments image) o = 0 := by
  have hNone : (loadSegments image).filter (coversFile o) = [] := by
    rw [List.filter_eq_nil_iff]
    intro phdr hMember hCovers
    rw [coversFile, Bool.and_eq_true, decide_eq_true_eq, decide_eq_true_eq] at hCovers
    have hFile := (hLoaded.fits phdr hMember).file
    have hInside : o < state'.execUserImageBytes :=
      (hLoaded.imageBytes o).mpr ⟨phdr, hMember, by unfold segmentImageEnd; omega⟩
    omega
  rw [fileByteAt, hNone]
  rfl

/- The request is for what was staged. -/
structure RequestOf (staging : Nat) (state : ExecState) (request : UserImageRequest) : Prop where
  source : request.loadedCodePages.toNat = staging
  bytes : request.codeBytes.toNat = state.execUserImageBytes
  entry : request.entry.toNat = state.execEntry
  count : request.pageCountNat = state.execUserImagePageCount
  writable : ∀ i < 4, request.pageWritable i = state.execUserWritablePageBitmap.testBit i

theorem ExecLoaded.requestOf (hBound : staging + userImageMaxBytes ≤ 18446744073709551616)
    (path : List UInt8) :
    RequestOf staging state' (execRequest path state') := by
  have hBytes := hLoaded.imageBytes_le
  have hCount := hLoaded.pageCount
  have hEntry : state'.execEntry < 18446744073709551616 := by
    rw [hLoaded.entry.1]
    exact readLE_lt _ _ 8
  unfold userImageMaxBytes at hBound hBytes
  refine ⟨?_, ?_, ?_, ?_, ?_⟩
  · show (UInt64.ofNat state'.execUserCodePage).toNat = staging
    rw [hLoaded.live.codePage, UInt64.toNat_ofNat_of_lt']
    exact show staging < 18446744073709551616 by omega
  · refine UInt64.toNat_ofNat_of_lt' ?_
    exact show _ < 18446744073709551616 by omega
  · exact UInt64.toNat_ofNat_of_lt' hEntry
  · refine UInt32.toNat_ofNat_of_lt' ?_
    exact show _ < 4294967296 by omega
  · intro i hi
    show (UInt32.ofNat state'.execUserWritablePageBitmap).toNat.testBit i = _
    rw [UInt32.toNat_ofNat', Nat.testBit_mod_two_pow, decide_eq_true (by omega), Bool.true_and]

/- What the loader accepts passes the tests of the creation. -/
theorem ExecLoaded.request_valid (hRequest : RequestOf staging state' request) :
    request.isValid = true := by
  obtain ⟨phdr, hMember, hAbove, hBelow, -⟩ := hLoaded.entry.2
  have hFits := hLoaded.fits phdr hMember
  have hOffset := hFits.offset.2
  -- the entry is below the end of its segment
  have hEnd : segmentImageEnd phdr ≤ state'.execUserImageBytes := by
    by_contra hBeyond
    have hInside := (hLoaded.imageBytes state'.execUserImageBytes).mpr ⟨phdr, hMember, by omega⟩
    exact absurd hInside (Nat.lt_irrefl _)
  have hPos := hLoaded.imageBytes_pos
  have hLe := hLoaded.imageBytes_le
  have hCount := hLoaded.pageCount
  have hSource := hRequest.source
  have hBytes := hRequest.bytes
  have hPages := hRequest.count
  unfold segmentImageEnd at hEnd
  unfold userImageMaxBytes at hLe
  unfold UserImageRequest.isValid
  simp only [Bool.and_eq_true, decide_eq_true_eq, bne_iff_ne, ne_eq, hRequest.entry]
  refine ⟨⟨⟨⟨⟨⟨?_, ?_⟩, by omega⟩, ?_⟩, by omega⟩, hFits.base.trans hAbove⟩, by omega⟩
  · intro hZero
    rw [hZero] at hSource
    exact hLoaded.live.nonzero hSource.symm
  · intro hZero
    rw [hZero] at hBytes
    exact absurd hBytes.symm (Nat.ne_of_gt hPos)
  · intro hZero
    unfold UserImageRequest.pageCountNat at hPages
    rw [hZero] at hPages
    have hNone : (0 : UInt32).toNat = 0 := rfl
    omega

end

/- An address on another page is beside the area. -/
theorem StagingArea.beside (hStaging : StagingArea builder boot staging)
    (hBeside : ∀ i < 4, pageOf x ≠ staging + i * 4096) :
    x < staging ∨ staging + userImageMaxBytes ≤ x := by
  by_contra hInside
  unfold userImageMaxBytes at hInside
  have hAligned := hStaging.aligned
  refine hBeside ((x - staging) / 4096) (by omega) ?_
  unfold PageAligned at hAligned
  unfold pageOf
  omega

/- Staging a program leaves the pages beside the area. -/
theorem StagingArea.frame (hStaging : StagingArea builder boot staging)
    (hLoaded : ExecLoaded image staging mem state' mem')
    (hBeside : ∀ i < 4, pageOf x ≠ staging + i * 4096) :
    mem' x = mem x :=
  hLoaded.frame x (hStaging.beside hBeside)

theorem StagingArea.sound (hStaging : StagingArea builder boot staging)
    (hSound : SoundSystem builder s) (hLoaded : ExecLoaded image staging s.mem state' mem) :
    SoundSystem builder { s with mem := mem } where
  ok := hSound.ok
  context := hSound.context
  nodup := hSound.nodup
  aligned := hSound.aligned
  bound := hSound.bound
  apart := hSound.apart
  built := by
    refine hSound.built.of_agree fun b x hPage => ?_
    refine hStaging.frame hLoaded fun i hi => ?_
    rw [hPage]
    exact hStaging.apart i hi b
  unused := hSound.unused

theorem lt_codeCopySize_iff {codeBytes i j : Nat} (hj : j < 4096) :
    j < codeCopySize codeBytes i ↔ i * 4096 + j < codeBytes := by
  unfold codeCopySize
  dsimp only
  split_ifs <;> omega

theorem isValid_entry (hValid : request.isValid = true) : userCodeBase ≤ request.entry.toNat ∧
      request.entry.toNat < userCodeBase + request.pageCountNat * 4096 := by
  unfold UserImageRequest.isValid at hValid
  simp only [Bool.and_eq_true, decide_eq_true_eq] at hValid
  exact ⟨hValid.1.2, hValid.2⟩

/- The program in the slot of its process. -/
theorem ProgramInMemory.of_filled (hLoaded : ExecLoaded image staging mem state' mem')
    (hRequest : RequestOf staging state' request) (hValid : request.isValid = true)
    (hImage : ImageSlot builder request pid w) (hFilled : CodeFilled request mem' w) :
    ProgramInMemory image w.process w.mem := by
  obtain ⟨hPos, hCount⟩ := isValid_pageCount hValid
  have hEntry := isValid_entry hValid
  have hSeparation := hImage.separation hCount
  refine ⟨?_, ?_, ?_, ?_⟩
  · intro o ho
    rw [hImage.count] at ho
    have hPage : o / 4096 < request.pageCountNat := by omega
    have hRest : o % 4096 < 4096 := Nat.mod_lt _ (by decide)
    have hSplit : o / 4096 * 4096 + o % 4096 = o := by omega
    have hWalk := hSeparation.code _ hPage _ hRest
    rw [Nat.add_assoc, hSplit] at hWalk
    refine ⟨_, _, hWalk, ?_⟩
    rw [hFilled.bytes _ hPage _ hRest, hRequest.source, hRequest.bytes, Nat.add_assoc, hSplit]
    by_cases hInside : o < state'.execUserImageBytes
    · rw [if_pos ((lt_codeCopySize_iff hRest).mpr (by omega))]
      exact hLoaded.bytes o (by unfold userImageMaxBytes; omega)
    · rw [if_neg (by rw [lt_codeCopySize_iff hRest]; omega)]
      exact (hLoaded.fileByteAt_eq_zero (by omega)).symm
  · rw [hFilled.entry, hRequest.entry]
    exact hLoaded.entry.1
  · rw [hFilled.entry, hImage.count]
    unfold userCodeBase at hEntry
    refine ⟨(request.entry.toNat - 0x400000) / 4096, by omega, by omega, by omega, ?_⟩
    exact (hSeparation.user _).mpr (Or.inl hEntry)
  · intro page hPage offset hOffset
    rw [hImage.count] at hPage
    refine ⟨_, _, hSeparation.code page hPage offset hOffset, ?_⟩
    rw [← hLoaded.bitmap page, ← hRequest.writable page (by omega)]
    rfl

/-
  An executable with two segments: two bytes of code, and one byte of data with seven cleared ones
  on a page of its own.
-/
def twoSegmentImage : UserImage where
  bytes := fun a =>
    [0x7F, 0x45, 0x4C, 0x46, 2, 1, 1, 0, 0, 0, 0, 0, 0, 0, 0, 0,
      2, 0, 0x3E, 0, 1, 0, 0, 0, 0, 0, 0x40, 0, 0, 0, 0, 0,
      64, 0, 0, 0, 0, 0, 0, 0, 0, 0, 0, 0, 0, 0, 0, 0,
      0, 0, 0, 0, 64, 0, 56, 0, 2, 0, 0, 0, 0, 0, 0, 0,
      1, 0, 0, 0, 5, 0, 0, 0, 176, 0, 0, 0, 0, 0, 0, 0,
      0, 0, 0x40, 0, 0, 0, 0, 0, 0, 0, 0, 0, 0, 0, 0, 0,
      2, 0, 0, 0, 0, 0, 0, 0, 2, 0, 0, 0, 0, 0, 0, 0,
      0, 16, 0, 0, 0, 0, 0, 0,
      1, 0, 0, 0, 6, 0, 0, 0, 178, 0, 0, 0, 0, 0, 0, 0,
      0, 16, 0x40, 0, 0, 0, 0, 0, 0, 0, 0, 0, 0, 0, 0, 0,
      1, 0, 0, 0, 0, 0, 0, 0, 8, 0, 0, 0, 0, 0, 0, 0,
      0, 16, 0, 0, 0, 0, 0, 0,
      0x0F, 0x05, 0x2A].getD a 0
  size := 179

def textHeader : ElfProgramHeader := ⟨1, 5, 176, 0x400000, 2, 2, 4096⟩

def dataHeader : ElfProgramHeader := ⟨1, 6, 178, 0x401000, 1, 8, 4096⟩

/- A live dispatcher with its pages at 1 MiB. -/
def stagedAtOneMiB : ExecState where
  execUserCodePage := 0x100000
  execUserImagePages := fun i => 0x100000 + i * 4096
  execUserImagePageCount := 0
  execUserWritablePageBitmap := 0
  execUserImageBytes := 0
  execEntry := 0
  execLoaded := false

theorem stagedAtOneMiB_live : stagedAtOneMiB.Live 0x100000 := ⟨by decide, rfl, fun _ _ => rfl⟩

theorem twoSegmentImage_staged (mem : ByteMemory) :
    (loadExecElf (some twoSegmentImage) stagedAtOneMiB mem).1 = true := by
  have hCheck : execHeaderCheck twoSegmentImage stagedAtOneMiB = true := by decide +kernel
  have hHeaders : programHeaders twoSegmentImage = [textHeader, dataHeader] := by decide +kernel
  have hHeader : elfHeaderAt twoSegmentImage.bytes 0 =
        ⟨[0x7F, 0x45, 0x4C, 0x46, 2, 1, 1], 2, 0x3E, 1, 0x400000, 64, 64, 56, 2⟩ := by
    decide +kernel
  unfold loadExecElf
  dsimp only
  rw [if_pos hCheck, hHeaders, hHeader]
  rfl

end LiamOS.X64
