import LiamOS.X64.Exec.Image

/-
  The two loaders of ELF64 programs side by side.

  The loader of the embedded program takes the first loadable segment, the loader of EXEC all of
  them. A file both accept has the same pages with both if the other segments add neither a page
  nor a byte. The embedded loader alone has the whole program in its pages if each byte of the
  other segments is a byte of the first one.

  Main declarations: `loadersAgree_iff`, `programPresent_iff`.
-/

namespace LiamOS.X64

open Word PageTable

variable {o : Nat} {phdr : ElfProgramHeader}
variable {first : ElfProgramHeader} {image : UserImage} {mem mem' : ByteMemory}
variable {codePages : Nat → Nat} {embedded : EmbeddedImageState} {later : List ElfProgramHeader}

----------
-- Code Pages Of The Builder

/- The two code pages as the builder allocates them. -/
structure CodePagesReady (codePages : Nat → Nat) (mem : ByteMemory) : Prop where
  aligned : ∀ i < 2, PageAligned (codePages i)
  distinct : codePages 0 ≠ codePages 1
  cleared : ∀ i < 2, ∀ j < 4096, mem (codePages i + j) = 0

/- Where the byte of an offset is. -/
def codeAddress (codePages : Nat → Nat) (o : Nat) : Nat := codePages (o / 4096) + o % 4096

section CodePages

variable {codePages : Nat → Nat}
variable {mem : ByteMemory}

theorem CodePagesReady.codeAddress_ne (hReady : CodePagesReady codePages mem) {o' : Nat}
    (ho : o < 8192) (ho' : o' < 8192) (hOther : o ≠ o') :
    codeAddress codePages o ≠ codeAddress codePages o' := by
  have hFirst := hReady.aligned 0 (by decide)
  have hSecond := hReady.aligned 1 (by decide)
  have hDistinct := hReady.distinct
  have hPage : o / 4096 = 0 ∨ o / 4096 = 1 := by omega
  have hPage' : o' / 4096 = 0 ∨ o' / 4096 = 1 := by omega
  unfold PageAligned at hFirst hSecond
  unfold codeAddress
  rcases hPage with hPage | hPage <;>
    rcases hPage' with hPage' | hPage' <;>
    rw [hPage, hPage'] <;> omega

theorem storeCodeBytes_eq (hReady : CodePagesReady codePages mem) (value : Nat → UInt8)
    (start : ByteMemory) {first n : Nat} (hFit : first + n ≤ 8192) (ho : o < 8192) :
    storeCodeBytes codePages value start first n (codeAddress codePages o) =
      if first ≤ o ∧ o < first + n then
        value o
      else
        start (codeAddress codePages o) := by
  induction n with
  | zero => rw [storeCodeBytes, if_neg (by omega)]
  | succ n ih =>
    have hTarget : codePageForOffset codePages (first + n) + (first + n) % 4096 =
          codeAddress codePages (first + n) := by
      rw [codePageForOffset, if_neg (by omega), codeAddress]
    rw [storeCodeBytes, hTarget]
    by_cases hLast : o = first + n
    · rw [hLast, Function.update_self, if_pos (by omega)]
    · rw [Function.update_of_ne (hReady.codeAddress_ne ho (by omega) hLast), ih (by omega)]
      by_cases hBefore : first ≤ o ∧ o < first + n
      · rw [if_pos hBefore, if_pos (by omega)]
      · rw [if_neg hBefore, if_neg (by omega)]

/- The first segment at the start of two cleared pages. -/
theorem loadSegment_eq (hReady : CodePagesReady codePages mem)
    (hFile : phdr.fileSize ≤ phdr.memorySize) (hMemory : phdr.memorySize ≤ 8192) (ho : o < 8192) :
    loadSegment image codePages phdr mem (codeAddress codePages o) = if o < phdr.fileSize then
        image.bytes (phdr.offset + o)
      else
        0 := by
  have hCleared : mem (codeAddress codePages o) = 0 :=
    hReady.cleared _ (by omega) _ (Nat.mod_lt _ (by decide))
  rw [loadSegment, storeCodeBytes_eq hReady _ _ (by omega) ho,
    storeCodeBytes_eq hReady _ _ (by omega) ho, hCleared]
  split_ifs <;> first | rfl | omega

end CodePages

/- The pages the builder has allocated are ready. -/
theorem codePagesReady_of_allocated {pmm pmm' : Pmm} {allocated : List Nat}
    (hNodup : pmm.stack.Nodup) (hAligned : ∀ p ∈ pmm.stack, PageAligned p)
    (hAllocate : allocatePages allocatedPageCount [] pmm mem = some (allocated, pmm', mem'))
    (hFull : allocated.length = allocatedPageCount) :
    CodePagesReady (fun i => builderTables allocated (BuilderPage.userCodePages i)) mem' := by
  obtain ⟨taken, hTaken, -, hStack, -, -, hCleared⟩ := allocatePages_spec hAllocate
  rw [List.nil_append] at hTaken
  subst hTaken
  have hSplit := hStack hFull
  have hMember := fun b => builderTables_mem hFull b
  refine ⟨?_, ?_, ?_⟩
  · intro i _
    refine hAligned _ ?_
    rw [hSplit]
    exact List.mem_append_left _ (hMember _)
  · intro hSame
    rw [hSplit] at hNodup
    have hTables := (List.nodup_append.mp hNodup).1
    rw [← map_builderTables hFull] at hTables
    have hName :=
      List.inj_on_of_nodup_map hTables (mem_allBuilderPages _) (mem_allBuilderPages _) hSame
    exact absurd hName (by decide)
  · intro i _ j hj
    exact hCleared _ (hMember _) j hj

----------
-- The First Segment

def isLoad (phdr : ElfProgramHeader) : Bool := phdr.type == elfProgramTypeLoad

theorem findLoadHeader_eq (image : UserImage) (header : ElfHeader) (turns index : Nat) :
    findLoadHeader image header turns index =
      ((List.range' index turns).map (programHeaderAt image header)).find? isLoad := by
  induction turns generalizing index with
  | zero => rfl
  | succ turns ih =>
    rw [findLoadHeader, List.range'_succ, List.map_cons]
    by_cases hLoad : (programHeaderAt image header index).type = elfProgramTypeLoad
    · rw [if_pos hLoad, List.find?_cons_of_pos]
      exact beq_iff_eq.mpr hLoad
    · rw [if_neg hLoad, ih, List.find?_cons_of_neg]
      exact fun hType => hLoad (beq_iff_eq.mp hType)

/- A first segment with memory is the first of the program. -/
theorem filter_loadable_of_find {headers : List ElfProgramHeader}
    (hFind : headers.find? isLoad = some phdr) (hMemory : 0 < phdr.memorySize) :
    ∃ later, headers.filter loadable = phdr :: later := by
  obtain ⟨hLoad, before, rest, rfl, hBefore⟩ := List.find?_eq_some_iff_append.mp hFind
  have hNone : before.filter loadable = [] := by
    rw [List.filter_eq_nil_iff]
    intro q hq hLoadable
    have hOther := hBefore q hq
    rw [loadable, Bool.and_eq_true] at hLoadable
    rw [isLoad, hLoadable.1] at hOther
    exact absurd hOther (by decide)
  have hFirst : loadable phdr = true := by
    rw [loadable, Bool.and_eq_true]
    exact ⟨hLoad, by rw [bne_iff_ne]; omega⟩
  refine ⟨rest.filter loadable, ?_⟩
  rw [List.filter_append, hNone, List.nil_append, List.filter_cons_of_pos hFirst]

/- What the embedded loader leaves in the code pages, for a file it accepts. -/
structure EmbeddedLoaded (image : UserImage) (codePages : Nat → Nat) (embedded : EmbeddedImageState)
    (mem : ByteMemory) (first : ElfProgramHeader) (later : List ElfProgramHeader) : Prop where
  segments : loadSegments image = first :: later
  base : first.virtualAddress = userCodeBase
  offset : segmentOffset first = 0
  memory : first.memorySize ≤ 8192
  pageCount : embedded.userImagePages = (first.memorySize + 4095) / 4096
  bytes : ∀ o < 8192, mem (codeAddress codePages o) = if o < first.fileSize then
          image.bytes (first.offset + o)
        else
          0

theorem loadEmbeddedUserImage_loaded {stack : Nat} (hReady : CodePagesReady codePages mem)
    (hRun : loadEmbeddedUserImage image codePages stack mem = (embedded, mem'))
    (hOk : embedded.elf64LoadOk = true) :
    ∃ first later, EmbeddedLoaded image codePages embedded mem' first
        later := by
  rw [loadEmbeddedUserImage] at hRun
  split at hRun
  · next state hCheck =>
      obtain ⟨rfl, -⟩ := Prod.mk.inj hRun
      simp [finishImage, checkImage_fresh hCheck] at hOk
  · next state first hCheck =>
      split at hRun
      · next hAccepted =>
          obtain ⟨hFile, hMemory, hPos, hBase⟩ := segment_of_accepted hCheck hAccepted
          have hFind := findLoadHeader_of_checkImage hCheck
          rw [findLoadHeader_eq, ← List.range_eq_range'] at hFind
          obtain ⟨later, hSegments⟩ := filter_loadable_of_find hFind hPos
          obtain ⟨rfl, rfl⟩ := Prod.mk.inj hRun
          refine ⟨first, later, hSegments, hBase, ?_, hMemory, ?_, ?_⟩
          · rw [segmentOffset, hBase, Nat.sub_self]
          · exact alignPageCount_of_le hMemory
          · intro o ho
            exact loadSegment_eq hReady hFile hMemory ho
      · obtain ⟨rfl, -⟩ := Prod.mk.inj hRun
        simp [finishImage, checkImage_fresh hCheck] at hOk

/- The pages match the file once a segment is accepted. -/
theorem elf64LoadOk_of_accepted {state : EmbeddedImageState} (hReady : CodePagesReady codePages mem)
    (hCheck : checkImage image = (state, some phdr)) (hAccepted : segmentAccepted state = true)
    (hSource : state.userImageSourceOk = true) (stack : Nat) :
    (loadEmbeddedUserImage image codePages stack mem).1.elf64LoadOk = true := by
  obtain ⟨hFile, hMemory, -, -⟩ := segment_of_accepted hCheck hAccepted
  have hPages : (List.range (alignPageCount phdr.memorySize)).all
        (pageLoaded codePages (fun i => image.bytes (phdr.offset + i)) phdr.fileSize
          (loadSegment image codePages phdr mem)) = true := by
    rw [List.all_eq_true, alignPageCount_of_le hMemory]
    intro page hPage
    have hIndex := List.mem_range.mp hPage
    unfold pageLoaded pagePrefixMatches
    dsimp only
    rw [Bool.or_eq_true, List.all_eq_true]
    right
    intro i hi
    have hByte := List.mem_range.mp hi
    have hLess : i < 4096 ∧ page * 4096 + i < phdr.fileSize := by split_ifs at hByte <;> omega
    have hAddress : codePages page + i = codeAddress codePages (page * 4096 + i) := by
      rw [codeAddress, Nat.mul_comm, Nat.mul_add_div (by decide), Nat.mul_add_mod,
        Nat.div_eq_of_lt hLess.1, Nat.mod_eq_of_lt hLess.1,
        Nat.add_zero]
    rw [hAddress, loadSegment_eq hReady hFile hMemory (by omega), if_pos hLess.2, beq_self_eq_true]
  rw [loadEmbeddedUserImage, hCheck]
  dsimp only
  rw [if_pos hAccepted]
  simp only [segmentAccepted, Bool.and_eq_true] at hAccepted
  simp only [finishImage, recordSegment, hPages, hSource, hAccepted, Bool.and_true]

----------
-- Agreement

/- Both loaders fill the same number of pages alike. -/
def LoadersAgree (codePages : Nat → Nat) (staging : Nat) (embedded : EmbeddedImageState)
    (embeddedMem : ByteMemory) (exec : ExecState)
    (execMem : ByteMemory) : Prop :=
  embedded.userImagePages = exec.execUserImagePageCount ∧ ∀ o < embedded.userImagePages * 4096,
      embeddedMem (codeAddress codePages o) = execMem (staging + o)

/-
  The loadable segments behind the first one end on its pages, and the last of them on a byte has
  there what the first has.
-/
def LaterSegmentsKeep (image : UserImage) : Prop :=
  ∀ first later, loadSegments image = first :: later →
    (∀ phdr ∈ later, segmentImageEnd phdr ≤ (first.memorySize + 4095) / 4096 * 4096) ∧
    ∀ o phdr, (later.filter (coversFile o)).getLast? = some phdr →
        image.bytes (phdr.offset + (o - segmentOffset phdr)) = if o < first.fileSize then
            image.bytes (first.offset + o)
          else
            0

theorem fileByteAt_of_last (image : UserImage) {segments : List ElfProgramHeader}
    (hLast : (segments.filter (coversFile o)).getLast? = some phdr) :
    fileByteAt image segments o = image.bytes (phdr.offset + (o - segmentOffset phdr)) := by
  rw [fileByteAt, hLast]

/- A later segment has the byte it covers. -/
theorem fileByteAt_later (image : UserImage) (first : ElfProgramHeader)
    (hLast : (later.filter (coversFile o)).getLast? = some phdr) :
    fileByteAt image (first :: later) o = image.bytes (phdr.offset + (o - segmentOffset phdr)) := by
  apply fileByteAt_of_last
  rw [List.filter_cons]
  split
  · rw [List.getLast?_cons, hLast, Option.getD_some]
  · exact hLast

/- Elsewhere the byte is that of the first one, at the base. -/
theorem fileByteAt_first (image : UserImage) (hOffset : segmentOffset first = 0)
    (hNone : (later.filter (coversFile o)).getLast? = none) :
    fileByteAt image (first :: later) o = if o < first.fileSize then
        image.bytes (first.offset + o)
      else
        0 := by
  have hCovers : coversFile o first = decide (o < first.fileSize) := by
    rw [coversFile, hOffset, Nat.zero_add, decide_eq_true (Nat.zero_le o), Bool.true_and]
  have hAll :
      (first :: later).filter (coversFile o) = if o < first.fileSize then [first] else [] := by
    rw [List.filter_cons, hCovers, List.getLast?_eq_none_iff.mp hNone]
    simp
  by_cases hInside : o < first.fileSize
  · rw [if_pos hInside] at hAll
    rw [if_pos hInside, fileByteAt_of_last image (show _ = some first by rw [hAll]; rfl), hOffset,
      Nat.sub_zero]
  · rw [if_neg hInside] at hAll
    rw [if_neg hInside, fileByteAt, hAll, List.getLast?_nil]

/- The page counts agree if no later segment needs a page. -/
theorem pageCount_eq_iff {embeddedMem execMem : ByteMemory} {exec : ExecState} {staging : Nat}
    (hFirst : EmbeddedLoaded image codePages embedded embeddedMem first later)
    (hLoaded : ExecLoaded image staging mem exec execMem) :
    embedded.userImagePages = exec.execUserImagePageCount ↔
      ∀ phdr ∈ later, segmentImageEnd phdr ≤ (first.memorySize + 4095) / 4096 * 4096 := by
  have hSegments := hFirst.segments
  have hBytes := hLoaded.imageBytes
  have hEnd : segmentImageEnd first = first.memorySize := by
    rw [segmentImageEnd, hFirst.offset, Nat.zero_add]
  rw [hSegments] at hBytes
  rw [hFirst.pageCount, hLoaded.pageCount]
  -- the image ends where its longest segment ends
  have hLongest : first.memorySize ≤ exec.execUserImageBytes := by
    by_contra hShort
    have hInside := (hBytes exec.execUserImageBytes).mpr ⟨first, List.mem_cons_self, by omega⟩
    omega
  constructor
  · intro hSame phdr hMember
    by_contra hBeyond
    have hInside := (hBytes ((first.memorySize + 4095) / 4096 * 4096)).mpr
        ⟨phdr, List.mem_cons_of_mem _ hMember, by omega⟩
    omega
  · intro hLater
    have hStop : exec.execUserImageBytes ≤ (first.memorySize + 4095) / 4096 * 4096 := by
      by_contra hBeyond
      obtain ⟨phdr, hMember, hLong⟩ :=
        (hBytes ((first.memorySize + 4095) / 4096 * 4096)).mp (by omega)
      rcases List.mem_cons.mp hMember with rfl | hOther
      · omega
      · have hShort := hLater phdr hOther
        omega
    omega

/- The pages of the builder and those of EXEC agree exactly if the later segments change nothing. -/
theorem loadersAgree_iff {image : UserImage} {pmm pmm' : Pmm}
    {mem mem₀ embeddedMem mem₁ execMem : ByteMemory} {allocated : List Nat}
    {embedded : EmbeddedImageState} {state exec : ExecState} {staging : Nat}
    (hNodup : pmm.stack.Nodup) (hAligned : ∀ p ∈ pmm.stack, PageAligned p)
    (hAllocate : allocatePages allocatedPageCount [] pmm mem = some (allocated, pmm', mem₀))
    (hFull : allocated.length = allocatedPageCount)
    (hEmbedded :
      loadEmbeddedUserImage image (fun i => builderTables allocated (BuilderPage.userCodePages i))
        (builderTables allocated .userStackPage) mem₀ = (embedded, embeddedMem))
    (hOk : embedded.elf64LoadOk = true)
    (hLive : state.Live staging)
    (hExec : loadExecElf (some image) state mem₁ = (true, exec, execMem)) :
    LoadersAgree (fun i => builderTables allocated (BuilderPage.userCodePages i))
        staging embedded embeddedMem exec execMem ↔
      LaterSegmentsKeep image := by
  have hReady := codePagesReady_of_allocated hNodup hAligned hAllocate hFull
  obtain ⟨first, later, hFirst⟩ := loadEmbeddedUserImage_loaded hReady hEmbedded hOk
  have hLoaded := loadExecElf_loaded hLive hExec
  have hPages := pageCount_eq_iff hFirst hLoaded
  have hMemory := hFirst.memory
  have hCount := hFirst.pageCount
  have hByte : ∀ o < embedded.userImagePages * 4096,
        execMem (staging + o) = fileByteAt image (first :: later) o := by
    intro o ho
    rw [← hFirst.segments]
    exact hLoaded.bytes o (by unfold userImageMaxBytes; omega)
  unfold LoadersAgree LaterSegmentsKeep
  constructor
  · rintro ⟨hSame, hAgree⟩ first' later' hSegments
    rw [hFirst.segments] at hSegments
    obtain ⟨rfl, rfl⟩ := List.cons.inj hSegments
    have hLater := hPages.mp hSame
    refine ⟨hLater, ?_⟩
    intro o phdr hLast
    have hMember := List.mem_filter.mp (List.mem_of_getLast? hLast)
    have hEnd := hLater phdr hMember.1
    have hFits :=
      hLoaded.fits phdr (by
        rw [hFirst.segments]
        exact List.mem_cons_of_mem _ hMember.1)
    have hFile := hFits.file
    have hCovers := hMember.2
    rw [coversFile, Bool.and_eq_true, decide_eq_true_eq, decide_eq_true_eq] at hCovers
    unfold segmentImageEnd at hEnd
    have ho : o < embedded.userImagePages * 4096 := by omega
    have hBoth := hAgree o ho
    rw [hByte o ho, fileByteAt_later image first hLast, hFirst.bytes o (by omega)] at hBoth
    exact hBoth.symm
  · intro hKeep
    obtain ⟨hLater, hBytes⟩ := hKeep first later hFirst.segments
    refine ⟨hPages.mpr hLater, ?_⟩
    intro o ho
    rw [hByte o ho, hFirst.bytes o (by omega)]
    cases hLast : (later.filter (coversFile o)).getLast? with
    | some phdr =>
      rw [fileByteAt_later image first hLast]
      exact (hBytes o phdr hLast).symm
    | none => exact (fileByteAt_first image hFirst.offset hLast).symm

/- The pages the wide boot gives to the builder. -/
theorem wideBoot_allocates (mem : ByteMemory) :
    allocatePages allocatedPageCount [] (pmmInit wideBoot.memoryRegions smallLayout) mem =
      some (widePages 575 16,
        { pmmInit wideBoot.memoryRegions smallLayout with stack := widePages 559 48 },
        (widePages 575 16).foldl clearPage mem) := by
  have hLength : (widePages 575 16).length = allocatedPageCount := by decide +kernel
  have hTaken : ∀ p ∈ widePages 575 16, p ≠ 0 ∧ p < 1073741824 := by decide +kernel
  have hRun := allocatePages_run [] mem
      (show (pmmInit wideBoot.memoryRegions smallLayout).initialized = true from rfl)
      wideBoot_stack hTaken
  rw [hLength, List.nil_append] at hRun
  exact hRun

theorem wideBoot_codePagesReady :
    CodePagesReady (fun i => builderTables (widePages 575 16) (BuilderPage.userCodePages i))
      ((widePages 575 16).foldl clearPage (fun _ => 0)) :=
  codePagesReady_of_allocated (by rw [wideBoot_stack]; decide +kernel)
    (by rw [wideBoot_stack]; decide +kernel)
    (wideBoot_allocates (fun _ => 0)) (by decide +kernel)

theorem tinyImage_staged (mem : ByteMemory) :
    ∃ exec execMem, loadExecElf (some tinyImage) stagedAtOneMiB mem = (true, exec, execMem) :=
  ⟨_, _, rfl⟩

/- A file with one segment has the same page with both. -/
theorem loadersAgree_tinyImage :
    ∃ embedded embeddedMem exec execMem, loadEmbeddedUserImage tinyImage
          (fun i => builderTables (widePages 575 16) (BuilderPage.userCodePages i))
          (builderTables (widePages 575 16) .userStackPage)
          ((widePages 575 16).foldl clearPage (fun _ => 0)) =
        (embedded, embeddedMem) ∧
      loadExecElf (some tinyImage) stagedAtOneMiB (fun _ => 0) = (true, exec, execMem) ∧
      LoadersAgree (fun i => builderTables (widePages 575 16) (BuilderPage.userCodePages i))
        0x100000 embedded embeddedMem exec execMem := by
  obtain ⟨exec, execMem, hExec⟩ := tinyImage_staged (fun _ => 0)
  have hSegments : loadSegments tinyImage = [tinyHeader] := by decide +kernel
  refine ⟨_, _, exec, execMem, Prod.mk.eta.symm, hExec, ?_⟩
  refine (loadersAgree_iff (by rw [wideBoot_stack]; decide +kernel)
    (by rw [wideBoot_stack]; decide +kernel)
    (wideBoot_allocates (fun _ => 0)) (by decide +kernel)
    Prod.mk.eta.symm (tinyImage_loads _ _ _) stagedAtOneMiB_live hExec).mpr ?_
  intro first later hSplit
  rw [hSegments] at hSplit
  obtain ⟨rfl, rfl⟩ := List.cons.inj hSplit
  exact ⟨fun _ hNone => absurd hNone List.not_mem_nil, fun _ _ hNone => absurd hNone (by simp)⟩

theorem checkImage_twoSegmentImage : checkImage twoSegmentImage =
      (⟨true, true, true, true, true, true, 0, 0, 0, false, false, false⟩, some textHeader) := by
  decide +kernel

theorem twoSegmentImage_loaded :
    ∃ embedded embeddedMem, loadEmbeddedUserImage twoSegmentImage
          (fun i => builderTables (widePages 575 16) (BuilderPage.userCodePages i))
          (builderTables (widePages 575 16) .userStackPage)
          ((widePages 575 16).foldl clearPage (fun _ => 0)) =
        (embedded, embeddedMem) ∧
      embedded.elf64LoadOk = true ∧
      ∃ first later, EmbeddedLoaded twoSegmentImage
        (fun i => builderTables (widePages 575 16) (BuilderPage.userCodePages i))
        embedded embeddedMem first later := by
  have hLoads := elf64LoadOk_of_accepted wideBoot_codePagesReady checkImage_twoSegmentImage
      (by decide) rfl (builderTables (widePages 575 16) .userStackPage)
  exact ⟨_, _, Prod.mk.eta.symm, hLoads,
    loadEmbeddedUserImage_loaded wideBoot_codePagesReady Prod.mk.eta.symm hLoads⟩

/- A file with a data segment on a page of its own: the embedded loader leaves the page out. -/
theorem loaders_differ_twoSegmentImage :
    ∃ embedded embeddedMem exec execMem, loadEmbeddedUserImage twoSegmentImage
          (fun i => builderTables (widePages 575 16) (BuilderPage.userCodePages i))
          (builderTables (widePages 575 16) .userStackPage)
          ((widePages 575 16).foldl clearPage (fun _ => 0)) =
        (embedded, embeddedMem) ∧
      embedded.elf64LoadOk = true ∧
      loadExecElf (some twoSegmentImage) stagedAtOneMiB (fun _ => 0) = (true, exec, execMem) ∧
      embedded.userImagePages = 1 ∧
      exec.execUserImagePageCount = 2 := by
  obtain ⟨embedded, embeddedMem, hEmbedded, hLoads, first, later, hFirst⟩ := twoSegmentImage_loaded
  rcases hExec : loadExecElf (some twoSegmentImage) stagedAtOneMiB (fun _ => 0)
    with ⟨ok, exec, execMem⟩
  obtain rfl : ok = true := by
    have hStaged := twoSegmentImage_staged (fun _ => 0)
    rw [hExec] at hStaged
    exact hStaged
  have hLoaded := loadExecElf_loaded stagedAtOneMiB_live hExec
  have hSegments : loadSegments twoSegmentImage = [textHeader, dataHeader] := by decide +kernel
  have hBytes := hLoaded.imageBytes
  have hPages := hFirst.pageCount
  have hSplit := hFirst.segments
  rw [hSegments] at hBytes hSplit
  obtain ⟨rfl, -⟩ := List.cons.inj hSplit
  -- the data segment starts behind the first page
  have hAbove : 4096 < exec.execUserImageBytes := (hBytes 4096).mpr ⟨dataHeader, by simp, by decide⟩
  have hBelow : ¬ 8192 < exec.execUserImageBytes := by
    rw [hBytes 8192]
    decide
  refine ⟨embedded, embeddedMem, exec, execMem, hEmbedded, hLoads, rfl, hPages, ?_⟩
  rw [hLoaded.pageCount]
  omega

----------
-- The Whole Program

/- The byte of a segment: of the file first, then zero. -/
def segmentByte (image : UserImage) (phdr : ElfProgramHeader) (k : Nat) : UInt8 :=
  if k < phdr.fileSize then image.bytes (phdr.offset + k) else 0

/- Each byte of each LOAD header is in the code pages the loader counts, at its address. -/
def ProgramPresent (image : UserImage) (codePages : Nat → Nat) (embedded : EmbeddedImageState)
    (mem : ByteMemory) : Prop :=
  ∀ phdr ∈ programHeaders image, phdr.type = elfProgramTypeLoad → ∀ k < phdr.memorySize,
        ∃ o < embedded.userImagePages * 4096, phdr.virtualAddress + k = userCodeBase + o ∧
            mem (codeAddress codePages o) = segmentByte image phdr k

/- Each byte of a later segment lies on a page of the first one, which has the same byte there. -/
def FirstSegmentHasAll (image : UserImage) : Prop :=
  ∀ first later, loadSegments image = first :: later → ∀ phdr ∈ later, ∀ k < phdr.memorySize,
      ∃ o < (first.memorySize + 4095) / 4096 * 4096, phdr.virtualAddress + k = userCodeBase + o ∧
          segmentByte image first o = segmentByte image phdr k

theorem mem_loadSegments_of_byte {k : Nat} (hk : k < phdr.memorySize) :
    phdr ∈ loadSegments image ↔ phdr ∈ programHeaders image ∧ phdr.type = elfProgramTypeLoad := by
  have hMemory : phdr.memorySize ≠ 0 := by omega
  rw [loadSegments, List.mem_filter, loadable, Bool.and_eq_true,
    beq_iff_eq, bne_iff_ne, and_iff_left hMemory]

section EmbeddedLoaded

variable {image : UserImage}
variable {codePages : Nat → Nat}
variable {embedded : EmbeddedImageState}
variable {mem : ByteMemory}
variable {first : ElfProgramHeader}
variable {later : List ElfProgramHeader}

/- The pages hold the first segment. -/
theorem EmbeddedLoaded.byte (hFirst : EmbeddedLoaded image codePages embedded mem first later)
    (ho : o < embedded.userImagePages * 4096) :
    mem (codeAddress codePages o) = segmentByte image first o := by
  have hMemory := hFirst.memory
  have hCount := hFirst.pageCount
  exact hFirst.bytes o (by omega)

theorem EmbeddedLoaded.present_iff
    (hFirst : EmbeddedLoaded image codePages embedded mem first later) :
    ProgramPresent image codePages embedded mem ↔ FirstSegmentHasAll image := by
  have hCount := hFirst.pageCount
  constructor
  · intro hPresent first' later' hSegments phdr hLater k hk
    rw [hFirst.segments] at hSegments
    obtain ⟨rfl, rfl⟩ := List.cons.inj hSegments
    have hMember : phdr ∈ loadSegments image := by
      rw [hFirst.segments]
      exact List.mem_cons_of_mem _ hLater
    obtain ⟨hHeader, hType⟩ := (mem_loadSegments_of_byte hk).mp hMember
    obtain ⟨o, ho, hAddress, hByte⟩ := hPresent phdr hHeader hType k hk
    rw [hFirst.byte ho] at hByte
    rw [hCount] at ho
    exact ⟨o, ho, hAddress, hByte⟩
  · intro hAll phdr hHeader hType k hk
    have hMember := (mem_loadSegments_of_byte hk).mpr ⟨hHeader, hType⟩
    rw [hFirst.segments] at hMember
    rcases List.mem_cons.mp hMember with rfl | hLater
    · have ho : k < embedded.userImagePages * 4096 := by omega
      exact ⟨k, ho, by rw [hFirst.base], hFirst.byte ho⟩
    · obtain ⟨o, ho, hAddress, hByte⟩ := hAll first later hFirst.segments phdr hLater k hk
      rw [← hCount] at ho
      exact ⟨o, ho, hAddress, by rw [hFirst.byte ho, hByte]⟩

end EmbeddedLoaded

/-
  A program the embedded loader accepts is in the code pages as a whole exactly if the first
  segment has all of it.
-/
theorem programPresent_iff {image : UserImage} {pmm pmm' : Pmm} {mem mem₀ embeddedMem : ByteMemory}
    {allocated : List Nat} {embedded : EmbeddedImageState} (hNodup : pmm.stack.Nodup)
    (hAligned : ∀ p ∈ pmm.stack, PageAligned p)
    (hAllocate : allocatePages allocatedPageCount [] pmm mem = some (allocated, pmm', mem₀))
    (hFull : allocated.length = allocatedPageCount)
    (hEmbedded :
      loadEmbeddedUserImage image (fun i => builderTables allocated (BuilderPage.userCodePages i))
        (builderTables allocated .userStackPage) mem₀ = (embedded, embeddedMem))
    (hOk : embedded.elf64LoadOk = true) :
    ProgramPresent image (fun i => builderTables allocated (BuilderPage.userCodePages i))
        embedded embeddedMem ↔
      FirstSegmentHasAll image := by
  have hReady := codePagesReady_of_allocated hNodup hAligned hAllocate hFull
  obtain ⟨first, later, hFirst⟩ := loadEmbeddedUserImage_loaded hReady hEmbedded hOk
  exact hFirst.present_iff

/- A file with one segment is there as a whole. -/
theorem programPresent_tinyImage : ∃ embedded embeddedMem, loadEmbeddedUserImage tinyImage
          (fun i => builderTables (widePages 575 16) (BuilderPage.userCodePages i))
          (builderTables (widePages 575 16) .userStackPage)
          ((widePages 575 16).foldl clearPage (fun _ => 0)) =
        (embedded, embeddedMem) ∧
      ProgramPresent tinyImage
        (fun i => builderTables (widePages 575 16) (BuilderPage.userCodePages i))
        embedded embeddedMem := by
  have hSegments : loadSegments tinyImage = [tinyHeader] := by decide +kernel
  refine ⟨_, _, Prod.mk.eta.symm, ?_⟩
  apply (programPresent_iff (by rw [wideBoot_stack]; decide +kernel)
    (by rw [wideBoot_stack]; decide +kernel)
    (wideBoot_allocates (fun _ => 0)) (by decide +kernel)
    Prod.mk.eta.symm (tinyImage_loads _ _ _)).mpr
  intro first later hSplit phdr hLater
  rw [hSegments] at hSplit
  obtain ⟨rfl, rfl⟩ := List.cons.inj hSplit
  exact absurd hLater List.not_mem_nil

/- The data segment of the file with two is not there. -/
theorem program_incomplete_twoSegmentImage :
    ∃ embedded embeddedMem, loadEmbeddedUserImage twoSegmentImage
          (fun i => builderTables (widePages 575 16) (BuilderPage.userCodePages i))
          (builderTables (widePages 575 16) .userStackPage)
          ((widePages 575 16).foldl clearPage (fun _ => 0)) =
        (embedded, embeddedMem) ∧
      embedded.elf64LoadOk = true ∧
      ¬ ProgramPresent twoSegmentImage
        (fun i => builderTables (widePages 575 16) (BuilderPage.userCodePages i))
        embedded embeddedMem := by
  obtain ⟨embedded, embeddedMem, hEmbedded, hLoads, first, later, hFirst⟩ := twoSegmentImage_loaded
  refine ⟨embedded, embeddedMem, hEmbedded, hLoads, ?_⟩
  rw [hFirst.present_iff]
  intro hAll
  have hSegments : loadSegments twoSegmentImage = [textHeader, dataHeader] := by decide +kernel
  obtain ⟨o, ho, hAddress, -⟩ :=
    hAll textHeader [dataHeader] hSegments dataHeader List.mem_cons_self 0 (by decide)
  have hPage : o < 4096 := ho
  have hData : 0x401000 + 0 = 0x400000 + o := hAddress
  omega

end LiamOS.X64
