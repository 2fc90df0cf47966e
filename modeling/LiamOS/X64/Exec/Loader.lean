import LiamOS.X64.EmbeddedImage

/-
  The loader of the EXEC and SPAWN services, `x86_64_syscall_load_exec_elf` of
  `kernel/arch/x86_64/syscall_dispatch.h`.

  The loadable segments of a program are laid over each other in four pages of the dispatcher, a
  staging area from which a new process is filled. The program is a file of the kernel image and
  apart from the pages.

  Key definitions: `ExecState`, `ExecState.Live`, `loadExecSegment`, `loadExecSegments`,
  `loadExecElf`, `fileByteAt`, `Intersects`, `Staged`, `ExecutableImage`.
-/

namespace LiamOS.X64

open Word PageTable

variable {image : UserImage} {phdr : ElfProgramHeader}

----------
-- State

def userImageMaxPages : Nat := 4

def userImageMaxBytes : Nat := 16384

/- The fields of the dispatcher that belong to programs. -/
structure ExecState where
  execUserCodePage : Nat
  execUserImagePages : Nat → Nat
  execUserImagePageCount : Nat
  execUserWritablePageBitmap : Nat
  execUserImageBytes : Nat
  execEntry : Nat
  execLoaded : Bool

/-
  The live dispatcher has the pages of one array, as `initialize_live_dispatcher` of `user_mode.c`
  sets them.
-/
structure ExecState.Live (state : ExecState) (staging : Nat) : Prop where
  nonzero : staging ≠ 0
  codePage : state.execUserCodePage = staging
  pages : ∀ i < userImageMaxPages, state.execUserImagePages i = staging + i * 4096

/- A page that is not there is left out. -/
def clearUserImagePages (pages : Nat → Nat) (mem : ByteMemory) : ByteMemory :=
  (List.range userImageMaxPages).foldl
    (fun mem i =>
      if pages i = 0 then mem else clearBytes mem (pages i) 4096)
    mem

def copyToUserImagePage (pages : Nat → Nat) (imageOffset : Nat) (value : UInt8)
    (mem : ByteMemory) : Option ByteMemory :=
  let pageIndex := imageOffset / 4096
  if userImageMaxPages ≤ pageIndex ∨ pages pageIndex = 0 then
    none
  else
    some (Function.update mem (pages pageIndex + imageOffset % 4096) value)

----------
-- Segments

/- The bytes of the file, until one has no page. -/
def copySegmentBytes (pages : Nat → Nat) (segment : Nat → UInt8) (segmentOffset : Nat) :
    Nat → Nat → ByteMemory → Bool × ByteMemory
| 0, _, mem => (true, mem)
| turns + 1, i, mem =>
    match copyToUserImagePage pages (segmentOffset + i) (segment i) mem with
    | none => (false, mem)
    | some mem => copySegmentBytes pages segment segmentOffset turns (i + 1) mem

/- The pages of a segment, marked if it can be written. -/
def markPages (writable : Bool) : Nat → Nat → Nat → Bool × Nat
| 0, _, bitmap => (true, bitmap)
| turns + 1, pageIndex, bitmap =>
    if userImageMaxPages ≤ pageIndex then
      (false, bitmap)
    else
      markPages writable turns (pageIndex + 1)
        (if writable then bitmap ||| 1 <<< pageIndex else bitmap)

/- The variables of the loop over the program headers. -/
structure ExecLoad where
  loadSeen : Bool
  entrySegmentSeen : Bool
  imageBytes : Nat
  bitmap : Nat
  mem : ByteMemory

def segmentWritable (phdr : ElfProgramHeader) : Bool := decide (phdr.flags &&& 2 ≠ 0)

def segmentExecutable (phdr : ElfProgramHeader) : Bool := decide (phdr.flags &&& 1 ≠ 0)

def execSegmentCheck (phdr : ElfProgramHeader) (imageSize : Nat) : Bool :=
  let segmentEnd := u64 (phdr.virtualAddress + phdr.memorySize)
  decide (phdr.virtualAddress ≤ segmentEnd) && decide (userCodeBase ≤ phdr.virtualAddress) &&
    decide (segmentEnd ≤ userCodeBase + userImageMaxBytes) &&
    phdr.alignment == 4096 &&
    decide (phdr.fileSize ≤ phdr.memorySize) &&
    rangeFits phdr.offset phdr.fileSize imageSize

def segmentOffset (phdr : ElfProgramHeader) : Nat := phdr.virtualAddress - userCodeBase

def segmentImageEnd (phdr : ElfProgramHeader) : Nat := segmentOffset phdr + phdr.memorySize

def firstPage (phdr : ElfProgramHeader) : Nat := segmentOffset phdr / 4096

def lastPage (phdr : ElfProgramHeader) : Nat := (segmentImageEnd phdr - 1) / 4096

/- The entry of the program is in an executable segment. -/
def entryInSegment (header : ElfHeader) (phdr : ElfProgramHeader) : Bool :=
  decide (phdr.virtualAddress ≤ header.entry) &&
    decide (header.entry < u64 (phdr.virtualAddress + phdr.memorySize)) &&
    segmentExecutable phdr

def loadExecSegment (image : UserImage) (header : ElfHeader) (pages : Nat → Nat)
    (phdr : ElfProgramHeader)
    (w : ExecLoad) : Bool × ExecLoad :=
  if execSegmentCheck phdr image.size then
    match markPages (segmentWritable phdr) (lastPage phdr + 1 - firstPage phdr) (firstPage phdr)
      w.bitmap with
    | (false, bitmap) => (false, { w with bitmap := bitmap })
    | (true, bitmap) =>
      match copySegmentBytes pages (fun i => image.bytes (phdr.offset + i))
        (segmentOffset phdr) phdr.fileSize 0 w.mem with
      | (false, mem) => (false, { w with bitmap := bitmap, mem := mem })
      | (true, mem) =>
        (true,
          { loadSeen := true
            entrySegmentSeen := if entryInSegment header phdr then true else w.entrySegmentSeen
            imageBytes := if w.imageBytes < segmentImageEnd phdr then
                segmentImageEnd phdr
              else
                w.imageBytes
            bitmap := bitmap
            mem := mem })
  else
    (false, w)

/- The headers of another type or without memory are skipped. -/
def loadable (phdr : ElfProgramHeader) : Bool :=
  phdr.type == elfProgramTypeLoad && phdr.memorySize != 0

def loadExecSegments (image : UserImage) (header : ElfHeader) (pages : Nat → Nat) :
    List ElfProgramHeader → ExecLoad → Bool × ExecLoad
| [], w => (true, w)
| phdr :: rest, w =>
    if loadable phdr then
      let loaded := loadExecSegment image header pages phdr w
      if loaded.1 = false then
        (false, loaded.2)
      else
        loadExecSegments image header pages rest loaded.2
    else
      loadExecSegments image header pages rest w

----------
-- Programs

def programHeaders (image : UserImage) : List ElfProgramHeader :=
  let header := elfHeaderAt image.bytes 0
  (List.range header.programHeaderCount).map (programHeaderAt image header)

/- The tests in front of the first write. -/
def execHeaderCheck (image : UserImage) (state : ExecState) : Bool :=
  state.execUserImagePages 0 != 0 && decide (elfHeaderBytes ≤ image.size) &&
    decide (image.size ≤ 65536) &&
    elf64HeaderCheck (elfHeaderAt image.bytes 0) image.size

def loadExecElf (image : Option UserImage) (state : ExecState)
    (mem : ByteMemory) : Bool × ExecState × ByteMemory :=
  match image with
  | none => (false, state, mem)
  | some image =>
    if execHeaderCheck image state then
      let header := elfHeaderAt image.bytes 0
      let loaded := loadExecSegments image header state.execUserImagePages (programHeaders image)
          { loadSeen := false
            entrySegmentSeen := false
            imageBytes := 0
            bitmap := 0
            mem := clearUserImagePages state.execUserImagePages mem }
      let w := loaded.2
      let state :=
        { state with
          execUserImagePageCount := 0
          execUserWritablePageBitmap := w.bitmap
          execUserImageBytes := 0 }
      if loaded.1 = false ∨ w.loadSeen = false ∨ w.entrySegmentSeen = false ∨ w.imageBytes = 0 ∨
          userImageMaxBytes < w.imageBytes then
        (false, state, w.mem)
      else
        (true,
          { state with
            execEntry := header.entry
            execUserImageBytes := w.imageBytes
            execUserImagePageCount := u32 ((w.imageBytes + 4096 - 1) / 4096)
            execLoaded := true },
          w.mem)
    else
      (false, state, mem)

----------
-- What Is Staged

def coversFile (o : Nat) (phdr : ElfProgramHeader) : Bool :=
  decide (segmentOffset phdr ≤ o) && decide (o < segmentOffset phdr + phdr.fileSize)

/- The byte of the last segment whose file part covers it. -/
def fileByteAt (image : UserImage) (segments : List ElfProgramHeader) (o : Nat) : UInt8 :=
  match (segments.filter (coversFile o)).getLast? with
  | some phdr => image.bytes (phdr.offset + (o - segmentOffset phdr))
  | none => 0

/- The segment has memory on the page. -/
def Intersects (phdr : ElfProgramHeader) (page : Nat) : Prop :=
  segmentOffset phdr < (page + 1) * 4096 ∧ page * 4096 < segmentImageEnd phdr

theorem fileByteAt_nil (image : UserImage) (o : Nat) : fileByteAt image [] o = 0 := rfl

theorem fileByteAt_append (image : UserImage) (segments : List ElfProgramHeader)
    (phdr : ElfProgramHeader) (o : Nat) :
    fileByteAt image (segments ++ [phdr]) o = if coversFile o phdr then
        image.bytes (phdr.offset + (o - segmentOffset phdr))
      else
        fileByteAt image segments o := by
  unfold fileByteAt
  rw [List.filter_append]
  by_cases hCovers : coversFile o phdr = true
  · rw [List.filter_cons_of_pos hCovers, List.filter_nil, List.getLast?_concat, if_pos hCovers]
  · rw [List.filter_cons_of_neg hCovers, List.filter_nil, List.append_nil, if_neg hCovers]

section Pages

variable {pages : Nat → Nat}
variable {staging : Nat}

theorem copySegmentBytes_eq (hNonzero : staging ≠ 0)
    (hPages : ∀ i < userImageMaxPages, pages i = staging + i * 4096) (segment : Nat → UInt8)
    {offset turns i : Nat} (hFit : offset + i + turns ≤ userImageMaxBytes) (mem : ByteMemory) :
    copySegmentBytes pages segment offset turns i mem =
      (true, fun x =>
        if staging + offset + i ≤ x ∧ x < staging + offset + i + turns then
          segment (x - (staging + offset))
        else
          mem x) := by
  induction turns generalizing i mem with
  | zero =>
    rw [copySegmentBytes]
    refine Prod.ext rfl (funext fun x => ?_)
    dsimp only
    rw [if_neg (by omega)]
  | succ turns ih =>
    unfold userImageMaxBytes at hFit
    have hIndex : (offset + i) / 4096 < userImageMaxPages := by
      unfold userImageMaxPages
      omega
    have hPage := hPages _ hIndex
    have hCopy : copyToUserImagePage pages (offset + i) (segment i) mem =
          some (Function.update mem (staging + offset + i) (segment i)) := by
      unfold copyToUserImagePage
      dsimp only
      rw [if_neg (by omega), hPage]
      congr 2
      omega
    rw [copySegmentBytes, hCopy]
    dsimp only
    rw [ih (by unfold userImageMaxBytes; omega)]
    refine Prod.ext rfl (funext fun x => ?_)
    dsimp only
    by_cases hFirst : x = staging + offset + i
    · rw [if_neg (by omega), if_pos (by omega), hFirst, Function.update_self]
      congr 1
      omega
    · rw [Function.update_of_ne hFirst]
      by_cases hRest : staging + offset + (i + 1) ≤ x ∧ x < staging + offset + (i + 1) + turns
      · rw [if_pos hRest, if_pos (by omega)]
      · rw [if_neg hRest, if_neg (by omega)]

theorem markPages_eq (writable : Bool) {turns first : Nat}
    (hFit : first + turns ≤ userImageMaxPages) (bitmap : Nat) :
    ∃ bitmap', markPages writable turns first bitmap = (true, bitmap') ∧ ∀ i, bitmap'.testBit i =
          (bitmap.testBit i || (writable && decide (first ≤ i) && decide (i < first + turns))) := by
  induction turns generalizing first bitmap with
  | zero =>
    refine ⟨bitmap, rfl, ?_⟩
    intro i
    have hNone : (decide (first ≤ i) && decide (i < first + 0)) = false := by
      rw [Bool.and_eq_false_iff, decide_eq_false_iff_not, decide_eq_false_iff_not]
      omega
    rw [Bool.and_assoc, hNone, Bool.and_false, Bool.or_false]
  | succ turns ih =>
    obtain ⟨bitmap', hRun, hBits⟩ :=
      @ih (first + 1) (by omega) (if writable then bitmap ||| 1 <<< first else bitmap)
    refine ⟨bitmap', ?_, ?_⟩
    · rw [markPages, if_neg (by omega), hRun]
    · intro i
      rw [hBits i]
      cases writable with
      | false => simp
      | true =>
        rw [if_pos rfl, Nat.testBit_or, Nat.one_shiftLeft, Nat.testBit_two_pow]
        by_cases hFirst : first = i
        · simp [hFirst]
        · have hSame : (decide (first + 1 ≤ i) && decide (i < first + 1 + turns)) =
                (decide (first ≤ i) && decide (i < first + (turns + 1))) := by
            rw [Bool.eq_iff_iff, Bool.and_eq_true, Bool.and_eq_true, decide_eq_true_eq,
              decide_eq_true_eq, decide_eq_true_eq, decide_eq_true_eq]
            omega
          rw [decide_eq_false hFirst, Bool.or_false, Bool.true_and, Bool.true_and, hSame]

end Pages

/- What the loader demands of a segment. -/
structure SegmentFits (image : UserImage) (phdr : ElfProgramHeader) : Prop where
  base : userCodeBase ≤ phdr.virtualAddress
  stop : phdr.virtualAddress + phdr.memorySize ≤ userCodeBase + userImageMaxBytes
  memory : 0 < phdr.memorySize
  file : phdr.fileSize ≤ phdr.memorySize
  alignment : phdr.alignment = 4096
  range : rangeFits phdr.offset phdr.fileSize image.size = true

theorem segmentFits_of_check (hWidth : phdr.memorySize < 18446744073709551616)
    (hLoadable : loadable phdr = true) (hCheck : execSegmentCheck phdr image.size = true) :
    SegmentFits image phdr := by
  simp only [execSegmentCheck, Bool.and_eq_true, decide_eq_true_eq, beq_iff_eq] at hCheck
  obtain ⟨⟨⟨⟨⟨hWrap, hBase⟩, hStop⟩, hAlignment⟩, hFile⟩, hRange⟩ := hCheck
  simp only [loadable, Bool.and_eq_true, bne_iff_ne, ne_eq] at hLoadable
  refine ⟨hBase, ?_, by omega, hFile, hAlignment, hRange⟩
  -- a sum that wrapped around would end below its start
  unfold u64 at hWrap hStop
  unfold userCodeBase userImageMaxBytes at *
  omega

theorem SegmentFits.segmentEnd (hFits : SegmentFits image phdr) :
    u64 (phdr.virtualAddress + phdr.memorySize) = phdr.virtualAddress + phdr.memorySize := by
  have hStop := hFits.stop
  unfold userCodeBase userImageMaxBytes at hStop
  exact u64_of_lt (by omega)

theorem SegmentFits.offset (hFits : SegmentFits image phdr) :
    segmentOffset phdr + phdr.memorySize ≤ userImageMaxBytes ∧
      phdr.virtualAddress = userCodeBase + segmentOffset phdr := by
  have hBase := hFits.base
  have hStop := hFits.stop
  unfold segmentOffset
  omega

/-
  What the loop has laid out: the segments seen so far over a cleared staging area, and what was
  found on the way.
-/
structure Staged (image : UserImage) (header : ElfHeader) (staging : Nat) (mem : ByteMemory)
    (segments : List ElfProgramHeader) (w : ExecLoad) : Prop where
  fits : ∀ phdr ∈ segments, SegmentFits image phdr
  bytes : ∀ o < userImageMaxBytes, w.mem (staging + o) = fileByteAt image segments o
  frame : ∀ x, (x < staging ∨ staging + userImageMaxBytes ≤ x) → w.mem x = mem x
  bitmap : ∀ page, w.bitmap.testBit page = true ↔
      ∃ phdr ∈ segments, segmentWritable phdr = true ∧ Intersects phdr page
  imageBytes : ∀ n, n < w.imageBytes ↔ ∃ phdr ∈ segments, n < segmentImageEnd phdr
  entry : w.entrySegmentSeen = true ↔ ∃ phdr ∈ segments,
        phdr.virtualAddress ≤ header.entry ∧ header.entry < phdr.virtualAddress + phdr.memorySize ∧
          segmentExecutable phdr = true
  loadSeen : w.loadSeen = true ↔ segments ≠ []

section Staging

variable {image : UserImage}
variable {header : ElfHeader}
variable {pages : Nat → Nat}
variable {staging : Nat}
variable {mem : ByteMemory}
variable {segments : List ElfProgramHeader}
variable {w w' : ExecLoad}

/- The pages of a segment are those between its ends. -/
theorem SegmentFits.intersects_iff (hFits : SegmentFits image phdr) (page : Nat) :
    Intersects phdr page ↔
      firstPage phdr ≤ page ∧ page < firstPage phdr + (lastPage phdr + 1 - firstPage phdr) := by
  have hMemory := hFits.memory
  unfold Intersects lastPage firstPage segmentImageEnd
  omega

theorem SegmentFits.pages_le (hFits : SegmentFits image phdr) :
    firstPage phdr + (lastPage phdr + 1 - firstPage phdr) ≤ userImageMaxPages := by
  have hStop := hFits.offset.1
  have hMemory := hFits.memory
  unfold userImageMaxBytes at hStop
  unfold lastPage firstPage segmentImageEnd userImageMaxPages
  omega

/- One accepted segment. -/
theorem loadExecSegment_eq (hNonzero : staging ≠ 0)
    (hPages : ∀ i < userImageMaxPages, pages i = staging + i * 4096) {phdr : ElfProgramHeader}
    (hFits : SegmentFits image phdr) (hCheck : execSegmentCheck phdr image.size = true)
    (w : ExecLoad) :
    ∃ bitmap,
      (∀ page, bitmap.testBit page = true ↔
        w.bitmap.testBit page = true ∨ segmentWritable phdr = true ∧ Intersects phdr page) ∧
      loadExecSegment image header pages phdr w =
        (true,
          { loadSeen := true
            entrySegmentSeen := if entryInSegment header phdr then true else w.entrySegmentSeen
            imageBytes := if w.imageBytes < segmentImageEnd phdr then
                segmentImageEnd phdr
              else
                w.imageBytes
            bitmap := bitmap
            mem := fun x =>
              if staging + segmentOffset phdr + 0 ≤ x ∧
                  x < staging + segmentOffset phdr + 0 + phdr.fileSize then
                image.bytes (phdr.offset + (x - (staging + segmentOffset phdr)))
              else
                w.mem x }) := by
  have hFile := hFits.file
  have hStop := hFits.offset.1
  obtain ⟨bitmap, hMark, hBits⟩ := markPages_eq (segmentWritable phdr) hFits.pages_le w.bitmap
  have hCopy :=
    @copySegmentBytes_eq pages staging hNonzero hPages (fun i => image.bytes (phdr.offset + i))
      (segmentOffset phdr) phdr.fileSize 0 (by omega) w.mem
  refine ⟨bitmap, ?_, ?_⟩
  · intro page
    rw [hBits page, Bool.or_eq_true, Bool.and_eq_true,
      Bool.and_eq_true, decide_eq_true_eq, decide_eq_true_eq, and_assoc, hFits.intersects_iff page]
  · unfold loadExecSegment
    rw [if_pos hCheck, hMark, hCopy]

theorem mem_append_singleton {P : ElfProgramHeader → Prop} :
    (∃ q ∈ segments ++ [phdr], P q) ↔ (∃ q ∈ segments, P q) ∨ P phdr := by
  simp only [List.mem_append, List.mem_singleton, or_and_right, exists_or, exists_eq_left]

section

variable (hNonzero : staging ≠ 0) (hPages : ∀ i < userImageMaxPages, pages i = staging + i * 4096)
include hNonzero hPages

/- The next segment is laid over those before it. -/
theorem Staged.segment (hStaged : Staged image header staging mem segments w)
    (hFits : SegmentFits image phdr) (hCheck : execSegmentCheck phdr image.size = true)
    (hRun : loadExecSegment image header pages phdr w = (true, w')) :
    Staged image header staging mem (segments ++ [phdr]) w' := by
  obtain ⟨bitmap, hBits, hLoaded⟩ :=
    @loadExecSegment_eq image header pages staging hNonzero hPages phdr hFits hCheck w
  rw [hLoaded] at hRun
  obtain rfl := (Prod.mk.inj hRun).2.symm
  have hFile := hFits.file
  have hStop := hFits.offset.1
  refine ⟨?_, ?_, ?_, ?_, ?_, ?_, ?_⟩
  · intro q hq
    rcases List.mem_append.mp hq with hOld | hNew
    · exact hStaged.fits q hOld
    · rw [List.mem_singleton.mp hNew]
      exact hFits
  · intro o ho
    dsimp only
    rw [fileByteAt_append]
    by_cases hCovers : coversFile o phdr = true
    · have hRange := hCovers
      rw [coversFile, Bool.and_eq_true, decide_eq_true_eq, decide_eq_true_eq] at hRange
      rw [if_pos hCovers, if_pos (by omega), Nat.add_sub_add_left]
    · have hRange := hCovers
      rw [coversFile, Bool.and_eq_true, decide_eq_true_eq, decide_eq_true_eq] at hRange
      rw [if_neg hCovers, if_neg (by omega)]
      exact hStaged.bytes o ho
  · intro x hx
    dsimp only
    rw [if_neg (by omega)]
    exact hStaged.frame x hx
  · intro page
    rw [hBits page, hStaged.bitmap page, mem_append_singleton]
  · intro n
    dsimp only
    rw [mem_append_singleton, ← hStaged.imageBytes n]
    split
    · omega
    · omega
  · dsimp only
    rw [mem_append_singleton, ← hStaged.entry]
    have hIn : entryInSegment header phdr = true ↔ phdr.virtualAddress ≤ header.entry ∧
            header.entry < phdr.virtualAddress + phdr.memorySize ∧
            segmentExecutable phdr = true := by
      rw [entryInSegment, hFits.segmentEnd, Bool.and_eq_true,
        Bool.and_eq_true, decide_eq_true_eq, decide_eq_true_eq, and_assoc]
    rw [← hIn]
    by_cases hEntry : entryInSegment header phdr = true
    · rw [if_pos hEntry]
      exact ⟨fun _ => Or.inr hEntry, fun _ => rfl⟩
    · rw [if_neg hEntry]
      exact ⟨Or.inl, fun h => h.resolve_right hEntry⟩
  · exact ⟨fun _ => by simp, fun _ => rfl⟩

/- The loop over the headers that are left. -/
theorem Staged.headers {headers : List ElfProgramHeader}
    (hWidth : ∀ phdr ∈ headers, phdr.memorySize < 18446744073709551616)
    (hStaged : Staged image header staging mem segments w)
    (hRun : loadExecSegments image header pages headers w = (true, w')) :
    Staged image header staging mem (segments ++ headers.filter loadable) w' := by
  induction headers generalizing segments w with
  | nil =>
    obtain rfl := (Prod.mk.inj hRun).2
    rw [List.filter_nil, List.append_nil]
    exact hStaged
  | cons phdr headers ih =>
    have hRest : ∀ phdr ∈ headers, phdr.memorySize < 18446744073709551616 :=
      fun q hq => hWidth q (List.mem_cons_of_mem _ hq)
    rw [loadExecSegments] at hRun
    by_cases hLoadable : loadable phdr = true
    · rw [if_pos hLoadable] at hRun
      rw [List.filter_cons_of_pos hLoadable]
      rcases hLoaded : loadExecSegment image header pages phdr w with ⟨ok, w₁⟩
      rw [hLoaded] at hRun
      cases ok with
      | false =>
        rw [if_pos rfl] at hRun
        cases hRun
      | true =>
        rw [if_neg (show ¬ true = false from nofun)] at hRun
        have hCheck : execSegmentCheck phdr image.size = true := by
          by_contra hRefused
          rw [loadExecSegment, if_neg hRefused] at hLoaded
          cases hLoaded
        have hFits := segmentFits_of_check (hWidth phdr List.mem_cons_self) hLoadable hCheck
        have hNext := hStaged.segment hNonzero hPages hFits hCheck hLoaded
        have hAll := ih hRest hNext hRun
        rw [List.append_assoc, List.singleton_append] at hAll
        exact hAll
    · rw [if_neg hLoadable] at hRun
      rw [List.filter_cons_of_neg hLoadable]
      exact ih hRest hStaged hRun

/- The cleared staging area has no segment yet. -/
theorem staged_cleared :
    Staged image header staging mem []
      { loadSeen := false
        entrySegmentSeen := false
        imageBytes := 0
        bitmap := 0
        mem := clearUserImagePages pages mem } := by
  have hCleared : ∀ x, clearUserImagePages pages mem x =
        if staging ≤ x ∧ x < staging + 16384 then 0 else mem x := by
    intro x
    have hTurns : List.range userImageMaxPages = [0, 1, 2, 3] := rfl
    have hPage : ∀ i < userImageMaxPages, ∀ m : ByteMemory,
          (if pages i = 0 then m else clearBytes m (pages i) 4096) =
            clearBytes m (staging + i * 4096) 4096 := by
      intro i hi m
      rw [hPages i hi, if_neg (by omega)]
    rw [clearUserImagePages, hTurns]
    simp only [List.foldl_cons, List.foldl_nil, hPage 0 (by decide), hPage 1 (by decide),
      hPage 2 (by decide), hPage 3 (by decide), clearBytes_apply]
    split_ifs <;> first | rfl | omega
  refine ⟨?_, ?_, ?_, ?_, ?_, ?_, ?_⟩
  · exact fun _ hNone => absurd hNone List.not_mem_nil
  · intro o ho
    unfold userImageMaxBytes at ho
    dsimp only
    rw [hCleared, if_pos (by omega), fileByteAt_nil]
  · intro x hx
    unfold userImageMaxBytes at hx
    dsimp only
    rw [hCleared, if_neg (by omega)]
  · intro page
    simp
  · intro n
    simp
  · simp
  · simp

end

end Staging

----------
-- The Loaded Program

/- The segments a program is made of. -/
def loadSegments (image : UserImage) : List ElfProgramHeader :=
  (programHeaders image).filter loadable

theorem programHeaders_width (image : UserImage) :
    ∀ phdr ∈ programHeaders image, phdr.memorySize < 18446744073709551616 := by
  intro phdr hMember
  obtain ⟨index, -, rfl⟩ := List.mem_map.mp hMember
  exact readLE_lt _ _ 8

/- What a program that is accepted leaves in the staging area and in the dispatcher. -/
structure ExecLoaded (image : UserImage) (staging : Nat) (mem : ByteMemory) (state' : ExecState)
    (mem' : ByteMemory) : Prop where
  fits : ∀ phdr ∈ loadSegments image, SegmentFits image phdr
  bytes : ∀ o < userImageMaxBytes, mem' (staging + o) = fileByteAt image (loadSegments image) o
  frame : ∀ x, (x < staging ∨ staging + userImageMaxBytes ≤ x) → mem' x = mem x
  live : state'.Live staging
  bitmap : ∀ page, state'.execUserWritablePageBitmap.testBit page = true ↔
      ∃ phdr ∈ loadSegments image, segmentWritable phdr = true ∧ Intersects phdr page
  imageBytes :
    ∀ n, n < state'.execUserImageBytes ↔ ∃ phdr ∈ loadSegments image, n < segmentImageEnd phdr
  pageCount : state'.execUserImagePageCount = (state'.execUserImageBytes + 4095) / 4096
  imageBytes_pos : 0 < state'.execUserImageBytes
  imageBytes_le : state'.execUserImageBytes ≤ userImageMaxBytes
  entry : state'.execEntry = (elfHeaderAt image.bytes 0).entry ∧
      ∃ phdr ∈ loadSegments image, phdr.virtualAddress ≤ state'.execEntry ∧
          state'.execEntry < phdr.virtualAddress + phdr.memorySize ∧
          segmentExecutable phdr = true

theorem loadExecElf_loaded {state state' : ExecState} {staging : Nat} {mem mem' : ByteMemory}
    (hLive : state.Live staging)
    (hRun : loadExecElf (some image) state mem = (true, state', mem')) :
    ExecLoaded image staging mem state' mem' := by
  unfold loadExecElf at hRun
  dsimp only at hRun
  by_cases hHeader : execHeaderCheck image state = true
  · rw [if_pos hHeader] at hRun
    rcases hLoaded : loadExecSegments image (elfHeaderAt image.bytes 0)
        state.execUserImagePages (programHeaders image)
        { loadSeen := false
          entrySegmentSeen := false
          imageBytes := 0
          bitmap := 0
          mem := clearUserImagePages state.execUserImagePages mem }
      with ⟨ok, w⟩
    rw [hLoaded] at hRun
    dsimp only at hRun
    by_cases hRefused :
        ok = false ∨ w.loadSeen = false ∨ w.entrySegmentSeen = false ∨ w.imageBytes = 0 ∨
          userImageMaxBytes < w.imageBytes
    · rw [if_pos hRefused] at hRun
      cases hRun
    · rw [if_neg hRefused] at hRun
      simp only [not_or, Bool.not_eq_false] at hRefused
      obtain ⟨rfl, -, hEntry, hPos, hLe⟩ := hRefused
      have hStaged := (staged_cleared hLive.nonzero hLive.pages).headers
          hLive.nonzero hLive.pages (programHeaders_width image)
          hLoaded
      rw [List.nil_append] at hStaged
      obtain ⟨rfl, rfl⟩ := Prod.mk.inj (Prod.mk.inj hRun).2
      have hBytes : w.imageBytes ≤ 16384 := not_lt.mp hLe
      have hPages : u32 ((w.imageBytes + 4096 - 1) / 4096) = (w.imageBytes + 4095) / 4096 := by
        unfold u32
        omega
      exact ⟨hStaged.fits, hStaged.bytes, hStaged.frame,
        ⟨hLive.nonzero, hLive.codePage, hLive.pages⟩, hStaged.bitmap, hStaged.imageBytes, hPages,
        Nat.pos_of_ne_zero hPos, not_lt.mp hLe, rfl, hStaged.entry.mp hEntry⟩
  · rw [if_neg hHeader] at hRun
    cases hRun

----------
-- Accepted Programs

/- The files the loader accepts. -/
structure ExecutableImage (image : UserImage) : Prop where
  large : elfHeaderBytes ≤ image.size
  small : image.size ≤ 65536
  header : elf64HeaderCheck (elfHeaderAt image.bytes 0) image.size = true
  fits : ∀ phdr ∈ loadSegments image, SegmentFits image phdr
  entry : ∃ phdr ∈ loadSegments image, phdr.virtualAddress ≤ (elfHeaderAt image.bytes 0).entry ∧
        (elfHeaderAt image.bytes 0).entry < phdr.virtualAddress + phdr.memorySize ∧
        segmentExecutable phdr = true

section Accepted

variable {image : UserImage}
variable {header : ElfHeader}
variable {pages : Nat → Nat}
variable {state state' : ExecState}
variable {staging : Nat}
variable {mem mem' : ByteMemory}
variable {ok : Bool}

theorem SegmentFits.check (hFits : SegmentFits image phdr) :
    execSegmentCheck phdr image.size = true := by
  unfold execSegmentCheck
  simp only [Bool.and_eq_true, decide_eq_true_eq, beq_iff_eq]
  rw [hFits.segmentEnd]
  exact ⟨⟨⟨⟨⟨Nat.le_add_right _ _, hFits.base⟩, hFits.stop⟩,
    hFits.alignment⟩, hFits.file⟩, hFits.range⟩

/- The loop goes through when all segments fit. -/
theorem loadExecSegments_fits (hNonzero : staging ≠ 0)
    (hPages : ∀ i < userImageMaxPages, pages i = staging + i * 4096)
    {headers : List ElfProgramHeader}
    (hFits : ∀ phdr ∈ headers.filter loadable, SegmentFits image phdr) (w : ExecLoad) :
    (loadExecSegments image header pages headers w).1 = true := by
  induction headers generalizing w with
  | nil => rfl
  | cons phdr headers ih =>
    rw [loadExecSegments]
    by_cases hLoadable : loadable phdr = true
    · rw [List.filter_cons_of_pos hLoadable] at hFits
      have hFirst := hFits phdr List.mem_cons_self
      obtain ⟨bitmap, -, hLoaded⟩ :=
        @loadExecSegment_eq image header pages staging hNonzero hPages phdr hFirst hFirst.check w
      rw [if_pos hLoadable, hLoaded]
      dsimp only
      rw [if_neg (show ¬ true = false from nofun)]
      exact ih (fun q hq =>
        hFits q (List.mem_cons_of_mem _ hq)) _
    · rw [List.filter_cons_of_neg hLoadable] at hFits
      rw [if_neg hLoadable]
      exact ih hFits w

/- Also a program that is refused stays in the area. -/
theorem loadExecSegments_frame (hNonzero : staging ≠ 0)
    (hPages : ∀ i < userImageMaxPages, pages i = staging + i * 4096)
    {headers : List ElfProgramHeader}
    (hWidth : ∀ phdr ∈ headers, phdr.memorySize < 18446744073709551616) {x : Nat}
    (hx : x < staging ∨ staging + userImageMaxBytes ≤ x) (w : ExecLoad) :
    (loadExecSegments image header pages headers w).2.mem x = w.mem x := by
  induction headers generalizing w with
  | nil => rfl
  | cons phdr headers ih =>
    have hRest := ih (fun q hq => hWidth q (List.mem_cons_of_mem _ hq))
    rw [loadExecSegments]
    by_cases hLoadable : loadable phdr = true
    · rw [if_pos hLoadable]
      by_cases hCheck : execSegmentCheck phdr image.size = true
      · have hFits := segmentFits_of_check (hWidth phdr List.mem_cons_self) hLoadable hCheck
        have hFile := hFits.file
        have hStop := hFits.offset.1
        obtain ⟨bitmap, -, hLoaded⟩ :=
          @loadExecSegment_eq image header pages staging hNonzero hPages phdr hFits hCheck w
        rw [hLoaded]
        dsimp only
        rw [if_neg (show ¬ true = false from nofun), hRest]
        dsimp only
        rw [if_neg (by omega)]
      · have hRefused : loadExecSegment image header pages phdr w = (false, w) := if_neg hCheck
        rw [hRefused]
        rfl
    · rw [if_neg hLoadable]
      exact hRest w

theorem loadExecElf_frame (hLive : state.Live staging)
    (hRun : loadExecElf (some image) state mem = (ok, state', mem')) :
    state'.Live staging ∧
      ∀ x, (x < staging ∨ staging + userImageMaxBytes ≤ x) → mem' x = mem x := by
  have hLoaded : ∀ x, (x < staging ∨ staging + userImageMaxBytes ≤ x) →
        (loadExecSegments image (elfHeaderAt image.bytes 0)
          state.execUserImagePages (programHeaders image)
          { loadSeen := false
            entrySegmentSeen := false
            imageBytes := 0
            bitmap := 0
            mem := clearUserImagePages state.execUserImagePages mem }).2.mem x = mem x := by
    intro x hx
    rw [loadExecSegments_frame hLive.nonzero hLive.pages (programHeaders_width image) hx]
    exact (@staged_cleared image (elfHeaderAt image.bytes 0)
      state.execUserImagePages staging mem hLive.nonzero hLive.pages).frame x hx
  unfold loadExecElf at hRun
  dsimp only at hRun
  split at hRun
  · split at hRun
    · cases hRun
      exact ⟨⟨hLive.nonzero, hLive.codePage, hLive.pages⟩, hLoaded⟩
    · cases hRun
      exact ⟨⟨hLive.nonzero, hLive.codePage, hLive.pages⟩, hLoaded⟩
  · cases hRun
    exact ⟨hLive, fun _ _ => rfl⟩

theorem loadExecElf_execLoaded (hRun : loadExecElf (some image) state mem = (true, state', mem')) :
    state'.execLoaded = true := by
  unfold loadExecElf at hRun
  dsimp only at hRun
  split at hRun
  · split at hRun
    · cases hRun
    · cases hRun
      rfl
  · cases hRun

theorem execHeaderCheck_iff (hLive : state.Live staging) :
    execHeaderCheck image state = true ↔ elfHeaderBytes ≤ image.size ∧ image.size ≤ 65536 ∧
        elf64HeaderCheck (elfHeaderAt image.bytes 0) image.size = true := by
  have hPage : (state.execUserImagePages 0 != 0) = true := by
    have hNonzero := hLive.nonzero
    rw [hLive.pages 0 (by decide)]
    simpa using hNonzero
  unfold execHeaderCheck
  rw [hPage, Bool.true_and, Bool.and_eq_true, Bool.and_eq_true,
    decide_eq_true_eq, decide_eq_true_eq, and_assoc]

/- What the loader accepts depends on the file alone. -/
theorem loadExecElf_accepts_iff (hLive : state.Live staging) (mem : ByteMemory) :
    (loadExecElf (some image) state mem).1 = true ↔ ExecutableImage image := by
  constructor
  · intro hAccepted
    rcases hRun : loadExecElf (some image) state mem with ⟨ok, state', mem'⟩
    rw [hRun] at hAccepted
    obtain rfl : ok = true := hAccepted
    have hLoaded := loadExecElf_loaded hLive hRun
    have hHeader : execHeaderCheck image state = true := by
      by_contra hRefused
      unfold loadExecElf at hRun
      dsimp only at hRun
      rw [if_neg hRefused] at hRun
      cases hRun
    obtain ⟨hLarge, hSmall, hCheck⟩ := (execHeaderCheck_iff hLive).mp hHeader
    obtain ⟨hEntry, hSegment⟩ := hLoaded.entry
    rw [hEntry] at hSegment
    exact ⟨hLarge, hSmall, hCheck, hLoaded.fits, hSegment⟩
  · intro hImage
    have hHeader : execHeaderCheck image state = true :=
      (execHeaderCheck_iff hLive).mpr ⟨hImage.large, hImage.small, hImage.header⟩
    rcases hLoaded : loadExecSegments image (elfHeaderAt image.bytes 0)
        state.execUserImagePages (programHeaders image)
        { loadSeen := false
          entrySegmentSeen := false
          imageBytes := 0
          bitmap := 0
          mem := clearUserImagePages state.execUserImagePages mem }
      with ⟨ok, w⟩
    have hOk := @loadExecSegments_fits image (elfHeaderAt image.bytes 0)
        state.execUserImagePages staging hLive.nonzero hLive.pages
        (programHeaders image) hImage.fits
        { loadSeen := false
          entrySegmentSeen := false
          imageBytes := 0
          bitmap := 0
          mem := clearUserImagePages state.execUserImagePages mem }
    rw [hLoaded] at hOk
    obtain rfl : ok = true := hOk
    have hStaged := (staged_cleared hLive.nonzero hLive.pages).headers
        hLive.nonzero hLive.pages (programHeaders_width image)
        hLoaded
    rw [List.nil_append] at hStaged
    obtain ⟨phdr, hSegment, hEntry⟩ := hImage.entry
    have hSeen : w.entrySegmentSeen = true := hStaged.entry.mpr ⟨phdr, hSegment, hEntry⟩
    have hLoad : w.loadSeen = true := hStaged.loadSeen.mpr (List.ne_nil_of_mem hSegment)
    have hMemory := (hImage.fits phdr hSegment).memory
    have hPos : 0 < w.imageBytes := by
      refine (hStaged.imageBytes 0).mpr ⟨phdr, hSegment, ?_⟩
      unfold segmentImageEnd
      omega
    have hLe : w.imageBytes ≤ userImageMaxBytes := by
      by_contra hOver
      obtain ⟨q, hq, hEnd⟩ := (hStaged.imageBytes userImageMaxBytes).mp (by omega)
      have hStop := (hImage.fits q hq).offset.1
      unfold segmentImageEnd at hEnd
      omega
    unfold loadExecElf
    dsimp only
    rw [if_pos hHeader, hLoaded]
    dsimp only
    rw [if_neg]
    rw [hSeen, hLoad]
    rintro (hFalse | hFalse | hFalse | hZero | hOver)
    · cases hFalse
    · cases hFalse
    · cases hFalse
    · omega
    · omega

end Accepted

end LiamOS.X64
