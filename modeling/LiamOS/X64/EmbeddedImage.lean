import LiamOS.Lib.PageTable

/-
  The loader of the program embedded in the x86_64 kernel: the ELF64 structures of `userland.h`
  and `load_embedded_user_image` of `paging_builder.c`.

  The embedded file is a parameter. It is part of the kernel image, so the pages of the page
  manager do not meet it.

  Key definitions: `ElfHeader`, `ElfProgramHeader`, `UserImage`, `loadEmbeddedUserImage`.
-/

namespace LiamOS.X64

open Word PageTable

variable {image : UserImage} {state : EmbeddedImageState}

def userCodeBase : Nat := 0x400000

def userStackTop : Nat := 0x80000000

----------
-- ELF Structures

structure ElfHeader where
  ident : List Nat
  type : Nat
  machine : Nat
  version : Nat
  entry : Nat
  programHeaderOffset : Nat
  headerSize : Nat
  programHeaderEntrySize : Nat
  programHeaderCount : Nat
deriving DecidableEq, Repr

def elfHeaderBytes : Nat := 64

/- The header that starts at an address. -/
def elfHeaderAt (bytes : ByteMemory) (a : Nat) : ElfHeader where
  ident := (List.range 7).map fun i => (bytes (a + i)).toNat
  type := readLE bytes (a + 16) 2
  machine := readLE bytes (a + 18) 2
  version := readLE bytes (a + 20) 4
  entry := readLE bytes (a + 24) 8
  programHeaderOffset := readLE bytes (a + 32) 8
  headerSize := readLE bytes (a + 52) 2
  programHeaderEntrySize := readLE bytes (a + 54) 2
  programHeaderCount := readLE bytes (a + 56) 2

structure ElfProgramHeader where
  type : Nat
  flags : Nat
  offset : Nat
  virtualAddress : Nat
  fileSize : Nat
  memorySize : Nat
  alignment : Nat
deriving DecidableEq, Repr

variable {phdr : ElfProgramHeader}

def elfProgramHeaderBytes : Nat := 56

def elfProgramTypeLoad : Nat := 1

def elfProgramHeaderAt (bytes : ByteMemory) (a : Nat) : ElfProgramHeader where
  type := readLE bytes a 4
  flags := readLE bytes (a + 4) 4
  offset := readLE bytes (a + 8) 8
  virtualAddress := readLE bytes (a + 16) 8
  fileSize := readLE bytes (a + 32) 8
  memorySize := readLE bytes (a + 40) 8
  alignment := readLE bytes (a + 48) 8

----------
-- Checks

/- A file with the distance of its end from its start. -/
structure UserImage where
  bytes : ByteMemory
  size : Nat

def embeddedUserImageSize (image : UserImage) : Nat :=
  if 0xFFFFFFFF < image.size then 0 else image.size

def rangeFits (offset size imageBytes : Nat) : Bool :=
  offset ≤ imageBytes && size ≤ imageBytes - offset

def elf64HeaderCheck (header : ElfHeader) (imageBytes : Nat) : Bool :=
  header.ident == [0x7F, 0x45, 0x4C, 0x46, 2, 1, 1] && header.type == 2 && header.machine == 0x3E &&
    header.version == 1 &&
    header.headerSize == elfHeaderBytes &&
    header.programHeaderEntrySize == elfProgramHeaderBytes &&
    decide (0 < header.programHeaderCount) &&
    decide (header.programHeaderCount ≤ 8) &&
    rangeFits header.programHeaderOffset
      (header.programHeaderEntrySize * header.programHeaderCount) imageBytes

def programHeaderAt (image : UserImage) (header : ElfHeader) (index : Nat) : ElfProgramHeader :=
  elfProgramHeaderAt image.bytes
    (u64 (header.programHeaderOffset + index * header.programHeaderEntrySize))

/- The first loadable segment from an index on. -/
def findLoadHeader (image : UserImage) (header : ElfHeader) : Nat → Nat → Option ElfProgramHeader
| 0, _ => none
| turns + 1, index =>
    let candidate := programHeaderAt image header index
    if candidate.type = elfProgramTypeLoad then
      some candidate
    else
      findLoadHeader image header turns (index + 1)

def elf64ProgramHeaderCheck (phdr : ElfProgramHeader) : Bool :=
  phdr.type == elfProgramTypeLoad && decide (phdr.flags &&& 1 ≠ 0) && phdr.alignment == 4096

def elf64EntryCheck (header : ElfHeader) (phdr : ElfProgramHeader) : Bool :=
  header.entry == userCodeBase && decide (phdr.virtualAddress ≤ header.entry) &&
    decide (header.entry < u64 (phdr.virtualAddress + phdr.memorySize))

def embeddedInitMaxBytes : Nat := 8192

def elf64SegmentCheck (phdr : ElfProgramHeader) (imageBytes : Nat) : Bool :=
  phdr.virtualAddress == userCodeBase && decide (phdr.fileSize ≤ phdr.memorySize) &&
    decide (phdr.memorySize ≤ embeddedInitMaxBytes) &&
    rangeFits phdr.offset phdr.fileSize imageBytes

----------
-- Loading

def alignPageCount (bytes : Nat) : Nat := u32 (u64 (bytes + 4095) / 4096)

/- The page of an offset in the two code pages. -/
def codePageForOffset (codePages : Nat → Nat) (offset : Nat) : Nat :=
  if 2 ≤ offset / 4096 then 0 else codePages (offset / 4096)

/- Store bytes from an offset on, one for each turn. -/
def storeCodeBytes (codePages : Nat → Nat) (value : Nat → UInt8) (mem : ByteMemory)
    (first : Nat) : Nat → ByteMemory
| 0 => mem
| n + 1 =>
    Function.update (storeCodeBytes codePages value mem first n)
      (codePageForOffset codePages (first + n) + (first + n) % 4096)
      (value (first + n))

def checksumBytes (bytes : Nat → UInt8) : Nat → Nat
| 0 => 0
| n + 1 =>
    let checksum := checksumBytes bytes n
    u32 (checksum <<< 5) ^^^ (checksum >>> 2) ^^^ (bytes n).toNat

def pagePrefixMatches (mem : ByteMemory) (page : Nat) (expected : Nat → UInt8)
    (count : Nat) : Bool :=
  (List.range count).all fun i => mem (page + i) == expected i

def pageIsZeroed (mem : ByteMemory) (page : Nat) : Bool :=
  (List.range 4096).all fun i => mem (page + i) == 0

/- The comparison of a code page with the file. -/
def pageLoaded (codePages : Nat → Nat) (segment : Nat → UInt8) (fileSize : Nat) (mem : ByteMemory)
    (pageIndex : Nat) : Bool :=
  let pageOffset := pageIndex * 4096
  let remaining := if pageOffset < fileSize then fileSize - pageOffset else 0
  let compareBytes := if 4096 < remaining then 4096 else remaining
  compareBytes == 0 ||
    pagePrefixMatches mem (codePages pageIndex) (fun i => segment (pageOffset + i)) compareBytes

structure EmbeddedImageState where
  userImageEmbedded : Bool
  userImageSourceOk : Bool
  elf64HeaderOk : Bool
  elf64ProgramHeaderOk : Bool
  elf64EntryOk : Bool
  elf64SegmentOk : Bool
  userImageBytes : Nat
  userImagePages : Nat
  userImageChecksum : Nat
  userImageLoaded : Bool
  userStackZeroed : Bool
  elf64LoadOk : Bool
deriving DecidableEq, Repr

/- The checks that need a loadable segment. -/
def checkLoadHeader (header : ElfHeader) (imageBytes : Nat) (state : EmbeddedImageState) :
    Option ElfProgramHeader → EmbeddedImageState
| none => state
| some phdr =>
    { state with
      elf64ProgramHeaderOk := elf64ProgramHeaderCheck phdr
      elf64EntryOk := elf64EntryCheck header phdr
      elf64SegmentOk := elf64SegmentCheck phdr imageBytes }

/- Copy the segment, clear what the file does not cover. -/
def loadSegment (image : UserImage) (codePages : Nat → Nat) (phdr : ElfProgramHeader)
    (mem : ByteMemory) : ByteMemory :=
  storeCodeBytes codePages (fun _ => 0)
    (storeCodeBytes codePages (fun i => image.bytes (phdr.offset + i)) mem 0 phdr.fileSize)
    phdr.fileSize (phdr.memorySize - phdr.fileSize)

def recordSegment (image : UserImage) (codePages : Nat → Nat) (phdr : ElfProgramHeader)
    (mem : ByteMemory)
    (state : EmbeddedImageState) : EmbeddedImageState :=
  let segment := fun i => image.bytes (phdr.offset + i)
  { state with
    userImageBytes := u32 phdr.fileSize
    userImagePages := alignPageCount phdr.memorySize
    userImageChecksum := checksumBytes segment (u32 phdr.fileSize)
    userImageLoaded := (List.range (alignPageCount phdr.memorySize)).all
        (pageLoaded codePages segment phdr.fileSize mem) }

/- The state in front of the segment. -/
def checkImage (image : UserImage) : EmbeddedImageState × Option ElfProgramHeader :=
  let imageBytes := embeddedUserImageSize image
  let sourceOk := decide (elfHeaderBytes ≤ imageBytes) && decide (imageBytes ≤ 65536)
  let header := elfHeaderAt image.bytes 0
  let headerOk := sourceOk && elf64HeaderCheck header imageBytes
  let loadPhdr := if headerOk then findLoadHeader image header header.programHeaderCount 0 else none
  (checkLoadHeader header imageBytes
    { userImageEmbedded := sourceOk
      userImageSourceOk := sourceOk
      elf64HeaderOk := headerOk
      elf64ProgramHeaderOk := false
      elf64EntryOk := false
      elf64SegmentOk := false
      userImageBytes := 0
      userImagePages := 0
      userImageChecksum := 0
      userImageLoaded := false
      userStackZeroed := false
      elf64LoadOk := false }
    loadPhdr, loadPhdr)

def segmentAccepted (state : EmbeddedImageState) : Bool :=
  state.elf64HeaderOk && state.elf64ProgramHeaderOk && state.elf64EntryOk && state.elf64SegmentOk

def finishImage (stack : Nat) (mem : ByteMemory)
    (state : EmbeddedImageState) : EmbeddedImageState :=
  { state with
    userStackZeroed := pageIsZeroed mem stack
    elf64LoadOk := state.userImageSourceOk && state.elf64HeaderOk &&
        state.elf64ProgramHeaderOk && state.elf64EntryOk &&
        state.elf64SegmentOk && state.userImageLoaded }

def loadEmbeddedUserImage (image : UserImage) (codePages : Nat → Nat) (stack : Nat)
    (mem : ByteMemory) : EmbeddedImageState × ByteMemory :=
  match checkImage image with
  | (state, none) => (finishImage stack mem state, mem)
  | (state, some phdr) =>
    if segmentAccepted state then
      let loaded := loadSegment image codePages phdr mem
      (finishImage stack loaded (recordSegment image codePages phdr loaded state), loaded)
    else
      (finishImage stack mem state, mem)

----------
-- Effects

variable {codePages : Nat → Nat}

theorem codePageForOffset_mem (codePages : Nat → Nat) {offset : Nat} (hOffset : offset < 8192) :
    codePageForOffset codePages offset ∈ [codePages 0, codePages 1] := by
  rw [codePageForOffset, if_neg (by omega)]
  have hCases : offset / 4096 = 0 ∨ offset / 4096 = 1 := by omega
  rcases hCases with hPage | hPage
  · simp [hPage]
  · simp [hPage]

theorem storeCodeBytes_onlyPages {value : Nat → UInt8} {mem : ByteMemory} {first n : Nat}
    (hAligned : ∀ i, PageAligned (codePages i)) (hFit : first + n ≤ 8192) :
    OnlyPages [codePages 0, codePages 1] mem (storeCodeBytes codePages value mem first n) := by
  induction n with
  | zero => exact OnlyPages.refl _ _
  | succ n ih =>
    apply (ih (by omega)).trans
    intro x hx
    apply Function.update_of_ne
    intro hEq
    have hMem := codePageForOffset_mem codePages (show first + n < 8192 by omega)
    have hPage : PageAligned (codePageForOffset codePages (first + n)) := by
      rw [codePageForOffset, if_neg (by omega)]
      exact hAligned _
    rw [hEq, pageOf_add hPage (Nat.mod_lt _ (by decide))] at hx
    exact hx hMem

/- What an accepted segment looks like. -/
theorem segment_of_accepted (hCheck : checkImage image = (state, some phdr))
    (hAccepted : segmentAccepted state = true) :
    phdr.fileSize ≤ phdr.memorySize ∧ phdr.memorySize ≤ 8192 ∧ 0 < phdr.memorySize ∧
      phdr.virtualAddress = userCodeBase := by
  simp only [checkImage, Prod.mk.injEq] at hCheck
  obtain ⟨hState, hPhdr⟩ := hCheck
  rw [hPhdr, checkLoadHeader] at hState
  rw [← hState] at hAccepted
  simp only [segmentAccepted, elf64EntryCheck, elf64SegmentCheck, Bool.and_eq_true, beq_iff_eq,
    decide_eq_true_eq] at hAccepted
  obtain ⟨⟨-, hEntry⟩, hSegment⟩ := hAccepted
  refine ⟨hSegment.1.1.2, hSegment.1.2, ?_, hSegment.1.1.1⟩
  have hEnd := hEntry.2
  rw [hEntry.1.1, hSegment.1.1.1] at hEnd
  unfold u64 userCodeBase at hEnd
  omega

/- The segment is the first loadable one of the file. -/
theorem findLoadHeader_of_checkImage (hCheck : checkImage image = (state, some phdr)) :
    findLoadHeader image (elfHeaderAt image.bytes 0)
      (elfHeaderAt image.bytes 0).programHeaderCount 0 = some phdr := by
  simp only [checkImage, Prod.mk.injEq] at hCheck
  have hFind := hCheck.2
  split at hFind
  · exact hFind
  · exact absurd hFind (by simp)

theorem alignPageCount_of_le {bytes : Nat} (hBytes : bytes ≤ 8192) :
    alignPageCount bytes = (bytes + 4095) / 4096 := by
  unfold alignPageCount u32 u64
  omega

/- Loading touches the two code pages only. -/
theorem loadEmbeddedUserImage_onlyPages (image : UserImage) (stack : Nat) (mem : ByteMemory)
    (hAligned : ∀ i, PageAligned (codePages i)) :
    OnlyPages [codePages 0, codePages 1] mem
      (loadEmbeddedUserImage image codePages stack mem).2 := by
  rw [loadEmbeddedUserImage]
  split
  · exact OnlyPages.refl _ _
  · next state phdr hCheck =>
      split
      · next hAccepted =>
          obtain ⟨hFile, hMemory, -⟩ := segment_of_accepted hCheck hAccepted
          rw [loadSegment]
          apply OnlyPages.trans _ (storeCodeBytes_onlyPages hAligned (by omega))
          exact storeCodeBytes_onlyPages hAligned (by omega)
      · exact OnlyPages.refl _ _

/- Nothing is recorded before the segment is accepted. -/
theorem checkImage_fresh {phdr : Option ElfProgramHeader}
    (hCheck : checkImage image = (state, phdr)) :
    state.userImagePages = 0 ∧ state.userImageLoaded = false := by
  simp only [checkImage, Prod.mk.injEq] at hCheck
  obtain ⟨hState, hPhdr⟩ := hCheck
  rw [hPhdr] at hState
  rw [← hState]
  cases phdr with
  | none => exact ⟨rfl, rfl⟩
  | some phdr => exact ⟨rfl, rfl⟩

/- The image takes at most the two pages, and one if it loads. -/
theorem userImagePages_bounds (image : UserImage) (stack : Nat) (mem : ByteMemory)
    (codePages : Nat → Nat) :
    let state := (loadEmbeddedUserImage image codePages stack mem).1
    state.userImagePages ≤ 2 ∧ (state.elf64LoadOk = true → 0 < state.userImagePages) := by
  dsimp only
  rw [loadEmbeddedUserImage]
  split
  · next state hCheck =>
      simp [finishImage, checkImage_fresh hCheck]
  · next state phdr hCheck =>
      split
      · next hAccepted =>
          obtain ⟨-, hMemory, hPos, -⟩ := segment_of_accepted hCheck hAccepted
          simp only [finishImage, recordSegment, alignPageCount_of_le hMemory]
          exact ⟨by omega, fun _ => by omega⟩
      · simp [finishImage, checkImage_fresh hCheck]

end LiamOS.X64
