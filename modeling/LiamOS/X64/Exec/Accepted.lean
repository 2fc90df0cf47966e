import LiamOS.X64.Exec.Image

/-
  Which programs the loader of EXEC and SPAWN accepts.

  The loader adds and compares 64-bit fields of the file in wrapping arithmetic. Here the files it
  is meant for are described with plain sums, and the loader accepts exactly these. It depends on
  no byte outside the file, and the size it reports is the end of the segment that ends last.

  Main declarations: `loadExecElf_exact`.
-/

namespace LiamOS.X64

open Word

----------
-- Intended Programs

/- The header of an x86-64 executable. -/
structure ValidElf64Header (header : ElfHeader) : Prop where
  ident : header.ident = [0x7F, 0x45, 0x4C, 0x46, 2, 1, 1]
  type : header.type = 2
  machine : header.machine = 0x3E
  version : header.version = 1
  headerSize : header.headerSize = 64
  entrySize : header.programHeaderEntrySize = 56

/- A segment in the four pages, its bytes in the file. -/
structure SegmentInside (size : Nat) (phdr : ElfProgramHeader) : Prop where
  alignment : phdr.alignment = 4096
  file : phdr.fileSize ≤ phdr.memorySize
  inside : phdr.offset + phdr.fileSize ≤ size
  base : 0x400000 ≤ phdr.virtualAddress
  stop : phdr.virtualAddress + phdr.memorySize ≤ 0x404000

/- The program header at an index of the table. -/
def headerAtIndex (image : UserImage) (i : Nat) : ElfProgramHeader :=
  elfProgramHeaderAt image.bytes ((elfHeaderAt image.bytes 0).programHeaderOffset + i * 56)

structure IntendedExecutable (image : UserImage) : Prop where
  large : 64 ≤ image.size
  small : image.size ≤ 65536
  header : ValidElf64Header (elfHeaderAt image.bytes 0)
  count : 1 ≤ (elfHeaderAt image.bytes 0).programHeaderCount ∧
      (elfHeaderAt image.bytes 0).programHeaderCount ≤ 8
  table : (elfHeaderAt image.bytes 0).programHeaderOffset +
        (elfHeaderAt image.bytes 0).programHeaderCount * 56 ≤
      image.size
  segments : ∀ i < (elfHeaderAt image.bytes 0).programHeaderCount,
      (headerAtIndex image i).type = elfProgramTypeLoad →
        (headerAtIndex image i).memorySize ≠ 0 → SegmentInside image.size (headerAtIndex image i)
  entry : ∃ i < (elfHeaderAt image.bytes 0).programHeaderCount,
      (headerAtIndex image i).type = elfProgramTypeLoad ∧ (headerAtIndex image i).flags &&& 1 ≠ 0 ∧
        (headerAtIndex image i).virtualAddress ≤ (elfHeaderAt image.bytes 0).entry ∧
        (elfHeaderAt image.bytes 0).entry <
          (headerAtIndex image i).virtualAddress + (headerAtIndex image i).memorySize

section Image

variable {image : UserImage}

theorem rangeFits_iff (offset size imageBytes : Nat) :
    rangeFits offset size imageBytes = true ↔ offset + size ≤ imageBytes := by
  unfold rangeFits
  rw [Bool.and_eq_true, decide_eq_true_eq, decide_eq_true_eq]
  omega

theorem elf64HeaderCheck_iff (header : ElfHeader) (size : Nat) :
    elf64HeaderCheck header size = true ↔
      ValidElf64Header header ∧ (1 ≤ header.programHeaderCount ∧ header.programHeaderCount ≤ 8) ∧
        header.programHeaderOffset + header.programHeaderCount * 56 ≤ size := by
  unfold elf64HeaderCheck
  rw [Bool.and_eq_true, rangeFits_iff]
  simp only [Bool.and_eq_true, beq_iff_eq, decide_eq_true_eq, and_assoc]
  constructor
  · rintro ⟨hIdent, hType, hMachine, hVersion, hSize, hEntry, hPos, hLe, hTable⟩
    rw [hEntry] at hTable
    refine ⟨⟨hIdent, hType, hMachine, hVersion, hSize, hEntry⟩, hPos, hLe, ?_⟩
    unfold elfProgramHeaderBytes at hTable
    omega
  · rintro ⟨hValid, hPos, hLe, hTable⟩
    refine ⟨hValid.ident, hValid.type, hValid.machine,
      hValid.version, hValid.headerSize, hValid.entrySize, hPos, hLe, ?_⟩
    rw [hValid.entrySize]
    omega

section

variable (hSmall : image.size ≤ 65536) (hValid : ValidElf64Header (elfHeaderAt image.bytes 0))
variable (hTable : (elfHeaderAt image.bytes 0).programHeaderOffset + (elfHeaderAt image.bytes 0).programHeaderCount * 56 ≤ image.size)
include hSmall hValid hTable

/- The table is read without wrapping around. -/
theorem programHeaderAt_eq {i : Nat} (hi : i < (elfHeaderAt image.bytes 0).programHeaderCount) :
    programHeaderAt image (elfHeaderAt image.bytes 0) i = headerAtIndex image i := by
  unfold programHeaderAt headerAtIndex
  rw [hValid.entrySize, u64_of_lt (by omega)]

theorem mem_loadSegments_iff (phdr : ElfProgramHeader) :
    phdr ∈ loadSegments image ↔ ∃ i < (elfHeaderAt image.bytes 0).programHeaderCount,
        headerAtIndex image i = phdr ∧ phdr.type = elfProgramTypeLoad ∧ phdr.memorySize ≠ 0 := by
  unfold loadSegments programHeaders loadable
  rw [List.mem_filter, List.mem_map]
  simp only [Bool.and_eq_true, beq_iff_eq, bne_iff_ne]
  constructor
  · rintro ⟨⟨i, hi, hHeader⟩, hLoadable⟩
    rw [List.mem_range] at hi
    rw [programHeaderAt_eq hSmall hValid hTable hi] at hHeader
    exact ⟨i, hi, hHeader, hLoadable⟩
  · rintro ⟨i, hi, hHeader, hLoadable⟩
    refine ⟨⟨i, List.mem_range.mpr hi, ?_⟩, hLoadable⟩
    rw [programHeaderAt_eq hSmall hValid hTable hi]
    exact hHeader

end

theorem segmentFits_iff {phdr : ElfProgramHeader} (hMemory : phdr.memorySize ≠ 0) :
    SegmentFits image phdr ↔ SegmentInside image.size phdr := by
  constructor
  · intro hFits
    exact ⟨hFits.alignment, hFits.file, (rangeFits_iff _ _ _).mp hFits.range, hFits.base,
      hFits.stop⟩
  · intro hInside
    exact ⟨hInside.base, hInside.stop, Nat.pos_of_ne_zero hMemory, hInside.file, hInside.alignment,
      (rangeFits_iff _ _ _).mpr hInside.inside⟩

/- What the loader checks is what is intended. -/
theorem executableImage_iff : ExecutableImage image ↔ IntendedExecutable image := by
  constructor
  · intro hImage
    obtain ⟨hValid, hCount, hTable⟩ := (elf64HeaderCheck_iff _ _).mp hImage.header
    have hSegments := mem_loadSegments_iff hImage.small hValid hTable
    refine ⟨hImage.large, hImage.small, hValid, hCount, hTable, ?_, ?_⟩
    · intro i hi hType hMemory
      apply (segmentFits_iff hMemory).mp
      apply hImage.fits
      exact (hSegments _).mpr ⟨i, hi, rfl, hType, hMemory⟩
    · obtain ⟨phdr, hMember, hLow, hHigh, hExecutable⟩ := hImage.entry
      obtain ⟨i, hi, rfl, hType, -⟩ := (hSegments phdr).mp hMember
      exact ⟨i, hi, hType, of_decide_eq_true hExecutable, hLow, hHigh⟩
  · intro hImage
    have hSegments := mem_loadSegments_iff hImage.small hImage.header hImage.table
    refine ⟨hImage.large, hImage.small, ?_, ?_, ?_⟩
    · exact (elf64HeaderCheck_iff _ _).mpr ⟨hImage.header, hImage.count, hImage.table⟩
    · intro phdr hMember
      obtain ⟨i, hi, rfl, hType, hMemory⟩ := (hSegments phdr).mp hMember
      exact (segmentFits_iff hMemory).mpr (hImage.segments i hi hType hMemory)
    · obtain ⟨i, hi, hType, hFlags, hLow, hHigh⟩ := hImage.entry
      refine ⟨headerAtIndex image i, ?_, hLow, hHigh, decide_eq_true hFlags⟩
      exact (hSegments _).mpr ⟨i, hi, rfl, hType, by omega⟩

end Image

----------
-- Bytes Outside The File

/- Two files that differ behind their end only. -/
structure SameFile (image other : UserImage) : Prop where
  size : other.size = image.size
  bytes : ∀ a < image.size, other.bytes a = image.bytes a

section Outside

variable {image other : UserImage}

theorem SameFile.readLE_eq (hSame : SameFile image other) {a n : Nat}
    (hInside : a + n ≤ image.size) :
    readLE other.bytes a n = readLE image.bytes a n := by
  apply readLE_congr
  intro x _ hx
  exact hSame.bytes x (by omega)

theorem SameFile.elfHeader_eq (hSame : SameFile image other) (hLarge : 64 ≤ image.size) :
    elfHeaderAt other.bytes 0 = elfHeaderAt image.bytes 0 := by
  have hIdent :
      ((List.range 7).map fun i => (other.bytes (0 + i)).toNat) = (List.range 7).map fun i =>
          (image.bytes (0 + i)).toNat := by
    apply List.map_congr_left
    intro i hi
    rw [List.mem_range] at hi
    rw [hSame.bytes (0 + i) (by omega)]
  have hRead : ∀ a n, a + n ≤ 64 → readLE other.bytes a n = readLE image.bytes a n := by
    intro a n hInside
    exact hSame.readLE_eq (hInside.trans hLarge)
  unfold elfHeaderAt
  rw [hIdent, hRead (0 + 16) 2 (by decide),
    hRead (0 + 18) 2 (by decide), hRead (0 + 20) 4 (by decide),
    hRead (0 + 24) 8 (by decide), hRead (0 + 32) 8 (by decide),
    hRead (0 + 52) 2 (by decide), hRead (0 + 54) 2 (by decide),
    hRead (0 + 56) 2 (by decide)]

theorem SameFile.header_eq (hSame : SameFile image other) (hLarge : 64 ≤ image.size) {i : Nat}
    (hInside : (elfHeaderAt image.bytes 0).programHeaderOffset + (i + 1) * 56 ≤ image.size) :
    headerAtIndex other i = headerAtIndex image i := by
  unfold headerAtIndex elfProgramHeaderAt
  rw [hSame.elfHeader_eq hLarge]
  generalize hOffset : (elfHeaderAt image.bytes 0).programHeaderOffset + i * 56 = offset
  have hRead : ∀ k n, k + n ≤ 56 →
        readLE other.bytes (offset + k) n = readLE image.bytes (offset + k) n := by
    intro k n hField
    exact hSame.readLE_eq (by omega)
  rw [show readLE other.bytes offset 4 = readLE image.bytes offset 4 from hRead 0 4 (by decide),
    hRead 4 4 (by decide), hRead 8 8 (by decide),
    hRead 16 8 (by decide), hRead 32 8 (by decide),
    hRead 40 8 (by decide), hRead 48 8 (by decide)]

theorem copySegmentBytes_congr (pages : Nat → Nat) {segment segment' : Nat → UInt8} (offset : Nat)
    {turns i : Nat} (hBytes : ∀ k, i ≤ k → k < i + turns → segment' k = segment k)
    (mem : ByteMemory) :
    copySegmentBytes pages segment' offset turns i mem =
      copySegmentBytes pages segment offset turns i mem := by
  induction turns generalizing i mem with
  | zero => rfl
  | succ turns ih =>
    unfold copySegmentBytes
    rw [hBytes i (le_refl i) (by omega)]
    cases copyToUserImagePage pages (offset + i) (segment i) mem with
    | none => rfl
    | some mem' =>
      apply ih
      intro k hLow hHigh
      exact hBytes k (by omega) (by omega)

/- A segment is copied from its part of the file. -/
theorem SameFile.segment_eq (hSame : SameFile image other) (header : ElfHeader) (pages : Nat → Nat)
    (phdr : ElfProgramHeader) (w : ExecLoad) :
    loadExecSegment other header pages phdr w = loadExecSegment image header pages phdr w := by
  unfold loadExecSegment
  rw [hSame.size]
  by_cases hCheck : execSegmentCheck phdr image.size = true
  · have hRange : phdr.offset + phdr.fileSize ≤ image.size := by
      unfold execSegmentCheck at hCheck
      rw [Bool.and_eq_true] at hCheck
      exact (rangeFits_iff _ _ _).mp hCheck.2
    have hCopy := copySegmentBytes_congr pages (segmentOffset phdr)
        (show ∀ k, 0 ≤ k → k < 0 + phdr.fileSize →
          other.bytes (phdr.offset + k) = image.bytes (phdr.offset + k) from
          fun k _ hk => hSame.bytes _ (by omega)) w.mem
    rw [if_pos hCheck, if_pos hCheck, hCopy]
  · rw [if_neg hCheck, if_neg hCheck]

theorem SameFile.segments_eq (hSame : SameFile image other) (header : ElfHeader) (pages : Nat → Nat)
    (headers : List ElfProgramHeader) (w : ExecLoad) :
    loadExecSegments other header pages headers w =
      loadExecSegments image header pages headers w := by
  induction headers generalizing w with
  | nil => rfl
  | cons phdr headers ih =>
    unfold loadExecSegments
    rw [hSame.segment_eq]
    dsimp only
    rw [ih, ih]

/- Whatever follows the file, the loader does the same. -/
theorem SameFile.load_eq (hSame : SameFile image other) (state : ExecState) (mem : ByteMemory) :
    loadExecElf (some other) state mem = loadExecElf (some image) state mem := by
  have hCheck : execHeaderCheck other state = execHeaderCheck image state := by
    unfold execHeaderCheck
    rw [hSame.size]
    by_cases hLarge : 64 ≤ image.size
    · rw [hSame.elfHeader_eq hLarge]
    · rw [show decide (elfHeaderBytes ≤ image.size) = false from decide_eq_false hLarge]
      simp only [Bool.and_false, Bool.false_and]
  unfold loadExecElf
  dsimp only
  rw [hCheck]
  by_cases hHeader : execHeaderCheck image state = true
  · rw [if_pos hHeader, if_pos hHeader]
    unfold execHeaderCheck at hHeader
    simp only [Bool.and_eq_true, decide_eq_true_eq] at hHeader
    obtain ⟨⟨⟨-, hLarge⟩, hSmall⟩, hElf⟩ := hHeader
    obtain ⟨hValid, -, hTable⟩ := (elf64HeaderCheck_iff _ _).mp hElf
    have hElfHeader := hSame.elfHeader_eq hLarge
    have hHeaders : programHeaders other = programHeaders image := by
      unfold programHeaders
      rw [hElfHeader]
      apply List.map_congr_left
      intro i hi
      rw [List.mem_range] at hi
      have hIndex := @SameFile.header_eq image other hSame hLarge i (by omega)
      unfold headerAtIndex at hIndex
      rw [hElfHeader] at hIndex
      unfold programHeaderAt
      rw [hValid.entrySize, u64_of_lt (by omega)]
      exact hIndex
    rw [hElfHeader, hHeaders, hSame.segments_eq]
  · rw [if_neg hHeader, if_neg hHeader]

end Outside

----------
-- The Loader

/- The loader on a file, with a state and memory around it. -/
structure LoadsExactly (image : UserImage) (state : ExecState) (mem : ByteMemory) : Prop where
  accepts : (loadExecElf (some image) state mem).1 = true ↔ IntendedExecutable image
  inside : ∀ other, SameFile image other →
      loadExecElf (some other) state mem = loadExecElf (some image) state mem
  imageBytes : (loadExecElf (some image) state mem).1 = true → IsGreatest
        { stop | ∃ phdr ∈ loadSegments image,
          0x400000 + stop = phdr.virtualAddress + phdr.memorySize }
        (loadExecElf (some image) state mem).2.1.execUserImageBytes
  pageCount : (loadExecElf (some image) state mem).1 = true →
      (loadExecElf (some image) state mem).2.1.execUserImagePageCount =
        ((loadExecElf (some image) state mem).2.1.execUserImageBytes + 4095) / 4096

theorem ExecLoaded.isGreatest {image : UserImage} {staging : Nat} {mem mem' : ByteMemory}
    {state' : ExecState} (hLoaded : ExecLoaded image staging mem state' mem') :
    IsGreatest
      { stop | ∃ phdr ∈ loadSegments image,
        0x400000 + stop = phdr.virtualAddress + phdr.memorySize }
      state'.execUserImageBytes := by
  have hEnd : ∀ phdr ∈ loadSegments image,
        0x400000 + segmentImageEnd phdr = phdr.virtualAddress + phdr.memorySize := by
    intro phdr hMember
    have hBase := (hLoaded.fits phdr hMember).base
    unfold segmentImageEnd segmentOffset
    unfold userCodeBase at hBase ⊢
    omega
  have hUpper : ∀ phdr ∈ loadSegments image, segmentImageEnd phdr ≤ state'.execUserImageBytes := by
    intro phdr hMember
    by_contra hOver
    have hBelow := (hLoaded.imageBytes state'.execUserImageBytes).mpr ⟨phdr, hMember, by omega⟩
    omega
  constructor
  · -- the last byte belongs to a segment that ends there
    have hPos := hLoaded.imageBytes_pos
    obtain ⟨phdr, hMember, hLast⟩ :=
      (hLoaded.imageBytes (state'.execUserImageBytes - 1)).mp (by omega)
    have hLe := hUpper phdr hMember
    have hPhdr := hEnd phdr hMember
    exact ⟨phdr, hMember, by omega⟩
  · rintro stop ⟨phdr, hMember, hStop⟩
    have hLe := hUpper phdr hMember
    have hPhdr := hEnd phdr hMember
    omega

/-
  A live dispatcher loads exactly the intended programs, reads nothing but the file, and reports
  its size in bytes and in pages.
-/
theorem loadExecElf_exact {state : ExecState} {staging : Nat} (hLive : state.Live staging)
    (image : UserImage) (mem : ByteMemory) :
    LoadsExactly image state mem := by
  refine ⟨?_, ?_, ?_, ?_⟩
  · rw [loadExecElf_accepts_iff hLive, executableImage_iff]
  · intro other hSame
    exact hSame.load_eq state mem
  · intro hAccepted
    exact (loadExecElf_loaded hLive (Prod.ext hAccepted rfl)).isGreatest
  · intro hAccepted
    exact (loadExecElf_loaded hLive (Prod.ext hAccepted rfl)).pageCount

/- A program of two segments on two pages. -/
theorem loadExecElf_exact_twoSegmentImage :
    LoadsExactly twoSegmentImage stagedAtOneMiB (fun _ => 0) ∧
      IntendedExecutable twoSegmentImage := by
  have hExact := loadExecElf_exact stagedAtOneMiB_live twoSegmentImage (fun _ => 0)
  exact ⟨hExact, hExact.accepts.mp (twoSegmentImage_staged fun _ => 0)⟩

end LiamOS.X64
