import LiamOS.Lib.Checks
import LiamOS.I386.Files
import LiamOS.I386.Process.Ring3

/-
  The ELF loader of the i386 kernel, `core/kernel/loader/elf32.c`.

  A file is accepted by some twenty checks on fields that it holds itself, one of them on a sum
  that may wrap. Here the files that are meant are described with plain sums: the loader accepts
  exactly these, reads nothing but the file, and changes the code page only if it accepts.

  The counters and texts kept for the shell are left out.

  Main declarations: `elf32LoadFromNode_exact`.
-/

namespace LiamOS.I386

open Word Checked

variable {i limit : Nat}
variable {s : PageState} {r : Ring3State}

----------
-- Files

/- A node with the path it is known by. -/
structure FileNode extends VfsNode where
  path : Option (List UInt8)

/- The bytes behind the data pointer of a node. -/
def FileNode.bytes (node : FileNode) : ByteMemory := fun i => (node.data.getD []).getD i 0

structure Elf32Header where
  ident : List UInt8
  type : Nat
  machine : Nat
  version : Nat
  entry : Nat
  programHeaderOffset : Nat
  headerSize : Nat
  programHeaderEntrySize : Nat
  programHeaderCount : Nat
deriving DecidableEq, Repr

structure Elf32ProgramHeader where
  type : Nat
  offset : Nat
  virtualAddress : Nat
  fileSize : Nat
  memorySize : Nat
deriving DecidableEq, Repr

/- `sizeof(elf32_header_t)`. -/
def elf32HeaderBytes : Nat := 52

/- `sizeof(elf32_program_header_t)`. -/
def elf32ProgramHeaderBytes : Nat := 32

def elf32ProgramTypeLoad : Nat := 1

def elf32HeaderAt (bytes : ByteMemory) : Elf32Header where
  ident := (List.range' 0 7).map bytes
  type := readLE bytes 16 2
  machine := readLE bytes 18 2
  version := readLE bytes 20 4
  entry := readLE bytes 24 4
  programHeaderOffset := readLE bytes 28 4
  headerSize := readLE bytes 40 2
  programHeaderEntrySize := readLE bytes 42 2
  programHeaderCount := readLE bytes 44 2

def elf32ProgramHeaderAt (bytes : ByteMemory) (a : Nat) : Elf32ProgramHeader where
  type := readLE bytes a 4
  offset := readLE bytes (a + 4) 4
  virtualAddress := readLE bytes (a + 8) 4
  fileSize := readLE bytes (a + 16) 4
  memorySize := readLE bytes (a + 20) 4

inductive UserImageKind
| embedded
| flatBinary
| elf
deriving DecidableEq, Repr

/- `user_image_t`. -/
structure UserImage where
  path : Option (List UInt8)
  name : List UInt8
  kind : UserImageKind
  entry : Nat
  userStackTop : Nat
  imageSize : Nat
  flags : Nat
deriving DecidableEq, Repr

----------
-- Validation

/- The fields of the header, one by one. -/
def elf32ReadHeader (bytes : ByteMemory) : Checked KernelStatus Elf32Header := do
  let ident ← loadBytes bytes 0 7
  let type ← loadNumber bytes 16 2
  let machine ← loadNumber bytes 18 2
  let version ← loadNumber bytes 20 4
  let entry ← loadNumber bytes 24 4
  let programHeaderOffset ← loadNumber bytes 28 4
  let headerSize ← loadNumber bytes 40 2
  let programHeaderEntrySize ← loadNumber bytes 42 2
  let programHeaderCount ← loadNumber bytes 44 2
  pure
    { ident, type, machine, version, entry,
      programHeaderOffset, headerSize,
      programHeaderEntrySize, programHeaderCount }

/- The table of program headers lies in the file. -/
def elf32CheckTable (header : Elf32Header) (size : Nat) : Checked KernelStatus Unit :=
  if 0 < header.programHeaderCount then do
    check (header.programHeaderEntrySize = elf32ProgramHeaderBytes) .invalidState
    check (header.programHeaderOffset < size) .invalidState
    check
      (u32 (header.programHeaderCount * header.programHeaderEntrySize) ≤
        size - header.programHeaderOffset)
      .invalidState
  else
    pure ()

def elf32CheckHeader (header : Elf32Header) (size : Nat) : Checked KernelStatus Unit := do
  check (header.ident.take 4 = [0x7F, 0x45, 0x4C, 0x46]) .invalidState
  check (header.ident.getD 4 0 = 1) .unsupported
  check (header.ident.getD 5 0 = 1) .unsupported
  check (header.ident.getD 6 0 = 1) .unsupported
  check (header.type = 2) .unsupported
  check (header.machine = 3) .unsupported
  check (header.version = 1) .unsupported
  check (header.headerSize = elf32HeaderBytes) .invalidState
  elf32CheckTable header size

/-
  `elf32_validate_from_node`. A null node is `none`; `outHeader` says whether there is a place for
  the header.
-/
def elf32ValidateFromNode : Option FileNode → Bool → Checked KernelStatus Elf32Header
| some node, true => do
    check (node.type = .file) .invalidArgument
    check (node.data.isSome = true ∧ elf32HeaderBytes ≤ node.size) .invalidState
    let header ← elf32ReadHeader node.bytes
    elf32CheckHeader header node.size
    pure header
| _, _ => fail .invalidArgument

----------
-- Loading

def elf32ReadProgramHeader (bytes : ByteMemory)
    (a : Nat) : Checked KernelStatus Elf32ProgramHeader := do
  let type ← loadNumber bytes a 4
  let offset ← loadNumber bytes (a + 4) 4
  let virtualAddress ← loadNumber bytes (a + 8) 4
  let fileSize ← loadNumber bytes (a + 16) 4
  let memorySize ← loadNumber bytes (a + 20) 4
  pure { type, offset, virtualAddress, fileSize, memorySize }

/-
  The loop over the program headers from the `i`-th on, for so many turns: at most one of them may
  be loaded.
-/
def elf32SelectSegment (bytes : ByteMemory) (header : Elf32Header) :
    Nat → Nat → Option Elf32ProgramHeader → Checked KernelStatus (Option Elf32ProgramHeader)
| 0, _, selected => pure selected
| turns + 1, i, selected => do
    let programHeader ←
      elf32ReadProgramHeader bytes (header.programHeaderOffset + i * header.programHeaderEntrySize)
    if programHeader.type ≠ elf32ProgramTypeLoad then
      elf32SelectSegment bytes header turns (i + 1) selected
    else
      match selected with
      | some _ => fail .unsupported
      | none => elf32SelectSegment bytes header turns (i + 1) (some programHeader)

def elf32CheckSegment (entry : Nat) (segment : Elf32ProgramHeader)
    (size : Nat) : Checked KernelStatus Unit := do
  check (segment.virtualAddress = ring3UserCodeVirtual) .unsupported
  check (segment.virtualAddress ≤ entry) .invalidState
  check (entry < u32 (segment.virtualAddress + segment.memorySize)) .invalidState
  check (segment.fileSize ≠ 0) .invalidState
  check (segment.fileSize ≤ segment.memorySize) .invalidState
  check (segment.memorySize ≤ ring3UserPageSize) .unsupported
  check (segment.offset < size) .invalidState
  check (segment.fileSize ≤ size - segment.offset) .invalidState

/-
  `elf32_load_from_node` in front of its call of `ring3_load_user_image`: the entry, the segment
  and the bytes that are copied from.
-/
def elf32Segment (initialized : Bool) :
    Option FileNode → Bool → Checked KernelStatus (Nat × Elf32ProgramHeader × List UInt8)
| some node, true => do
    check (initialized = true) .notInitialized
    let header ← elf32ValidateFromNode (some node) true
    check (header.programHeaderCount ≠ 0) .invalidState
    let selected ← elf32SelectSegment node.bytes header header.programHeaderCount 0 none
    match selected with
    | none => fail .invalidState
    | some segment => do
        elf32CheckSegment header.entry segment node.size
        let image ← loadBytes node.bytes segment.offset segment.fileSize
        pure (header.entry, segment, image)
| _, _ => fail .invalidArgument

/- `elf32_basename`: what follows the last inner slash. -/
def elf32Basename : Option (List UInt8) → List UInt8
| none => []
| some path =>
    (List.range path.length).foldl
      (fun last i =>
        if path.getD i 0 = slash ∧ i + 1 < path.length then path.drop (i + 1) else last)
      path

def elf32LoadFromNode (initialized : Bool) (prepared : PreparedPages) (node : Option FileNode)
    (outImage : Bool)
    (r : Ring3State) : Except KernelStatus UserImage × Ring3State :=
  match (elf32Segment initialized node outImage).result with
  | .error status => (.error status, r)
  | .ok (entry, segment, image) =>
    match ring3LoadUserImage prepared (some fun i => image.getD i 0) segment.fileSize true r with
    | (.ok, r) =>
      (.ok
        { path := node.bind FileNode.path
          name := elf32Basename (node.bind FileNode.path)
          kind := .elf
          entry := entry
          userStackTop := r.loadedImage.userStackTop
          imageSize := segment.memorySize
          flags := 0 },
        r)
    | (status, r) => (.error status, r)

----------
-- Intended Programs

/- The header of a 32-bit little-endian i386 executable. -/
structure ValidElf32Header (header : Elf32Header) : Prop where
  magic : header.ident.take 4 = [0x7F, 0x45, 0x4C, 0x46]
  bits : header.ident.getD 4 0 = 1
  littleEndian : header.ident.getD 5 0 = 1
  identVersion : header.ident.getD 6 0 = 1
  type : header.type = 2
  machine : header.machine = 3
  version : header.version = 1
  headerSize : header.headerSize = 52

/- A segment on the code page, its bytes in the file. -/
structure Elf32SegmentInside (entry size : Nat) (segment : Elf32ProgramHeader) : Prop where
  base : segment.virtualAddress = 0x10000000
  some : 0 < segment.fileSize
  file : segment.fileSize ≤ segment.memorySize
  page : segment.memorySize ≤ 4096
  inside : segment.offset + segment.fileSize ≤ size
  entryLow : segment.virtualAddress ≤ entry
  entryHigh : entry < segment.virtualAddress + segment.memorySize

/- The program header at an index of the table. -/
def elf32HeaderAtIndex (node : FileNode) (i : Nat) : Elf32ProgramHeader :=
  elf32ProgramHeaderAt node.bytes ((elf32HeaderAt node.bytes).programHeaderOffset + i * 32)

/- The one header of the table that is loaded. -/
structure Elf32OnlySegment (node : FileNode) (i : Nat) : Prop where
  inTable : i < (elf32HeaderAt node.bytes).programHeaderCount
  load : (elf32HeaderAtIndex node i).type = elf32ProgramTypeLoad
  only : ∀ j < (elf32HeaderAt node.bytes).programHeaderCount,
      (elf32HeaderAtIndex node j).type = elf32ProgramTypeLoad → j = i

/- A file with its table of program headers. -/
structure Elf32Table (node : FileNode) : Prop where
  type : node.type = .file
  data : node.data.isSome = true
  large : 52 ≤ node.size
  header : ValidElf32Header (elf32HeaderAt node.bytes)
  entrySize : (elf32HeaderAt node.bytes).programHeaderEntrySize = 32
  table : (elf32HeaderAt node.bytes).programHeaderOffset +
        (elf32HeaderAt node.bytes).programHeaderCount * 32 ≤
      node.size

/- A file whose only segment can be loaded. -/
structure IntendedElf32 (node : FileNode) : Prop extends Elf32Table node where
  segment : ∃ i, Elf32OnlySegment node i ∧
      Elf32SegmentInside (elf32HeaderAt node.bytes).entry node.size (elf32HeaderAtIndex node i)

----------
-- Validation

theorem elf32ReadHeader_result (bytes : ByteMemory) :
    (elf32ReadHeader bytes).result = .ok (elf32HeaderAt bytes) := rfl

theorem elf32ReadHeader_readsBelow (bytes : ByteMemory) (hLarge : 52 ≤ limit) :
    ReadsBelow limit (elf32ReadHeader bytes) := by
  unfold elf32ReadHeader
  refine (readsBelow_loadBytes bytes (by omega)).bind fun _ _ => ?_
  iterate 8
    refine (readsBelow_loadNumber bytes (by omega)).bind fun _ _ => ?_
  exact readsBelow_pure _

/- With a program header, the whole table lies in the file. -/
theorem elf32CheckTable_iff {header : Elf32Header} (hCount : header.programHeaderCount ≠ 0)
    (hWord : header.programHeaderCount < 65536) (size : Nat) :
    (elf32CheckTable header size).result = .ok () ↔ header.programHeaderEntrySize = 32 ∧
        header.programHeaderOffset + header.programHeaderCount * 32 ≤ size := by
  unfold elf32CheckTable
  rw [if_pos (Nat.pos_of_ne_zero hCount), result_check_bind_iff, result_check_bind_iff,
    result_check_iff]
  unfold elf32ProgramHeaderBytes
  constructor
  · rintro ⟨hSize, hOffset, hTable⟩
    rw [hSize, u32_of_lt (by omega)] at hTable
    exact ⟨hSize, by omega⟩
  · rintro ⟨hSize, hTable⟩
    rw [hSize, u32_of_lt (by omega)]
    exact ⟨rfl, by omega, by omega⟩

theorem elf32CheckHeader_iff (header : Elf32Header) (size : Nat) :
    (elf32CheckHeader header size).result = .ok () ↔
      ValidElf32Header header ∧ (elf32CheckTable header size).result = .ok () := by
  unfold elf32CheckHeader
  simp only [result_check_bind_iff]
  constructor
  · rintro ⟨hMagic, hBits, hLittle, hIdent, hType, hMachine, hVersion, hSize, hTable⟩
    exact ⟨⟨hMagic, hBits, hLittle, hIdent, hType, hMachine, hVersion, hSize⟩, hTable⟩
  · rintro ⟨hValid, hTable⟩
    exact ⟨hValid.magic, hValid.bits, hValid.littleEndian,
      hValid.identVersion, hValid.type, hValid.machine, hValid.version, hValid.headerSize, hTable⟩

theorem elf32ValidateFromNode_iff (node : FileNode) (header : Elf32Header) :
    (elf32ValidateFromNode (some node) true).result = .ok header ↔
      (node.type = .file ∧ node.data.isSome = true ∧ 52 ≤ node.size ∧
        (elf32CheckHeader (elf32HeaderAt node.bytes) node.size).result = .ok ()) ∧
        header = elf32HeaderAt node.bytes := by
  unfold elf32ValidateFromNode
  rw [result_check_bind_iff, result_check_bind_iff,
    result_bind_of_ok (elf32ReadHeader_result node.bytes), result_bind_iff]
  simp only [result_pure_iff, elf32HeaderBytes]
  constructor
  · rintro ⟨hType, ⟨hData, hLarge⟩, u, hCheck, hHeader⟩
    exact ⟨⟨hType, hData, hLarge, hCheck⟩, hHeader.symm⟩
  · rintro ⟨⟨hType, hData, hLarge, hCheck⟩, hHeader⟩
    exact ⟨hType, ⟨hData, hLarge⟩, (), hCheck, hHeader.symm⟩

theorem elf32CheckTable_readsBelow (header : Elf32Header) (size limit : Nat) :
    ReadsBelow limit (elf32CheckTable header size) := by
  unfold elf32CheckTable
  split
  · refine readsBelow_check_bind fun _ => ?_
    refine readsBelow_check_bind fun _ => ?_
    exact readsBelow_check _ _
  · exact readsBelow_pure _

theorem elf32CheckHeader_readsBelow (header : Elf32Header) (size limit : Nat) :
    ReadsBelow limit (elf32CheckHeader header size) := by
  unfold elf32CheckHeader
  iterate 8 refine readsBelow_check_bind fun _ => ?_
  exact elf32CheckTable_readsBelow header size limit

theorem elf32ValidateFromNode_readsBelow (node : FileNode) :
    ReadsBelow node.size (elf32ValidateFromNode (some node) true) := by
  unfold elf32ValidateFromNode
  refine readsBelow_check_bind fun _ => ?_
  refine readsBelow_check_bind fun hLarge => ?_
  refine (elf32ReadHeader_readsBelow _ hLarge.2).bind fun header _ => ?_
  refine (elf32CheckHeader_readsBelow _ _ _).bind fun _ _ => ?_
  exact readsBelow_pure _

----------
-- The Segment

theorem elf32ReadProgramHeader_result (bytes : ByteMemory) (a : Nat) :
    (elf32ReadProgramHeader bytes a).result = .ok (elf32ProgramHeaderAt bytes a) := rfl

theorem elf32ReadProgramHeader_readsBelow (bytes : ByteMemory) {a : Nat}
    (hInside : a + 32 ≤ limit) :
    ReadsBelow limit (elf32ReadProgramHeader bytes a) := by
  unfold elf32ReadProgramHeader
  iterate 5
    refine (readsBelow_loadNumber bytes (by omega)).bind fun _ _ => ?_
  exact readsBelow_pure _

section Select

variable {bytes : ByteMemory}
variable {header : Elf32Header}

/- The header the loop reads in a turn. -/
def Elf32Header.entryAt (header : Elf32Header) (bytes : ByteMemory)
    (i : Nat) : Elf32ProgramHeader :=
  elf32ProgramHeaderAt bytes (header.programHeaderOffset + i * header.programHeaderEntrySize)

theorem elf32SelectSegment_skip (hType : (header.entryAt bytes i).type ≠ elf32ProgramTypeLoad)
    (turns : Nat) (selected : Option Elf32ProgramHeader) :
    (elf32SelectSegment bytes header (turns + 1) i selected).result =
      (elf32SelectSegment bytes header turns (i + 1) selected).result := by
  unfold Elf32Header.entryAt at hType
  rw [elf32SelectSegment, result_bind_of_ok (elf32ReadProgramHeader_result _ _), if_pos hType]

theorem elf32SelectSegment_take (hType : (header.entryAt bytes i).type = elf32ProgramTypeLoad)
    (turns : Nat) :
    (elf32SelectSegment bytes header (turns + 1) i none).result =
      (elf32SelectSegment bytes header turns (i + 1) (some (header.entryAt bytes i))).result := by
  unfold Elf32Header.entryAt at hType
  rw [elf32SelectSegment, result_bind_of_ok (elf32ReadProgramHeader_result _ _),
    if_neg (not_not.mpr hType)]
  rfl

theorem elf32SelectSegment_second (hType : (header.entryAt bytes i).type = elf32ProgramTypeLoad)
    (turns : Nat) (segment : Elf32ProgramHeader) :
    (elf32SelectSegment bytes header (turns + 1) i (some segment)).result =
      .error .unsupported := by
  unfold Elf32Header.entryAt at hType
  rw [elf32SelectSegment, result_bind_of_ok (elf32ReadProgramHeader_result _ _),
    if_neg (not_not.mpr hType)]
  rfl

/- Behind a segment there may be no other. -/
theorem elf32SelectSegment_selected_iff (turns i : Nat) (selected segment : Elf32ProgramHeader) :
    (elf32SelectSegment bytes header turns i (some selected)).result = .ok (some segment) ↔
      (∀ j, i ≤ j → j < i + turns → (header.entryAt bytes j).type ≠ elf32ProgramTypeLoad) ∧
        segment = selected := by
  induction turns generalizing i with
  | zero =>
    rw [elf32SelectSegment, result_pure_iff, Option.some.injEq]
    constructor
    · intro hSame
      exact ⟨fun j hLow hHigh => by omega, hSame.symm⟩
    · exact fun h => h.2.symm
  | succ turns ih =>
    by_cases hType : (header.entryAt bytes i).type = elf32ProgramTypeLoad
    · rw [elf32SelectSegment_second hType]
      refine iff_of_false nofun fun h => ?_
      exact h.1 i (le_refl i) (by omega) hType
    · rw [elf32SelectSegment_skip hType, ih]
      refine and_congr_left fun _ => ⟨?_, ?_⟩
      · intro hRest j hLow hHigh
        rcases Nat.eq_or_lt_of_le hLow with rfl | hLater
        · exact hType
        · exact hRest j hLater (by omega)
      · intro hAll j hLow hHigh
        exact hAll j (by omega) (by omega)

/- The loop finds the only segment of the table. -/
theorem elf32SelectSegment_iff (turns i : Nat) (segment : Elf32ProgramHeader) :
    (elf32SelectSegment bytes header turns i none).result = .ok (some segment) ↔
      ∃ j, (i ≤ j ∧ j < i + turns) ∧ segment = header.entryAt bytes j ∧
        (header.entryAt bytes j).type = elf32ProgramTypeLoad ∧
        ∀ k, i ≤ k → k < i + turns →
          (header.entryAt bytes k).type = elf32ProgramTypeLoad → k = j := by
  induction turns generalizing i with
  | zero =>
    refine iff_of_false nofun ?_
    rintro ⟨j, hRange, -⟩
    omega
  | succ turns ih =>
    by_cases hType : (header.entryAt bytes i).type = elf32ProgramTypeLoad
    · rw [elf32SelectSegment_take hType, elf32SelectSegment_selected_iff]
      constructor
      · rintro ⟨hNone, hSegment⟩
        refine ⟨i, by omega, hSegment, hType, ?_⟩
        intro k hLow hHigh hLoad
        by_contra hOther
        exact hNone k (by omega) (by omega) hLoad
      · rintro ⟨j, hRange, hSegment, hLoad, hOnly⟩
        have hFirst := hOnly i (le_refl i) (by omega) hType
        refine ⟨?_, ?_⟩
        · intro k hLow hHigh hAgain
          have hSame := hOnly k (by omega) (by omega) hAgain
          omega
        · rw [hFirst]
          exact hSegment
    · rw [elf32SelectSegment_skip hType, ih]
      refine exists_congr fun j => ?_
      constructor
      · rintro ⟨hRange, hSegment, hLoad, hOnly⟩
        refine ⟨by omega, hSegment, hLoad, ?_⟩
        intro k hLow hHigh hAgain
        rcases Nat.eq_or_lt_of_le hLow with rfl | hLater
        · exact absurd hAgain hType
        · exact hOnly k hLater (by omega) hAgain
      · rintro ⟨hRange, hSegment, hLoad, hOnly⟩
        have hLater : i ≠ j := by
          rintro rfl
          exact hType hLoad
        refine ⟨by omega, hSegment, hLoad, ?_⟩
        intro k hLow hHigh hAgain
        exact hOnly k (by omega) (by omega) hAgain

theorem elf32SelectSegment_readsBelow (hSize : header.programHeaderEntrySize = 32) (turns i : Nat)
    (hInside : header.programHeaderOffset + (i + turns) * 32 ≤ limit)
    (selected : Option Elf32ProgramHeader) :
    ReadsBelow limit (elf32SelectSegment bytes header turns i selected) := by
  induction turns generalizing i selected with
  | zero => exact readsBelow_pure _
  | succ turns ih =>
    unfold elf32SelectSegment
    rw [hSize]
    have hRest := ih (i + 1) (by omega)
    refine (elf32ReadProgramHeader_readsBelow bytes (by omega)).bind fun programHeader _ => ?_
    split
    · exact hRest selected
    · cases selected with
      | none => exact hRest (some programHeader)
      | some _ => exact readsBelow_fail _

end Select

theorem elf32CheckSegment_iff (entry : Nat) (segment : Elf32ProgramHeader) (size : Nat) :
    (elf32CheckSegment entry segment size).result = .ok () ↔
      Elf32SegmentInside entry size segment := by
  unfold elf32CheckSegment
  simp only [result_check_bind_iff, result_check_iff]
  unfold ring3UserCodeVirtual ring3UserPageSize
  constructor
  · rintro ⟨hBase, hLow, hHigh, hSome, hFile, hPage, hOffset, hInside⟩
    rw [u32_of_lt (by omega)] at hHigh
    exact ⟨hBase, by omega, hFile, hPage, by omega, hLow, hHigh⟩
  · rintro ⟨hBase, hSome, hFile, hPage, hInside, hLow, hHigh⟩
    rw [u32_of_lt (by omega)]
    exact ⟨hBase, hLow, hHigh, by omega, hFile, hPage, by omega, by omega⟩

theorem elf32CheckSegment_readsBelow (entry : Nat) (segment : Elf32ProgramHeader)
    (size limit : Nat) :
    ReadsBelow limit (elf32CheckSegment entry segment size) := by
  unfold elf32CheckSegment
  iterate 7 refine readsBelow_check_bind fun _ => ?_
  exact readsBelow_check _ _

theorem elf32Validate_table_iff (node : FileNode) (header : Elf32Header) :
    (elf32ValidateFromNode (some node) true).result = .ok header ∧ header.programHeaderCount ≠ 0 ↔
      header = elf32HeaderAt node.bytes ∧ Elf32Table node ∧ header.programHeaderCount ≠ 0 := by
  have hWord : (elf32HeaderAt node.bytes).programHeaderCount < 65536 := readLE_lt node.bytes 44 2
  rw [elf32ValidateFromNode_iff, elf32CheckHeader_iff]
  constructor
  · rintro ⟨⟨⟨hType, hData, hLarge, hValid, hTable⟩, rfl⟩, hCount⟩
    rw [elf32CheckTable_iff hCount hWord] at hTable
    exact ⟨rfl, ⟨hType, hData, hLarge, hValid, hTable.1, hTable.2⟩, hCount⟩
  · rintro ⟨rfl, hTable, hCount⟩
    rw [elf32CheckTable_iff hCount hWord]
    exact ⟨⟨⟨hTable.type, hTable.data, hTable.large,
      hTable.header, hTable.entrySize, hTable.table⟩, rfl⟩, hCount⟩

/- The loop over the whole table. -/
theorem Elf32Table.select_iff {node : FileNode} (hTable : Elf32Table node)
    (segment : Elf32ProgramHeader) :
    (elf32SelectSegment node.bytes (elf32HeaderAt node.bytes)
        (elf32HeaderAt node.bytes).programHeaderCount 0 none).result = .ok (some segment) ↔
      ∃ i, Elf32OnlySegment node i ∧ segment = elf32HeaderAtIndex node i := by
  have hEntry :
      ∀ i, (elf32HeaderAt node.bytes).entryAt node.bytes i = elf32HeaderAtIndex node i := by
    intro i
    unfold Elf32Header.entryAt elf32HeaderAtIndex
    rw [hTable.entrySize]
  rw [elf32SelectSegment_iff]
  refine exists_congr fun i => ?_
  rw [Nat.zero_add, hEntry]
  constructor
  · rintro ⟨⟨-, hInTable⟩, hSegment, hLoad, hOnly⟩
    refine ⟨⟨hInTable, hLoad, ?_⟩, hSegment⟩
    intro j hj hAgain
    apply hOnly j (Nat.zero_le j) hj
    rw [hEntry]
    exact hAgain
  · rintro ⟨hOnly, hSegment⟩
    refine ⟨⟨Nat.zero_le i, hOnly.inTable⟩, hSegment, hOnly.load, ?_⟩
    intro j _ hj hAgain
    rw [hEntry] at hAgain
    exact hOnly.only j hj hAgain

/-
  The loader goes on to the copy exactly with a program that is meant to be loaded, and with the
  bytes of its segment.
-/
theorem elf32Segment_iff (node : FileNode) (entry : Nat) (segment : Elf32ProgramHeader)
    (image : List UInt8) :
    (elf32Segment true (some node) true).result = .ok (entry, segment, image) ↔
      IntendedElf32 node ∧ (∃ i, Elf32OnlySegment node i ∧ segment = elf32HeaderAtIndex node i) ∧
        entry = (elf32HeaderAt node.bytes).entry ∧
        image = (List.range' segment.offset segment.fileSize).map node.bytes := by
  unfold elf32Segment
  rw [result_check_bind_iff, result_bind_iff]
  constructor
  · rintro ⟨-, header, hHeader, hRest⟩
    rw [result_check_bind_iff, result_bind_iff] at hRest
    obtain ⟨hCount, selected, hSelect, hRest⟩ := hRest
    obtain ⟨rfl, hTable, -⟩ := (elf32Validate_table_iff node header).mp ⟨hHeader, hCount⟩
    cases selected with
    | none => exact absurd hRest nofun
    | some found =>
      dsimp only at hRest
      rw [result_bind_iff] at hRest
      obtain ⟨u, hCheck, hRest⟩ := hRest
      rw [elf32CheckSegment_iff] at hCheck
      rw [hTable.select_iff] at hSelect
      obtain ⟨i, hOnly, rfl⟩ := hSelect
      have hSame := Except.ok.inj hRest
      rw [Prod.mk.injEq, Prod.mk.injEq] at hSame
      obtain ⟨hEntry, rfl, hImage⟩ := hSame
      exact ⟨⟨hTable, i, hOnly, hCheck⟩, ⟨i, hOnly, rfl⟩, hEntry.symm, hImage.symm⟩
  · rintro ⟨hIntended, ⟨i, hOnly, rfl⟩, rfl, rfl⟩
    have hTable := hIntended.toElf32Table
    have hCount : (elf32HeaderAt node.bytes).programHeaderCount ≠ 0 := by
      have hInTable := hOnly.inTable
      omega
    obtain ⟨hHeader, -⟩ := (elf32Validate_table_iff node _).mpr ⟨rfl, hTable, hCount⟩
    refine ⟨rfl, _, hHeader, ?_⟩
    rw [result_check_bind_iff, result_bind_iff]
    refine ⟨hCount, some (elf32HeaderAtIndex node i), (hTable.select_iff _).mpr ⟨i, hOnly, rfl⟩, ?_⟩
    obtain ⟨j, hAlso, hInside⟩ := hIntended.segment
    rw [← hAlso.only i hOnly.inTable hOnly.load] at hInside
    dsimp only
    rw [result_bind_iff]
    exact ⟨(), (elf32CheckSegment_iff _ _ _).mpr hInside, rfl⟩

/- No byte outside the file is read. -/
theorem elf32Segment_readsBelow (initialized : Bool) (node : FileNode) :
    ReadsBelow node.size (elf32Segment initialized (some node) true) := by
  unfold elf32Segment
  refine readsBelow_check_bind fun _ => ?_
  refine (elf32ValidateFromNode_readsBelow node).bind fun header hHeader => ?_
  refine readsBelow_check_bind fun hCount => ?_
  obtain ⟨rfl, hTable, -⟩ := (elf32Validate_table_iff node header).mp ⟨hHeader, hCount⟩
  have hInside := hTable.table
  refine (elf32SelectSegment_readsBelow hTable.entrySize _ 0
    (by omega) none).bind fun selected _ => ?_
  cases selected with
  | none => exact readsBelow_fail _
  | some segment =>
    refine (elf32CheckSegment_readsBelow _ _ _ _).bind fun _ hCheck => ?_
    have hSegment := (elf32CheckSegment_iff _ _ _).mp hCheck
    exact (readsBelow_loadBytes _ hSegment.inside).bind fun _ _ => readsBelow_pure _

----------
-- The Loader

/- The user pages are there and no call has failed, or they are prepared by this call. -/
def Ring3Available (prepared : PreparedPages) (r : Ring3State) : Prop :=
  (PagesPrepared r ∧ r.info.lastStatus = .ok) ∨
    (r.info.initialized = false ∧ ∃ pages, prepared = .ok pages)

/- The user pages once they were asked for. -/
theorem ring3Initialize_available (hAvailable : Ring3Available (ring3PreparePages s).1 r) :
    (ring3Initialize (ring3PreparePages s).1 r).1 = .ok ∧
      PagesPrepared (ring3Initialize (ring3PreparePages s).1 r).2 := by
  rcases hAvailable with ⟨hPages, hStatus⟩ | ⟨hFresh, ⟨codePage, stackPage⟩, hPages⟩
  · rw [ring3Initialize_prepared hPages]
    exact ⟨hStatus, hPages⟩
  · obtain ⟨hCode, hStack⟩ := ring3PreparePages_nonzero hPages
    have hFirst : ¬ r.info.initialized = true := by
      rw [hFresh]
      nofun
    unfold ring3Initialize
    rw [if_neg hFirst, hPages]
    exact ⟨rfl, rfl, rfl, hCode, hStack⟩

theorem ring3LoadUserImage_available (hAvailable : Ring3Available (ring3PreparePages s).1 r)
    (image : Nat → UInt8) {imageSize : Nat} (hLow : 0 < imageSize) (hHigh : imageSize ≤ 4096) :
    (ring3LoadUserImage (ring3PreparePages s).1 (some image) imageSize true r).1 = .ok ∧
      (ring3LoadUserImage (ring3PreparePages s).1 (some image)
        imageSize true r).2.codePage = imagePage image imageSize := by
  obtain ⟨hStatus, hPages⟩ := ring3Initialize_available hAvailable
  have hReady :
      ¬ ((ring3Initialize (ring3PreparePages s).1 r).2.info.ready = false ∨
          (ring3Initialize (ring3PreparePages s).1 r).2.info.codePhysical = 0 ∨
          (ring3Initialize (ring3PreparePages s).1 r).2.info.stackPhysical = 0) := by
    rw [hPages.ready]
    rintro (hReady | hCode | hStack)
    · exact absurd hReady nofun
    · exact hPages.code hCode
    · exact hPages.stack hStack
  have hSize : ¬ (imageSize = 0 ∨ ring3UserPageSize < imageSize) := by
    unfold ring3UserPageSize
    omega
  unfold ring3LoadUserImage
  dsimp only
  rw [if_neg (not_not.mpr hStatus), if_neg hReady, if_neg hSize, ring3CopyImage_zeroPage]
  exact ⟨rfl, rfl⟩

theorem ring3LoadUserImage_unavailable {prepared : PreparedPages}
    (hNot : ¬ Ring3Available prepared r) (image : Nat → UInt8) (imageSize : Nat) :
    (ring3LoadUserImage prepared (some image) imageSize true r).1 ≠ .ok ∧
      (ring3LoadUserImage prepared (some image) imageSize true r).2.codePage = r.codePage := by
  have hAsked : (ring3Initialize prepared r).2.codePage = r.codePage ∧
        ((ring3Initialize prepared r).1 = .ok → (ring3Initialize prepared r).2.info.ready = false ∨
            (ring3Initialize prepared r).2.info.codePhysical = 0 ∨
            (ring3Initialize prepared r).2.info.stackPhysical = 0) := by
    unfold ring3Initialize
    by_cases hFirst : r.info.initialized = true
    · rw [if_pos hFirst]
      refine ⟨rfl, fun hStatus => ?_⟩
      by_contra hReady
      rw [not_or, not_or, Bool.not_eq_false] at hReady
      exact hNot (Or.inl ⟨⟨hFirst, hReady.1, hReady.2.1, hReady.2.2⟩, hStatus⟩)
    · rw [if_neg hFirst]
      rw [Bool.not_eq_true] at hFirst
      cases prepared with
      | error status => exact ⟨rfl, fun _ => Or.inl rfl⟩
      | ok pages => exact absurd (Or.inr ⟨hFirst, pages, rfl⟩) hNot
  unfold ring3LoadUserImage
  dsimp only
  generalize ring3Initialize prepared r = asked at hAsked ⊢
  obtain ⟨status, r'⟩ := asked
  obtain ⟨hSame, hPages⟩ := hAsked
  by_cases hStatus : status = .ok
  · rw [if_neg (not_not.mpr hStatus), if_pos (hPages hStatus)]
    exact ⟨nofun, hSame⟩
  · rw [if_pos hStatus]
    exact ⟨hStatus, hSame⟩

/- What the loader does with a file. -/
structure Elf32LoadsExactly (prepared : PreparedPages) (node : FileNode)
    (r : Ring3State) : Prop where
  accepts : (∃ image, (elf32LoadFromNode true prepared (some node) true r).1 = .ok image) ↔
      Ring3Available prepared r ∧ IntendedElf32 node
  inside : ReadsBelow node.size (elf32Segment true (some node) true)
  loaded : ∀ image, (elf32LoadFromNode true prepared (some node) true r).1 = .ok image →
        ∃ i, Elf32OnlySegment node i ∧ image.entry = (elf32HeaderAt node.bytes).entry ∧
          image.imageSize = (elf32HeaderAtIndex node i).memorySize ∧
          (elf32LoadFromNode true prepared (some node) true r).2.codePage = imagePage
              (fun k =>
                node.bytes ((elf32HeaderAtIndex node i).offset + k))
              (elf32HeaderAtIndex node i).fileSize
  kept : ∀ status, (elf32LoadFromNode true prepared (some node) true r).1 = .error status →
        (elf32LoadFromNode true prepared (some node) true r).2.codePage = r.codePage

section Load

variable {prepared : PreparedPages}
variable {node : FileNode}
variable {r : Ring3State}

theorem elf32LoadFromNode_refused {status : KernelStatus}
    (hSegment : (elf32Segment true (some node) true).result = .error status) :
    elf32LoadFromNode true prepared (some node) true r = (.error status, r) := by
  unfold elf32LoadFromNode
  rw [hSegment]

/- The copy decides once the segment is found. -/
theorem elf32LoadFromNode_copied {entry : Nat} {segment : Elf32ProgramHeader} {image : List UInt8}
    (hSegment : (elf32Segment true (some node) true).result = .ok (entry, segment, image))
    {status : KernelStatus} {r' : Ring3State}
    (hCopy : ring3LoadUserImage prepared (some fun i => image.getD i 0) segment.fileSize true
          r = (status, r')) :
    (elf32LoadFromNode true prepared (some node) true r).2 = r' ∧
      ((∃ loaded, (elf32LoadFromNode true prepared (some node) true r).1 = .ok loaded) ↔
        status = .ok) ∧
      ∀ loaded, (elf32LoadFromNode true prepared (some node) true r).1 = .ok loaded →
          loaded.entry = entry ∧ loaded.imageSize = segment.memorySize := by
  unfold elf32LoadFromNode
  rw [hSegment]
  dsimp only
  rw [hCopy]
  cases status with
  | ok =>
    refine ⟨rfl, iff_of_true ⟨_, rfl⟩ rfl, ?_⟩
    intro loaded hLoaded
    rw [← Except.ok.inj hLoaded]
    exact ⟨rfl, rfl⟩
  | _ => exact ⟨rfl, iff_of_false nofun nofun, nofun⟩

end Load

/- The bytes of a segment, read back from the list of them. -/
theorem imagePage_map_range' (bytes : ByteMemory) (offset size : Nat) :
    imagePage (fun i => ((List.range' offset size).map bytes).getD i 0) size =
      imagePage (fun k => bytes (offset + k)) size := by
  funext o
  unfold imagePage
  by_cases hInside : o.val < size
  · rw [if_pos hInside, if_pos hInside]
    simp [List.getD, hInside]
  · rw [if_neg hInside, if_neg hInside]

/-
  The loader accepts exactly the programs that are meant while the user pages are available, reads
  nothing but the file, and leaves the segment and zeros behind it in the code page, or the code
  page as it was.
-/
theorem elf32LoadFromNode_exact (s : PageState) (node : FileNode) (r : Ring3State) :
    Elf32LoadsExactly (ring3PreparePages s).1 node r := by
  have hInside := elf32Segment_readsBelow true node
  cases hSegment : (elf32Segment true (some node) true).result with
  | error status =>
    have hLoad := @elf32LoadFromNode_refused (ring3PreparePages s).1 node r status hSegment
    have hNot : ¬ IntendedElf32 node := by
      intro hIntended
      obtain ⟨i, hOnly, -⟩ := hIntended.segment
      have hOk := (elf32Segment_iff node _ _ _).mpr ⟨hIntended, ⟨i, hOnly, rfl⟩, rfl, rfl⟩
      rw [hSegment] at hOk
      exact absurd hOk nofun
    refine ⟨?_, hInside, ?_, ?_⟩
    · rw [hLoad]
      exact iff_of_false nofun fun h => hNot h.2
    · rw [hLoad]
      nofun
    · rw [hLoad]
      exact fun _ _ => rfl
  | ok plan =>
    obtain ⟨entry, segment, image⟩ := plan
    obtain ⟨hIntended, ⟨i, hOnly, rfl⟩, rfl, rfl⟩ :=
      (elf32Segment_iff node entry segment image).mp hSegment
    obtain ⟨j, hAlso, hFits⟩ := hIntended.segment
    rw [← hAlso.only i hOnly.inTable hOnly.load] at hFits
    by_cases hAvailable : Ring3Available (ring3PreparePages s).1 r
    · have hCopy := ring3LoadUserImage_available hAvailable
          (fun k =>
            ((List.range' (elf32HeaderAtIndex node i).offset
              (elf32HeaderAtIndex node i).fileSize).map node.bytes).getD k 0)
          hFits.some (hFits.file.trans hFits.page)
      generalize hResult : ring3LoadUserImage (ring3PreparePages s).1 _ _ true r = result at hCopy
      obtain ⟨status, r'⟩ := result
      obtain ⟨hStatus, hPage⟩ := hCopy
      obtain ⟨hState, hOk, hImage⟩ := elf32LoadFromNode_copied hSegment hResult
      obtain ⟨loaded, hLoaded⟩ := hOk.mpr hStatus
      refine ⟨iff_of_true ⟨loaded, hLoaded⟩ ⟨hAvailable, hIntended⟩, hInside, ?_, ?_⟩
      · intro other hOther
        obtain ⟨hEntry, hSize⟩ := hImage other hOther
        refine ⟨i, hOnly, hEntry, hSize, ?_⟩
        rw [hState]
        exact hPage.trans (imagePage_map_range' _ _ _)
      · intro status' hError
        rw [hLoaded] at hError
        exact absurd hError nofun
    · have hCopy := ring3LoadUserImage_unavailable hAvailable
          (fun k =>
            ((List.range' (elf32HeaderAtIndex node i).offset
              (elf32HeaderAtIndex node i).fileSize).map node.bytes).getD k 0)
          (elf32HeaderAtIndex node i).fileSize
      generalize hResult : ring3LoadUserImage (ring3PreparePages s).1 _ _ true r = result at hCopy
      obtain ⟨status, r'⟩ := result
      obtain ⟨hStatus, hPage⟩ := hCopy
      obtain ⟨hState, hOk, -⟩ := elf32LoadFromNode_copied hSegment hResult
      refine ⟨iff_of_false (fun h => hStatus (hOk.mp h)) fun h => hAvailable h.1, hInside, ?_, ?_⟩
      · intro other hOther
        exact absurd (hOk.mp ⟨other, hOther⟩) hStatus
      · intro _ _
        rw [hState]
        exact hPage

/- A file with one segment of one byte. -/
def oneByteElf : FileNode where
  name := some (textBytes "halt")
  path := some (textBytes "/bin/halt")
  type := .file
  data := some
    [0x7F, 0x45, 0x4C, 0x46, 1, 1, 1, 0, 0, 0, 0, 0, 0, 0, 0, 0,
      2, 0, 3, 0, 1, 0, 0, 0, 0, 0, 0, 0x10, 52, 0, 0, 0,
      0, 0, 0, 0, 0, 0, 0, 0, 52, 0, 32, 0, 1, 0, 0, 0,
      0, 0, 0, 0,
      1, 0, 0, 0, 84, 0, 0, 0, 0, 0, 0, 0x10, 0, 0, 0, 0,
      1, 0, 0, 0, 1, 0, 0, 0, 5, 0, 0, 0, 0, 0x10, 0, 0,
      0xF4]
  size := 85
  mode := 0o755
  flags := 0
  children := []

example :
    (elf32LoadFromNode true (.ok (0x200000, 0x201000)) (some oneByteElf) true freshRing3).1 = .ok
        { path := some (textBytes "/bin/halt")
          name := textBytes "halt"
          kind := .elf
          entry := 0x10000000
          userStackTop := 0x10001FF0
          imageSize := 1
          flags := 0 } :=
  rfl

end LiamOS.I386
