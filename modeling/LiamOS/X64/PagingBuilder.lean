import LiamOS.X64.EmbeddedImage
import LiamOS.X64.Plan

/-
  The page table builder of the x86_64 kernel, `x86_64_paging_builder_init` of
  `kernel/arch/x86_64/paging_builder.c`.

  The builder runs under the tables of `boot32.asm`, which map the first gibibyte to itself and
  nothing else. It reaches memory only in the pages it has taken, so a page outside that window is
  a page fault: the run has no result.

  Key definitions: `BuilderPage`, `allocatePages`, `rollbackAllocatedPages`, `BuilderState`,
  `pagingBuilderInit`.
-/

namespace LiamOS.X64

open Word PageTable

----------
-- Pages

/- The pages of the builder, in the order they are taken. -/
inductive BuilderPage
| pml4Table
| identityPdptTable
| identityPdTable
| directPdptTable
| directPdTable
| framebufferPdptTable
| framebufferPdTable
| kernelPdptTable
| kernelPdTable
| kernelPtTable
| userCodePtTable
| userStackPdTable
| userStackPtTable
| userCodePage0
| userCodePage1
| userStackPage
deriving DecidableEq, Repr

namespace BuilderPage

def index : BuilderPage → Nat
| pml4Table => 0
| identityPdptTable => 1
| identityPdTable => 2
| directPdptTable => 3
| directPdTable => 4
| framebufferPdptTable => 5
| framebufferPdTable => 6
| kernelPdptTable => 7
| kernelPdTable => 8
| kernelPtTable => 9
| userCodePtTable => 10
| userStackPdTable => 11
| userStackPtTable => 12
| userCodePage0 => 13
| userCodePage1 => 14
| userStackPage => 15

def userCodePages : Nat → BuilderPage
| 0 => userCodePage0
| _ => userCodePage1

end BuilderPage

def allocatedPageCount : Nat := 16

/- Take pages and clear them, up to a count. The list is shorter if the page manager runs out. -/
def allocatePages : Nat → List Nat → Pmm → ByteMemory → Option (List Nat × Pmm × ByteMemory)
| 0, allocated, pmm, mem => some (allocated, pmm, mem)
| n + 1, allocated, pmm, mem =>
    let page := (pmmAllocPage pmm).1
    if page = pmmInvalidPage then
      some (allocated, (pmmAllocPage pmm).2, mem)
    else if page < MemoryLayout.bootstrapIdentityMapBytes then
      allocatePages n (allocated ++ [page]) (pmmAllocPage pmm).2 (clearPage mem page)
    else
      none

def rollbackAllocatedPages (allocated : List Nat) (pmm : Pmm) : Pmm :=
  allocated.foldl (fun pmm page => (pmmFreePage page pmm).2) pmm

----------
-- Mappings

def tableFlags : Nat := 3

def userTableFlags : Nat := 7

def hugePageFlags : Nat := 0x83

def userCodeFlags : Nat := 5

def userStackFlags : Nat := 7

def hugePageCountFor (bytes : Nat) : Nat := u32 (u64 (bytes + 2097151) / 2097152)

def clampEntries (count : Nat) : Nat := if 512 < count then 512 else count

def hugePageEntry (base i : Nat) : Nat := u64 (base + i * 2097152) ||| hugePageFlags

def framebufferVirtualBase : Nat := 0xFFFF900000000000

def userStackVirtual : Nat := userStackTop - 4096

/- The entries the user addresses go through. -/
theorem userCode_indices : pml4Index userCodeBase = 0 ∧ pdptIndex userCodeBase = 0 ∧
      pdIndex userCodeBase = 2 ∧ ptIndex userCodeBase = 0 := by
  decide

theorem userStack_indices : pml4Index userStackVirtual = 0 ∧ pdptIndex userStackVirtual = 1 ∧
      pdIndex userStackVirtual = 511 ∧ ptIndex userStackVirtual = 511 := by
  decide

structure FramebufferMapping where
  requested : Bool
  physicalBase : Nat
  virtualAddress : Nat
  bytes : Nat
  hugePages : Nat
deriving DecidableEq, Repr

def framebufferMapping (boot : BootSummary) : FramebufferMapping :=
  if boot.framebufferRgbFormatOk then
    let offset := boot.framebufferAddr % 2097152
    let bytes := u64 (boot.framebufferPitch * boot.framebufferHeight + offset)
    { requested := true
      physicalBase := boot.framebufferAddr &&& not64 2097151
      virtualAddress := framebufferVirtualBase + offset
      bytes := bytes
      hugePages := hugePageCountFor bytes }
  else
    ⟨false, 0, 0, 0, 0⟩

def framebufferMappingFits (firstPdIndex hugePages : Nat) : Bool :=
  decide (hugePages ≠ 0) && decide (hugePages ≤ 512) && decide (firstPdIndex < 512) &&
    decide (hugePages ≤ 512 - firstPdIndex)

section Mappings

variable (tables : BuilderPage → Nat)

def mapIdentityWindow (plan : PagingPlan) (mem : ByteMemory) : ByteMemory :=
  fillEntries mem (tables .identityPdTable) 0 (hugePageEntry 0)
    (clampEntries (hugePageCountFor plan.identityWindowBytes))

def mapDirectMap (plan : PagingPlan) (mem : ByteMemory) : ByteMemory :=
  fillEntries mem (tables .directPdTable) 0 (hugePageEntry 0)
    (clampEntries (hugePageCountFor plan.directMapBytes))

def mapFramebuffer (framebuffer : FramebufferMapping) (mem : ByteMemory) : ByteMemory :=
  let firstPdIndex := pdIndex framebufferVirtualBase
  if framebuffer.requested && framebufferMappingFits firstPdIndex framebuffer.hugePages then
    fillEntries
      (setEntry mem (tables .framebufferPdptTable) (pdptIndex framebufferVirtualBase)
        (tables .framebufferPdTable ||| tableFlags))
      (tables .framebufferPdTable) firstPdIndex
      (hugePageEntry framebuffer.physicalBase)
      framebuffer.hugePages
  else
    mem

def kernelPageCount (layout : MemoryLayout) : Nat := alignPageCount layout.kernelSizeBytes

def mapKernelPages (layout : MemoryLayout) (mem : ByteMemory) : ByteMemory :=
  fillEntries mem (tables .kernelPtTable) 0
    (fun i =>
      u64 (layout.kernelStart.toNat + i * 4096) ||| tableFlags)
    (clampEntries (kernelPageCount layout))

def kernelLinks (plan : PagingPlan) : List (BuilderPage × Nat × Nat) :=
  [(.identityPdptTable, 0, tables .identityPdTable ||| userTableFlags),
    (.directPdptTable, 0, tables .directPdTable ||| tableFlags),
    (.kernelPdptTable, pdptIndex plan.kernelVirtualStart, tables .kernelPdTable ||| tableFlags),
    (.kernelPdTable, pdIndex plan.kernelVirtualStart, tables .kernelPtTable ||| tableFlags)]

def mapUserCode (userImagePages : Nat) (mem : ByteMemory) : ByteMemory :=
  fillEntries mem (tables .userCodePtTable) (ptIndex userCodeBase)
    (fun i =>
      tables (BuilderPage.userCodePages i) ||| userCodeFlags)
    userImagePages

def userLinks (plan : PagingPlan) : List (BuilderPage × Nat × Nat) :=
  [(.identityPdTable, pdIndex userCodeBase, tables .userCodePtTable ||| userTableFlags),
    (.userStackPtTable, ptIndex userStackVirtual, tables .userStackPage ||| userStackFlags),
    (.userStackPdTable, pdIndex userStackVirtual, tables .userStackPtTable ||| userTableFlags),
    (.identityPdptTable, pdptIndex userStackVirtual, tables .userStackPdTable ||| userTableFlags),
    (.pml4Table, plan.identityPml4Index, tables .identityPdptTable ||| userTableFlags),
    (.pml4Table, plan.directMapPml4Index, tables .directPdptTable ||| tableFlags),
    (.pml4Table, pml4Index framebufferVirtualBase, tables .framebufferPdptTable ||| tableFlags),
    (.pml4Table, plan.kernelPml4Index, tables .kernelPdptTable ||| tableFlags)]

/- All entries, in the order they are written. -/
def buildMappings (layout : MemoryLayout) (plan : PagingPlan) (framebuffer : FramebufferMapping)
    (userImagePages : Nat)
    (mem : ByteMemory) : ByteMemory :=
  let mem := mapIdentityWindow tables plan mem
  let mem := mapDirectMap tables plan mem
  let mem := mapFramebuffer tables framebuffer mem
  let mem := mapKernelPages tables layout mem
  let mem := writeEntries tables mem (kernelLinks tables plan)
  let mem := mapUserCode tables userImagePages mem
  writeEntries tables mem (userLinks tables plan)

end Mappings

----------
-- Checks

structure BuilderState where
  tables : BuilderPage → Nat
  image : EmbeddedImageState
  framebuffer : FramebufferMapping
  identityHugePages : Nat
  directHugePages : Nat
  kernelPages : Nat
  pmmBacked : Bool
  allocationOk : Bool
  identityEntryOk : Bool
  directMapEntryOk : Bool
  framebufferEntryOk : Bool
  framebufferMapped : Bool
  kernelEntryOk : Bool
  userCodeEntryOk : Bool
  userStackEntryOk : Bool
  userPagesUserAccessible : Bool
  userMappingOk : Bool
  tablesAligned : Bool
  builderOk : Bool

def clearedImageState : EmbeddedImageState :=
  ⟨false, false, false, false, false, false, 0, 0, 0, false, false, false⟩

def clearedBuilderState : BuilderState where
  tables := fun _ => 0
  image := clearedImageState
  framebuffer := ⟨false, 0, 0, 0, 0⟩
  identityHugePages := 0
  directHugePages := 0
  kernelPages := 0
  pmmBacked := false
  allocationOk := false
  identityEntryOk := false
  directMapEntryOk := false
  framebufferEntryOk := false
  framebufferMapped := false
  kernelEntryOk := false
  userCodeEntryOk := false
  userStackEntryOk := false
  userPagesUserAccessible := false
  userMappingOk := false
  tablesAligned := false
  builderOk := false

def allBuilderPages : List BuilderPage :=
  [.pml4Table, .identityPdptTable, .identityPdTable,
    .directPdptTable, .directPdTable, .framebufferPdptTable,
    .framebufferPdTable, .kernelPdptTable, .kernelPdTable,
    .kernelPtTable, .userCodePtTable, .userStackPdTable,
    .userStackPtTable, .userCodePage0, .userCodePage1,
    .userStackPage]

def tablesAreAligned (tables : BuilderPage → Nat) : Bool :=
  allBuilderPages.all fun b => decide (PageAligned (tables b))

/- The flags the builder computes from the finished tables. -/
def checkMappings (tables : BuilderPage → Nat) (image : EmbeddedImageState)
    (framebuffer : FramebufferMapping) (layout : MemoryLayout) (plan : PagingPlan)
    (allocationOk : Bool)
    (mem : ByteMemory) : BuilderState :=
  let entry := fun b j => entryAt mem (tables b) j
  let present := fun b j => entryPresent (entry b j)
  let user := fun b j => entryUser (entry b j)
  let identityPages := clampEntries (hugePageCountFor plan.identityWindowBytes)
  let codePml4 := pml4Index userCodeBase
  let codePdpt := pdptIndex userCodeBase
  let codePd := pdIndex userCodeBase
  let codePt := ptIndex userCodeBase
  let identityEntryOk :=
    present .pml4Table plan.identityPml4Index && present .identityPdptTable 0 &&
      present .identityPdTable 0
  let directMapEntryOk := present .pml4Table plan.directMapPml4Index &&
      present .directPdptTable 0 && present .directPdTable 0
  let framebufferEntryOk :=
    framebuffer.requested && present .pml4Table (pml4Index framebufferVirtualBase) &&
      present .framebufferPdptTable (pdptIndex framebufferVirtualBase) &&
      present .framebufferPdTable (pdIndex framebufferVirtualBase)
  let framebufferMapped := !framebuffer.requested || framebufferEntryOk
  let kernelEntryOk := present .pml4Table plan.kernelPml4Index &&
      present .kernelPdptTable (pdptIndex plan.kernelVirtualStart) &&
      present .kernelPdTable (pdIndex plan.kernelVirtualStart) &&
      present .kernelPtTable 0 &&
      decide (kernelPageCount layout ≤ 512)
  let userCodePagesPresent := (List.range image.userImagePages).all fun i =>
      present .userCodePtTable (codePt + i)
  let userCodePagesUser := (List.range image.userImagePages).all fun i =>
      user .userCodePtTable (codePt + i)
  let userCodeEntryOk := present .pml4Table codePml4 && present .identityPdptTable codePdpt &&
      present .identityPdTable codePd &&
      decide (image.userImagePages ≠ 0) && userCodePagesPresent
  let userStackEntryOk := present .pml4Table (pml4Index userStackVirtual) &&
      present .identityPdptTable (pdptIndex userStackVirtual) &&
      present .userStackPdTable (pdIndex userStackVirtual) &&
      present .userStackPtTable (ptIndex userStackVirtual)
  let userPagesUserAccessible := user .pml4Table codePml4 && user .identityPdptTable codePdpt &&
      user .identityPdTable codePd && userCodePagesUser &&
      user .userStackPdTable (pdIndex userStackVirtual) &&
      user .userStackPtTable (ptIndex userStackVirtual)
  let userMappingOk :=
    userCodeEntryOk && userStackEntryOk && userPagesUserAccessible && image.elf64LoadOk
  let tablesAligned := tablesAreAligned tables
  { tables, image, framebuffer, allocationOk
    identityHugePages :=
      if codePml4 = plan.identityPml4Index ∧ codePdpt = 0 ∧ codePd < identityPages then
        identityPages - 1
      else
        identityPages
    directHugePages := clampEntries (hugePageCountFor plan.directMapBytes)
    kernelPages := clampEntries (kernelPageCount layout)
    pmmBacked := true
    identityEntryOk, directMapEntryOk, framebufferEntryOk,
    framebufferMapped, kernelEntryOk, userCodeEntryOk,
    userStackEntryOk, userPagesUserAccessible, userMappingOk,
    tablesAligned
    builderOk := allocationOk && identityEntryOk && directMapEntryOk &&
        framebufferMapped && kernelEntryOk && userMappingOk &&
        tablesAligned }

----------
-- Builder

def builderTables (allocated : List Nat) (b : BuilderPage) : Nat := allocated.getD b.index 0

def pagingBuilderInit (layout : MemoryLayout) (plan : PagingPlan) (boot : BootSummary)
    (userImage : UserImage) (pmm : Pmm)
    (mem : ByteMemory) : Option (BuilderState × Pmm × ByteMemory) :=
  match allocatePages allocatedPageCount [] pmm mem with
  | none => none
  | some (allocated, pmm, mem) =>
    if allocated.length < allocatedPageCount then
      some (clearedBuilderState, rollbackAllocatedPages allocated pmm, mem)
    else
      let tables := builderTables allocated
      let loaded := loadEmbeddedUserImage userImage (fun i => tables (BuilderPage.userCodePages i))
          (tables .userStackPage) mem
      let framebuffer := framebufferMapping boot
      let built := buildMappings tables layout plan framebuffer loaded.1.userImagePages loaded.2
      some (checkMappings tables loaded.1 framebuffer layout
        plan (decide (allocated.length = allocatedPageCount))
        built, pmm, built)

end LiamOS.X64
