import LiamOS.Lib.Word

/-
  The i386 kernel heap, `kernel/memory/heap.c`.

  A block header is a record at its address in `blocks`; the block list is threaded through the
  `next` fields from `head`, and every walk follows those pointers. Addresses and sizes are 32-bit
  words. The physical and virtual memory managers the heap calls are the operations of
  `PageServices`, over a state of their own.

  A loop the source does not bound itself takes a number of turns as fuel and returns `none` when
  the turns run out.

  Key definitions: `HeapBlock`, `HeapStats`, `HeapAuditInfo`, `PageServices`, `Heap`,
  `heapBlockHeaderIsSane`, `heapSplitBlock`, `heapMergeFreeBlocks`, `heapGrow`, `heapInitialize`,
  `kmalloc`, `kfree`, `heapAudit`.
-/

namespace LiamOS.I386

open Word

----------
-- Constants

def pmmPageSize : Nat := 4096

def heapInitialPages : Nat := 1

def heapMaxGrowPages : Nat := 16

def heapAlignment : Nat := 8

def heapMinSplitSize : Nat := 16

def heapBlockMagic : Nat := 0x48454150

def heapMaxAuditBlocks : Nat := 4096

def memoryLayoutKernelHeapStart : Nat := 0xC1000000

def memoryLayoutKernelHeapEnd : Nat := 0xC1FFFFFF

def vmmPageWritable : Nat := 0x002

/- `sizeof(heap_block_t)`: three words and a padded byte. -/
def heapBlockBytes : Nat := 16

/-
  Turns granted to the walks the source leaves unbounded:
  one for each header that fits in the 32-bit address space.
-/
def heapWalkTurns : Nat := 268435456

/-
  Nested `kmalloc` calls granted: every retry follows a growth by at least one page of the heap's
  range.
-/
def kmallocTurns : Nat := 4098

----------
-- Heap State

/- `heap_block_t`. -/
structure HeapBlock where
  magic : Nat
  size : Nat
  used : Bool
  next : Nat
deriving DecidableEq

/- `heap_stats_t`. -/
structure HeapStats where
  initialized : Bool
  virtualStart : Nat
  virtualEnd : Nat
  nextVirtualPage : Nat
  totalPages : Nat
  totalBytes : Nat
  usedBytes : Nat
  freeBytes : Nat
  allocationCount : Nat
  freeBlockCount : Nat
  growCount : Nat
  failedGrowCount : Nat
  failedAllocationCount : Nat
  successfulFreeCount : Nat
  invalidFreeCount : Nat
  doubleFreeCount : Nat
deriving DecidableEq

/- `heap_audit_info_t`. -/
structure HeapAuditInfo where
  auditsRun : Nat
  issuesFound : Nat
  blocksSeen : Nat
  usedBlocks : Nat
  freeBlocks : Nat
  invalidMagicBlocks : Nat
  outOfRangeBlocks : Nat
  misalignedBlocks : Nat
  invalidSizeBlocks : Nat
  invalidNextLinks : Nat
  unmappedHeapPages : Nat
  calculatedUsedBytes : Nat
  calculatedFreeBytes : Nat
  calculatedTotalPayloadBytes : Nat
deriving DecidableEq

/-
  The page managers below the heap. A physical page is `0` when the allocation failed; mapping and
  unmapping report whether they succeeded.
-/
structure PageServices (σ : Type) where
  pmmAllocPage : σ → Nat × σ
  pmmFreePage : Nat → σ → σ
  vmmMapPage : Nat → Nat → Nat → σ → Bool × σ
  vmmUnmapPage : Nat → σ → Bool × σ
  vmmIsMapped : Nat → σ → Bool

/- The heap's static variables and the managers' state. -/
structure Heap (σ : Type) where
  head : Nat
  blocks : Nat → HeapBlock
  stats : HeapStats
  auditInfo : HeapAuditInfo
  pages : σ

variable {σ : Type}

/- Store a block header. -/
def Heap.setBlock (h : Heap σ) (address : Nat) (block : HeapBlock) : Heap σ :=
  { h with
    blocks := fun a =>
      if a = address then block else h.blocks a }

def Heap.countFailedGrow (h : Heap σ) : Heap σ :=
  { h with
    stats := { h.stats with failedGrowCount := u32 (h.stats.failedGrowCount + 1) } }

def Heap.countFailedAllocation (h : Heap σ) : Heap σ :=
  { h with
    stats := { h.stats with failedAllocationCount := u32 (h.stats.failedAllocationCount + 1) } }

----------
-- Header Checks

def alignUp (value alignment : Nat) : Nat := u32 (value + alignment - 1) &&& not32 (alignment - 1)

def heapHeaderSize : Nat := alignUp heapBlockBytes heapAlignment

def heapAddressInRange (h : Heap σ) (address : Nat) : Bool :=
  h.stats.virtualStart ≤ address && address ≤ h.stats.virtualEnd

def heapPayloadAddressInRange (h : Heap σ) (address : Nat) : Bool :=
  u32 (h.stats.virtualStart + heapHeaderSize) ≤ address && address ≤ h.stats.virtualEnd

def heapAddressIsAligned (address : Nat) : Bool := address &&& (heapAlignment - 1) == 0

/- The last byte of the block at `block`. -/
def heapBlockLastByte (h : Heap σ) (block : Nat) : Nat :=
  sub32 (u32 (block + heapHeaderSize + (h.blocks block).size)) 1

def heapInitializeBlock (h : Heap σ) (block size : Nat) : Heap σ := h.setBlock block
    { magic := heapBlockMagic
      size := size
      used := false
      next := 0 }

def heapBlockHeaderIsSane (h : Heap σ) (block : Nat) : Bool := if block = 0 then
    false
  else if !heapAddressInRange h block then
    false
  else if !heapAddressIsAligned block then
    false
  else if (h.blocks block).magic ≠ heapBlockMagic then
    false
  else if (h.blocks block).size = 0 then
    false
  else if h.stats.virtualEnd < heapBlockLastByte h block then false else true

----------
-- Statistics

/- The local sums of `heap_recalculate_stats`. -/
structure HeapTally where
  usedBytes : Nat
  freeBytes : Nat
  allocationCount : Nat
  freeBlockCount : Nat
deriving DecidableEq

def HeapTally.zero : HeapTally := ⟨0, 0, 0, 0⟩

def HeapTally.add (t : HeapTally) (size : Nat) (used : Bool) : HeapTally := if used then
    { t with
      usedBytes := u32 (t.usedBytes + size)
      allocationCount := u32 (t.allocationCount + 1) }
  else
    { t with
      freeBytes := u32 (t.freeBytes + size)
      freeBlockCount := u32 (t.freeBlockCount + 1) }

/- The walk of `heap_recalculate_stats`. The first argument is `HEAP_MAX_AUDIT_BLOCKS - visited`. -/
def heapRecalculateLoop (h : Heap σ) : Nat → Nat → HeapTally → HeapTally
| 0, _, t => t
| budget + 1, block, t =>
    if block = 0 then
      t
    else if !heapBlockHeaderIsSane h block then
      t
    else
      heapRecalculateLoop h budget (h.blocks block).next
        (t.add (h.blocks block).size (h.blocks block).used)

def heapRecalculateStats (h : Heap σ) : Heap σ :=
  let t := heapRecalculateLoop h heapMaxAuditBlocks h.head HeapTally.zero
  { h with
    stats :=
      { h.stats with
        usedBytes := t.usedBytes
        freeBytes := t.freeBytes
        allocationCount := t.allocationCount
        freeBlockCount := t.freeBlockCount } }

----------
-- Block Searches

def heapFindLastLoop (h : Heap σ) : Nat → Nat → Option Nat
| 0, _ => none
| turns + 1, block =>
    if (h.blocks block).next = 0 then some block else heapFindLastLoop h turns (h.blocks block).next

def heapFindLastBlock (h : Heap σ) : Option Nat := if h.head = 0 then
    some 0
  else
    heapFindLastLoop h heapWalkTurns h.head

def heapFindBlockLoop (h : Heap σ) (pointer : Nat) : Nat → Nat → Nat
| 0, _ => 0
| budget + 1, block =>
    if block = 0 then
      0
    else if !heapBlockHeaderIsSane h block then
      0
    else if u32 (block + heapHeaderSize) = pointer then
      block
    else
      heapFindBlockLoop h pointer budget (h.blocks block).next

def heapFindBlockForPointer (h : Heap σ) (pointer : Nat) : Nat :=
  if pointer = 0 ∨ h.stats.initialized = false then
    0
  else if !heapPayloadAddressInRange h pointer then
    0
  else
    heapFindBlockLoop h pointer heapMaxAuditBlocks h.head

----------
-- Splitting And Merging

def heapSplitBlock (h : Heap σ) (block requestedSize : Nat) : Heap σ :=
  if !heapBlockHeaderIsSane h block then
    h
  else if (h.blocks block).size ≤ u32 (requestedSize + heapHeaderSize + heapMinSplitSize) then
    h
  else
    let remainingSize := sub32 (sub32 (h.blocks block).size requestedSize) heapHeaderSize
    let newBlock := u32 (block + heapHeaderSize + requestedSize)
    let h₁ := heapInitializeBlock h newBlock remainingSize
    let h₂ := h₁.setBlock newBlock { h₁.blocks newBlock with next := (h₁.blocks block).next }
    h₂.setBlock block
      { h₂.blocks block with
        size := requestedSize
        next := newBlock }

/-
  The walk of `heap_merge_free_blocks`. Absorbing the next block is a turn that leaves `visited`
  as it is.
-/
def heapMergeLoop : Nat → Heap σ → Nat → Nat → Option (Heap σ)
| 0, _, _, _ => none
| turns + 1, h, block, visited =>
    if block = 0 then
      some h
    else if (h.blocks block).next = 0 then
      some h
    else if heapMaxAuditBlocks ≤ visited then
      some h
    else if !heapBlockHeaderIsSane h block || !heapBlockHeaderIsSane h (h.blocks block).next then
      some h
    else if !(h.blocks block).used && !(h.blocks (h.blocks block).next).used &&
        u32 (block + heapHeaderSize + (h.blocks block).size) == (h.blocks block).next then
      heapMergeLoop turns
        (h.setBlock block
          { h.blocks block with
            size :=
              u32 ((h.blocks block).size + heapHeaderSize + (h.blocks (h.blocks block).next).size)
            next := (h.blocks (h.blocks block).next).next })
        block visited
    else
      heapMergeLoop turns h (h.blocks block).next (visited + 1)

def heapMergeFreeBlocks (h : Heap σ) : Option (Heap σ) := heapMergeLoop heapWalkTurns h h.head 0

----------
-- Growth

def heapVirtualRangeHasSpace (h : Heap σ) (pages : Nat) : Bool :=
  if h.stats.nextVirtualPage < h.stats.virtualStart then
    false
  else if h.stats.virtualEnd <
      sub32 (u32 (h.stats.nextVirtualPage + u32 (pages * pmmPageSize))) 1 then
    false
  else
    true

/- Undo the mappings of a growth, in the order they were made. -/
def heapUnmapPages (svc : PageServices σ) : List (Nat × Nat) → σ → σ
| [], pages => pages
| (virtualPage, physicalPage) :: rest, pages =>
    heapUnmapPages svc rest (svc.pmmFreePage physicalPage (svc.vmmUnmapPage virtualPage pages).2)

def heapRollbackGrowth (svc : PageServices σ) (h : Heap σ) (mapped : List (Nat × Nat))
    (original : HeapStats) : Heap σ :=
  { h with
    pages := heapUnmapPages svc mapped h.pages
    stats :=
      { h.stats with
        nextVirtualPage := original.nextVirtualPage
        totalPages := original.totalPages
        totalBytes := original.totalBytes } }

/- The local variables of the loop of `heap_grow`. -/
structure HeapGrowth (σ : Type) where
  heap : Heap σ
  mapped : List (Nat × Nat)
  firstNewBlock : Nat
  previousNewBlock : Nat

/- Link a freshly mapped page into the pages grown so far. -/
def HeapGrowth.addPage (g : HeapGrowth σ) (physicalPage : Nat) (pages : σ) : HeapGrowth σ :=
  let virtualAddress := g.heap.stats.nextVirtualPage
  let h₁ := heapInitializeBlock { g.heap with pages := pages }
      virtualAddress (sub32 pmmPageSize heapHeaderSize)
  let h₂ := if g.previousNewBlock ≠ 0 then
      h₁.setBlock g.previousNewBlock { h₁.blocks g.previousNewBlock with next := virtualAddress }
    else
      h₁
  { heap :=
      { h₂ with
        stats :=
          { h₂.stats with
            nextVirtualPage := u32 (h₂.stats.nextVirtualPage + pmmPageSize)
            totalPages := u32 (h₂.stats.totalPages + 1)
            totalBytes := u32 (h₂.stats.totalBytes + pmmPageSize) } }
    mapped := g.mapped ++ [(virtualAddress, physicalPage)]
    firstNewBlock := if g.firstNewBlock = 0 then virtualAddress else g.firstNewBlock
    previousNewBlock := virtualAddress }

/-
  The page loop of `heap_grow`, with the pages left to take. A failure gives the heap after the
  rollback.
-/
def heapGrowLoop (svc : PageServices σ) (original : HeapStats) :
    Nat → HeapGrowth σ → Except (Heap σ) (HeapGrowth σ)
| 0, g => .ok g
| pages + 1, g =>
    let (physicalPage, afterAlloc) := svc.pmmAllocPage g.heap.pages
    if physicalPage = 0 then
      .error
        (heapRollbackGrowth svc { g.heap with pages := afterAlloc }
          g.mapped original).countFailedGrow
    else
      let (mapped, afterMap) :=
        svc.vmmMapPage g.heap.stats.nextVirtualPage physicalPage vmmPageWritable afterAlloc
      if !mapped then
        .error
          (heapRollbackGrowth svc { g.heap with pages := svc.pmmFreePage physicalPage afterMap }
            g.mapped original).countFailedGrow
      else
        heapGrowLoop svc original pages (g.addPage physicalPage afterMap)

def heapRequiredPages (minimumSize : Nat) : Nat :=
  let requiredBytes := u32 (minimumSize + heapHeaderSize)
  let requiredPages := alignUp requiredBytes pmmPageSize / pmmPageSize
  if requiredPages = 0 then 1 else requiredPages

/- Join the new pages to the list and merge free blocks. -/
def heapLinkGrowth (svc : PageServices σ) (original : HeapStats)
    (g : HeapGrowth σ) : Option (Bool × Heap σ) :=
  let finish (h : Heap σ) : Option (Bool × Heap σ) :=
    match heapMergeFreeBlocks
        { h with
          stats := { h.stats with growCount := u32 (h.stats.growCount + 1) } } with
    | none => none
    | some merged => some (true, heapRecalculateStats merged)
  if g.heap.head = 0 then
    finish { g.heap with head := g.firstNewBlock }
  else
    match heapFindLastBlock g.heap with
    | none => none
    | some last =>
      if last = 0 then
        some (false, (heapRollbackGrowth svc g.heap g.mapped original).countFailedGrow)
      else
        finish (g.heap.setBlock last { g.heap.blocks last with next := g.firstNewBlock })

def heapGrow (svc : PageServices σ) (h : Heap σ) (minimumSize : Nat) : Option (Bool × Heap σ) :=
  let requiredPages := heapRequiredPages minimumSize
  if heapMaxGrowPages < requiredPages then
    some (false, h.countFailedGrow)
  else if !heapVirtualRangeHasSpace h requiredPages then
    some (false, h.countFailedGrow)
  else
    match heapGrowLoop svc h.stats requiredPages
        { heap := h
          mapped := []
          firstNewBlock := 0
          previousNewBlock := 0 } with
    | .error failed => some (false, failed)
    | .ok g => heapLinkGrowth svc h.stats g

----------
-- Initialization

def heapClearAuditSnapshot (info : HeapAuditInfo) : HeapAuditInfo :=
  { auditsRun := info.auditsRun
    issuesFound := 0
    blocksSeen := 0
    usedBlocks := 0
    freeBlocks := 0
    invalidMagicBlocks := 0
    outOfRangeBlocks := 0
    misalignedBlocks := 0
    invalidSizeBlocks := 0
    invalidNextLinks := 0
    unmappedHeapPages := 0
    calculatedUsedBytes := 0
    calculatedFreeBytes := 0
    calculatedTotalPayloadBytes := 0 }

/- The static variables as `heap_initialize` first sets them. -/
def heapReset (h : Heap σ) : Heap σ :=
  { h with
    head := 0
    stats :=
      { initialized := false
        virtualStart := memoryLayoutKernelHeapStart
        virtualEnd := memoryLayoutKernelHeapEnd
        nextVirtualPage := memoryLayoutKernelHeapStart
        totalPages := 0
        totalBytes := 0
        usedBytes := 0
        freeBytes := 0
        allocationCount := 0
        freeBlockCount := 0
        growCount := 0
        failedGrowCount := 0
        failedAllocationCount := 0
        successfulFreeCount := 0
        invalidFreeCount := 0
        doubleFreeCount := 0 }
    auditInfo := heapClearAuditSnapshot { h.auditInfo with auditsRun := 0 } }

def heapInitialize (svc : PageServices σ) (h : Heap σ) : Option (Heap σ) :=
  match heapGrow svc (heapReset h)
      (sub32 (u32 (heapInitialPages * pmmPageSize)) heapHeaderSize) with
  | none => none
  | some (false, failed) => some failed
  | some (true, grown) =>
    some (heapRecalculateStats { grown with stats := { grown.stats with initialized := true } })

----------
-- Allocation

/- How the search of `kmalloc` over the block list ends. -/
inductive HeapSearch where
  | found (block : Nat)
  | corrupt
  | exhausted
deriving DecidableEq

def kmallocSearch (h : Heap σ) (requestedSize : Nat) : Nat → Nat → HeapSearch
| 0, _ => .exhausted
| budget + 1, block =>
    if block = 0 then
      .exhausted
    else if !heapBlockHeaderIsSane h block then
      .corrupt
    else if !(h.blocks block).used && requestedSize ≤ (h.blocks block).size then
      .found block
    else
      kmallocSearch h requestedSize budget (h.blocks block).next

/- Split the block found, mark it used and refresh the sums. -/
def kmallocTake (h : Heap σ) (block requestedSize : Nat) : Heap σ :=
  let h₁ := heapSplitBlock h block requestedSize
  heapRecalculateStats (h₁.setBlock block { h₁.blocks block with used := true })

def kmallocLoop (svc : PageServices σ) : Nat → Heap σ → Nat → Option (Nat × Heap σ)
| 0, _, _ => none
| turns + 1, h, size =>
    if h.stats.initialized = false ∨ size = 0 then
      some (0, h.countFailedAllocation)
    else
      let requestedSize := alignUp size heapAlignment
      match kmallocSearch h requestedSize heapMaxAuditBlocks h.head with
      | .corrupt => some (0, h.countFailedAllocation)
      | .found block => some (u32 (block + heapHeaderSize), kmallocTake h block requestedSize)
      | .exhausted =>
        match heapGrow svc h requestedSize with
        | none => none
        | some (false, failed) => some (0, failed.countFailedAllocation)
        | some (true, grown) => kmallocLoop svc turns grown requestedSize

def kmalloc (svc : PageServices σ) (h : Heap σ) (size : UInt32) : Option (Nat × Heap σ) :=
  kmallocLoop svc kmallocTurns h size.toNat

def kfree (h : Heap σ) (pointer : UInt32) : Option (Heap σ) := if pointer = 0 then
    some h
  else
    let block := heapFindBlockForPointer h pointer.toNat
    if block = 0 then
      some
        { h with
          stats := { h.stats with invalidFreeCount := u32 (h.stats.invalidFreeCount + 1) } }
    else if (h.blocks block).used = false then
      some
        { h with
          stats := { h.stats with doubleFreeCount := u32 (h.stats.doubleFreeCount + 1) } }
    else
      let freed := h.setBlock block { h.blocks block with used := false }
      match heapMergeFreeBlocks
          { freed with
            stats :=
              { freed.stats with
                successfulFreeCount := u32 (freed.stats.successfulFreeCount + 1) } }
        with
      | none => none
      | some merged => some (heapRecalculateStats merged)

def heapValidatePointer (h : Heap σ) (pointer : UInt32) : Bool :=
  let block := heapFindBlockForPointer h pointer.toNat
  if block = 0 then false else (h.blocks block).used

----------
-- Audit

def HeapAuditInfo.countBlock (info : HeapAuditInfo) (block : HeapBlock) : HeapAuditInfo :=
  let counted := if block.used then
      { info with
        usedBlocks := u32 (info.usedBlocks + 1)
        calculatedUsedBytes :=
          u32 (info.calculatedUsedBytes + block.size) }
    else
      { info with
        freeBlocks := u32 (info.freeBlocks + 1)
        calculatedFreeBytes :=
          u32 (info.calculatedFreeBytes + block.size) }
  { counted with
    calculatedTotalPayloadBytes :=
      u32 (counted.calculatedTotalPayloadBytes + block.size) }

def HeapAuditInfo.recordIssue (info : HeapAuditInfo) : HeapAuditInfo :=
  { info with issuesFound := u32 (info.issuesFound + 1) }

def HeapAuditInfo.recordOutOfRange (info : HeapAuditInfo) : HeapAuditInfo :=
  { info.recordIssue with outOfRangeBlocks := u32 (info.outOfRangeBlocks + 1) }

def HeapAuditInfo.recordMisaligned (info : HeapAuditInfo) : HeapAuditInfo :=
  { info.recordIssue with misalignedBlocks := u32 (info.misalignedBlocks + 1) }

def HeapAuditInfo.recordInvalidMagic (info : HeapAuditInfo) : HeapAuditInfo :=
  { info.recordIssue with invalidMagicBlocks := u32 (info.invalidMagicBlocks + 1) }

def HeapAuditInfo.recordInvalidSize (info : HeapAuditInfo) : HeapAuditInfo :=
  { info.recordIssue with invalidSizeBlocks := u32 (info.invalidSizeBlocks + 1) }

def HeapAuditInfo.recordInvalidNext (info : HeapAuditInfo) : HeapAuditInfo :=
  { info.recordIssue with invalidNextLinks := u32 (info.invalidNextLinks + 1) }

def HeapAuditInfo.recordUnmapped (info : HeapAuditInfo) : HeapAuditInfo :=
  { info.recordIssue with unmappedHeapPages := u32 (info.unmappedHeapPages + 1) }

/- The block walk of `heap_audit`. The first argument is `HEAP_MAX_AUDIT_BLOCKS - visited`. -/
def heapAuditBlocks (h : Heap σ) : Nat → Nat → Nat → HeapAuditInfo → HeapAuditInfo
| 0, block, _, info => if block = 0 then info else info.recordInvalidNext
| budget + 1, block, previous, info =>
    if block = 0 then
      info
    else
      let seen := { info with blocksSeen := u32 (info.blocksSeen + 1) }
      if !heapAddressInRange h block then
        seen.recordOutOfRange
      else
        let checked := if !heapAddressIsAligned block then seen.recordMisaligned else seen
        if (h.blocks block).magic ≠ heapBlockMagic then
          checked.recordInvalidMagic
        else if (h.blocks block).size = 0 ∨ h.stats.virtualEnd < heapBlockLastByte h block then
          checked.recordInvalidSize
        else if previous ≠ 0 ∧ block ≤ previous then
          checked.recordInvalidNext
        else
          heapAuditBlocks h budget (h.blocks block).next block (checked.countBlock (h.blocks block))

/- The page walk of `heap_audit`. -/
def heapAuditPages (svc : PageServices σ) (h : Heap σ) :
    Nat → Nat → HeapAuditInfo → Option HeapAuditInfo
| 0, _, _ => none
| turns + 1, address, info =>
    if address < h.stats.nextVirtualPage then
      heapAuditPages svc h turns (u32 (address + pmmPageSize))
        (if svc.vmmIsMapped address h.pages then info else info.recordUnmapped)
    else
      some info

def heapAudit (svc : PageServices σ) (h : Heap σ) : Option (Nat × Heap σ) :=
  let start := heapClearAuditSnapshot
      { h.auditInfo with auditsRun := u32 (h.auditInfo.auditsRun + 1) }
  if h.stats.initialized = false then
    let info := start.recordOutOfRange
    some (info.issuesFound, { h with auditInfo := info })
  else
    let walked := heapAuditBlocks h heapMaxAuditBlocks h.head 0 start
    match heapAuditPages svc h heapWalkTurns h.stats.virtualStart walked with
    | none => none
    | some paged =>
      let usedChecked := if paged.calculatedUsedBytes ≠ h.stats.usedBytes then
          paged.recordIssue
        else
          paged
      let info := if usedChecked.calculatedFreeBytes ≠ h.stats.freeBytes then
          usedChecked.recordIssue
        else
          usedChecked
      some (info.issuesFound, { h with auditInfo := info })

end LiamOS.I386
