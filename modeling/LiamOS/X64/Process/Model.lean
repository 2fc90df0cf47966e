import LiamOS.X64.PagingBuilder

/-
  Processes of the x86_64 kernel: the part of `kernel/arch/x86_64/process.c` that creates, runs,
  ends and reaps them.

  A pointer to a page is its physical address: the kernel reaches pages through the identity
  window. A name is the text in front of its terminator. A kernel entry is the address of a
  function; what it does while it runs is not part of the model.

  Key definitions: `Process`, `ProcessSystem`, `setPagingContext`, `allocateAddressSpace`,
  `releaseAddressSpace`, `processCreate`, `processCreateUserImage`, `startNextReady`, `finishRun`,
  `processMarkUserExited`, `processReapUser`.
-/

namespace LiamOS.X64

open Word PageTable

----------
-- Data

inductive ProcessStateCode
| unused
| ready
| running
| exited
| failed
deriving DecidableEq, Repr

inductive ProcessModeCode
| none
| kernel
| user
deriving DecidableEq, Repr

/- The pages of the address space of a process. -/
inductive SpacePage
| cr3
| userPdptPage
| userCodePdPage
| userStackPdPage
| userCodePtPage
| userStackPtPage
| userCodePages (i : Fin 4)
| userStackPage
deriving DecidableEq, Repr

/- The order in which an address space is taken and released. -/
def addressSpacePages : List SpacePage :=
  [.cr3, .userPdptPage, .userCodePdPage, .userStackPdPage,
    .userCodePtPage, .userStackPtPage, .userCodePages 0,
    .userCodePages 1, .userCodePages 2, .userCodePages 3,
    .userStackPage]

structure Process where
  pid : Nat
  state : ProcessStateCode
  mode : ProcessModeCode
  imageBytes : Nat
  name : List UInt8
  imagePath : List UInt8
  entry : Nat
  pages : SpacePage → Nat
  kernelStackPage : Nat
  kernelStackBase : Nat
  kernelStackTop : Nat
  addressSpaceId : Nat
  userCodePageFlags : Fin 4 → Nat
  userCodeVirtual : Nat
  userStackVirtual : Nat
  userEntry : Nat
  addressSpaceOwned : Bool
  userPageTablesReady : Bool
  kernelMappingsReady : Bool
  userCodePageCount : Nat
  exitCode : Nat

def clearedProcess : Process where
  pid := 0
  state := .unused
  mode := .none
  imageBytes := 0
  name := []
  imagePath := []
  entry := 0
  pages := fun _ => 0
  kernelStackPage := 0
  kernelStackBase := 0
  kernelStackTop := 0
  addressSpaceId := 0
  userCodePageFlags := fun _ => 0
  userCodeVirtual := 0
  userStackVirtual := 0
  userEntry := 0
  addressSpaceOwned := false
  userPageTablesReady := false
  kernelMappingsReady := false
  userCodePageCount := 0
  exitCode := 0

structure PagingContext where
  initialized : Bool
  identityPml4Index : Nat
  directMapPml4Index : Nat
  kernelPml4Index : Nat
  sourcePml4Table : Nat
  sourceIdentityPdptTable : Nat
  sourceIdentityPdTable : Nat
deriving DecidableEq, Repr

structure ChildStatus where
  parentPid : Nat
  childPid : Nat
  exitCode : Nat
deriving DecidableEq, Repr

structure ProcessCounters where
  initialized : Bool
  createdProcesses : Nat
  userProcessesCreated : Nat
  userProcessesExited : Nat
  userProcessesReaped : Nat
  reapFailures : Nat
  completedChildRecords : Nat
  completedChildWaits : Nat
  completedChildDrops : Nat
  waitMisses : Nat
  kernelSchedulerSelections : Nat
  userSchedulerSelections : Nat
  kernelSchedulerCursor : Nat
  userSchedulerCursor : Nat
  lastUserPid : Nat
  lastUserCr3 : Nat
deriving DecidableEq, Repr

/- The state of `process.c` with the page manager and memory. -/
structure ProcessSystem where
  table : Fin 64 → Process
  counters : ProcessCounters
  context : PagingContext
  nextPid : Nat
  nextAddressSpaceId : Nat
  kernelScheduleCursor : Nat
  userScheduleCursor : Nat
  childStatusQueue : List ChildStatus
  pmm : Pmm
  mem : ByteMemory

----------
-- Paging Context

def clearedContext : PagingContext := ⟨false, 0, 0, 0, 0, 0, 0⟩

def setPagingContext (builder : BuilderState) : PagingContext :=
  if builder.builderOk = false ∨ builder.tables .pml4Table = 0 ∨
      builder.tables .identityPdptTable = 0 ∨
      builder.tables .identityPdTable = 0 then
    clearedContext
  else
    { initialized := true
      identityPml4Index := pml4Index 0
      directMapPml4Index := pml4Index directMapBase
      kernelPml4Index := pml4Index kernelVirtualBase
      sourcePml4Table := builder.tables .pml4Table
      sourceIdentityPdptTable := builder.tables .identityPdptTable
      sourceIdentityPdTable := builder.tables .identityPdTable }

def entryPointsTo (entry page : Nat) : Bool := entry &&& not64 4095 == page

def validateKernelMappings (context : PagingContext) (process : Process)
    (mem : ByteMemory) : Bool :=
  let entry := fun page index =>
    entryAt mem (process.pages page) index
  let sourcePml4 := entryAt mem context.sourcePml4Table
  let sourcePdpt := entryAt mem context.sourceIdentityPdptTable
  let sourcePd := entryAt mem context.sourceIdentityPdTable
  let identityIndex := context.identityPml4Index
  let directIndex := context.directMapPml4Index
  let kernelIndex := context.kernelPml4Index
  let codePdptIndex := pdptIndex process.userCodeVirtual
  let codePdIndex := pdIndex process.userCodeVirtual
  context.initialized && process.pages .cr3 != 0 && process.pages .userPdptPage != 0 &&
    process.pages .userCodePdPage != 0 &&
    entryPresent (sourcePml4 directIndex) &&
    entryPresent (sourcePml4 kernelIndex) &&
    entry .cr3 directIndex == sourcePml4 directIndex &&
    entry .cr3 kernelIndex == sourcePml4 kernelIndex &&
    entryPointsTo (entry .cr3 identityIndex) (process.pages .userPdptPage) &&
    entryUser (entry .cr3 identityIndex) &&
    entryPointsTo (entry .userPdptPage codePdptIndex) (process.pages .userCodePdPage) &&
    entryUser (entry .userPdptPage codePdptIndex) &&
    entryPresent (sourcePdpt codePdptIndex) &&
    entryPresent (sourcePd 0) &&
    entry .userCodePdPage 0 == sourcePd 0 &&
    entry .userCodePdPage codePdIndex != sourcePd codePdIndex

----------
-- Pages Of A Process

/- A slot of the table with what its functions change. -/
structure SlotState where
  process : Process
  nextAddressSpaceId : Nat
  pmm : Pmm
  mem : ByteMemory

def SlotState.setPages (w : SlotState) (pages : SpacePage → Nat) : SlotState :=
  { w with process := { w.process with pages := pages } }

def takePages : List SpacePage → (SpacePage → Nat) → Pmm → (SpacePage → Nat) × Pmm
| [], pages, pmm => (pages, pmm)
| p :: ps, pages, pmm =>
    takePages ps (Function.update pages p (pmmAllocPage pmm).1) (pmmAllocPage pmm).2

/- Give back the pages of a list that are there. -/
def releasePages : List Nat → Pmm → Pmm
| [], pmm => pmm
| page :: pages, pmm =>
    if page ≠ 0 then releasePages pages (pmmFreePage page pmm).2 else releasePages pages pmm

def releaseAddressSpace (w : SlotState) : SlotState :=
  { w with
    pmm := releasePages (addressSpacePages.map w.process.pages) w.pmm
    process :=
      { w.process with
        pages := fun _ => 0
        addressSpaceId := 0
        userCodePageFlags := fun _ => 0
        userCodeVirtual := 0
        userStackVirtual := 0
        addressSpaceOwned := false
        userPageTablesReady := false
        kernelMappingsReady := false
        userCodePageCount := 0 } }

def isAligned (value alignment : Nat) : Bool := value % alignment == 0

def allocateKernelStack (w : SlotState) : Bool × SlotState :=
  let page := (pmmAllocPage w.pmm).1
  let pmm := (pmmAllocPage w.pmm).2
  if page = pmmInvalidPage then
    (false, { w with pmm := pmm })
  else
    let base := u64 (directMapBase + page)
    let top := u64 (base + 4096)
    (isAligned page 4096 && isAligned base 4096 && isAligned top 16,
      { w with
        pmm := pmm
        mem := clearPage w.mem page
        process :=
          { w.process with
            kernelStackPage := page
            kernelStackBase := base
            kernelStackTop := top } })

def releaseKernelStack (w : SlotState) : SlotState :=
  { w with
    pmm := releasePages [w.process.kernelStackPage] w.pmm
    process :=
      { w.process with
        kernelStackPage := 0
        kernelStackBase := 0
        kernelStackTop := 0 } }

def releaseProcessResources (w : SlotState) : SlotState :=
  releaseKernelStack (releaseAddressSpace w)

----------
-- Page Tables Of A Process

/- Entries of the fixed-size arrays of a process. -/
def Process.codePageAt (process : Process) (i : Nat) : Nat :=
  process.pages (.userCodePages (Fin.ofNat 4 i))

def Process.codeFlagsAt (process : Process) (i : Nat) : Nat :=
  process.userCodePageFlags (Fin.ofNat 4 i)

def codePageOk (process : Process) (mem : ByteMemory) (i : Nat) : Bool :=
  let index := ptIndex process.userCodeVirtual + i
  let entry := entryAt mem (process.pages .userCodePtPage) index
  decide (index < 512) && process.codePageAt i != 0 && process.codeFlagsAt i != 0 &&
    entryPresent entry &&
    entryUser entry &&
    entryPointsTo entry (process.codePageAt i) &&
    entry % 4096 == process.codeFlagsAt i

def validateUserPageTables (context : PagingContext) (process : Process)
    (mem : ByteMemory) : Bool :=
  let linked := fun table index page =>
    let entry := entryAt mem (process.pages table) index
    entryPresent entry && entryUser entry && entryPointsTo entry (process.pages page)
  let code := process.userCodeVirtual
  let stack := process.userStackVirtual
  let codePagesOk := process.userCodePageCount != 0 && decide (process.userCodePageCount ≤ 4) &&
      (List.range process.userCodePageCount).all (codePageOk process mem)
  pml4Index code == pml4Index stack && linked .cr3 (pml4Index code) .userPdptPage &&
    linked .userPdptPage (pdptIndex code) .userCodePdPage &&
    linked .userPdptPage (pdptIndex stack) .userStackPdPage &&
    linked .userCodePdPage (pdIndex code) .userCodePtPage &&
    linked .userStackPdPage (pdIndex stack) .userStackPtPage &&
    codePagesOk &&
    linked .userStackPtPage (ptIndex stack) .userStackPage &&
    validateKernelMappings context process mem

/- The links above the page of the code and the stack. -/
def processLinks (process : Process) : List (SpacePage × Nat × Nat) :=
  let code := process.userCodeVirtual
  let stack := process.userStackVirtual
  [(.cr3, pml4Index code, process.pages .userPdptPage ||| userTableFlags),
    (.userPdptPage, pdptIndex code, process.pages .userCodePdPage ||| userTableFlags),
    (.userPdptPage, pdptIndex stack, process.pages .userStackPdPage ||| userTableFlags),
    (.userCodePdPage, pdIndex code, process.pages .userCodePtPage ||| userTableFlags),
    (.userStackPdPage, pdIndex stack, process.pages .userStackPtPage ||| userTableFlags)]

def writeUserPageTables (process : Process) (mem : ByteMemory) : ByteMemory :=
  let mem := writeEntries process.pages mem (processLinks process)
  let mem := fillEntries mem (process.pages .userCodePtPage) (ptIndex process.userCodeVirtual)
      (fun i => process.codePageAt i ||| process.codeFlagsAt i)
      process.userCodePageCount
  setEntry mem (process.pages .userStackPtPage) (ptIndex process.userStackVirtual)
    (process.pages .userStackPage ||| userStackFlags)

def buildUserPageTables (context : PagingContext) (w : SlotState) : SlotState :=
  let mem := writeUserPageTables w.process w.mem
  { w with
    mem := mem
    process :=
      { w.process with
        kernelMappingsReady := validateKernelMappings context w.process mem
        userPageTablesReady := validateUserPageTables context w.process mem } }

/- `clone_kernel_mappings` under an initialized context. -/
def cloneKernelMappings (context : PagingContext) (process : Process)
    (mem : ByteMemory) : ByteMemory :=
  let mem := copyPage mem (process.pages .cr3) context.sourcePml4Table
  let mem := copyPage mem (process.pages .userPdptPage) context.sourceIdentityPdptTable
  let mem := copyPage mem (process.pages .userCodePdPage) context.sourceIdentityPdTable
  setEntry mem (process.pages .cr3) context.identityPml4Index
    (process.pages .userPdptPage ||| userTableFlags)

def clearProcessPages (pages : SpacePage → Nat) (mem : ByteMemory) : ByteMemory :=
  addressSpacePages.foldl (fun mem p => clearPage mem (pages p)) mem

/- The fields of a fresh address space of one code page. -/
def Process.openAddressSpace (process : Process) (id : Nat) : Process :=
  { process with
    addressSpaceId := id
    userCodePageFlags := Function.update (fun _ => 0) 0 userCodeFlags
    userCodeVirtual := userCodeBase
    userStackVirtual := X64.userStackVirtual
    userCodePageCount := 1
    addressSpaceOwned := true }

def allocateAddressSpace (context : PagingContext) (w : SlotState) : Bool × SlotState :=
  let taken := takePages addressSpacePages w.process.pages w.pmm
  let w := { w.setPages taken.1 with pmm := taken.2 }
  if addressSpacePages.any fun p => taken.1 p == 0 then
    (false, releaseAddressSpace w)
  else
    let w :=
      { w with
        mem := clearProcessPages taken.1 w.mem
        nextAddressSpaceId := u64 (w.nextAddressSpaceId + 1)
        process := w.process.openAddressSpace w.nextAddressSpaceId }
    if context.initialized = false then
      (false, releaseAddressSpace w)
    else
      let w := buildUserPageTables context
          { w with mem := cloneKernelMappings context w.process w.mem }
      (w.process.kernelMappingsReady && w.process.userPageTablesReady, w)

/- The pages of a new process: address space and stack. -/
def allocateProcess (context : PagingContext) (w : SlotState) : Bool × SlotState :=
  let space := allocateAddressSpace context w
  if space.1 = false then
    (false, space.2)
  else
    let stack := allocateKernelStack space.2
    if stack.1 = false then
      (false, releaseAddressSpace (releaseKernelStack stack.2))
    else
      (true, stack.2)

----------
-- Table

namespace ProcessSystem

def slot (s : ProcessSystem) (i : Fin 64) : SlotState :=
  ⟨s.table i, s.nextAddressSpaceId, s.pmm, s.mem⟩

def setSlot (s : ProcessSystem) (i : Fin 64) (w : SlotState) : ProcessSystem :=
  { s with
    table := Function.update s.table i w.process
    nextAddressSpaceId := w.nextAddressSpaceId
    pmm := w.pmm
    mem := w.mem }

def setProcess (s : ProcessSystem) (i : Fin 64) (process : Process) : ProcessSystem :=
  { s with table := Function.update s.table i process }

def findUnusedProcess (s : ProcessSystem) : Option (Fin 64) := (List.finRange 64).find? fun i =>
    decide ((s.table i).state = .unused)

def findProcessByPid (s : ProcessSystem) (pid : Nat) : Option (Fin 64) :=
  (List.finRange 64).find? fun i =>
    decide ((s.table i).state ≠ .unused) && (s.table i).pid == pid

end ProcessSystem

def zeroCounters : ProcessCounters := ⟨false, 0, 0, 0, 0, 0, 0, 0, 0, 0, 0, 0, 0, 0, 0, 0⟩

def processInitialize (s : ProcessSystem) : ProcessSystem :=
  { s with
    table := fun _ => clearedProcess
    counters := { zeroCounters with initialized := true }
    nextPid := 1
    nextAddressSpaceId := 1
    kernelScheduleCursor := 0
    userScheduleCursor := 0
    childStatusQueue := [] }

----------
-- Creation

def copyName (name : List UInt8) : List UInt8 := name.take 23

def copyImagePath (path : List UInt8) : List UInt8 := path.take 63

/- Give the process of a slot the next pid. -/
def assignPid (s : ProcessSystem) (i : Fin 64) (w : SlotState)
    (fill : Process → Process) : ProcessSystem :=
  { s.setSlot i { w with
      process :=
        { fill w.process with
          pid := s.nextPid
          state := .ready
          exitCode := 0 } } with
    nextPid := u32 (s.nextPid + 1) }

def recordCreatedProcess (s : ProcessSystem) : ProcessSystem :=
  { s with
    counters := { s.counters with createdProcesses := u32 (s.counters.createdProcesses + 1) } }

def processCreate (name : List UInt8) (entry : Nat) (s : ProcessSystem) : Nat × ProcessSystem :=
  if s.counters.initialized = false ∨ entry = 0 then
    (0, s)
  else
    match s.findUnusedProcess with
    | none => (0, s)
    | some i =>
      let made := allocateProcess s.context (s.slot i)
      if made.1 = false then
        (0, s.setSlot i made.2)
      else
        (s.nextPid, recordCreatedProcess
            (assignPid s i made.2 fun process =>
              { process with
                mode := .kernel
                name := copyName name
                imagePath := []
                entry := entry
                userEntry := 0
                imageBytes := 0 }))

/- The arguments of `x86_64_process_create_user_image`. -/
structure UserImageRequest where
  path : List UInt8
  loadedCodePages : UInt64
  codeBytes : UInt64
  entry : UInt64
  pageCount : UInt32
  writablePageBitmap : UInt32
deriving DecidableEq, Repr

namespace UserImageRequest

def pageCountNat (request : UserImageRequest) : Nat := request.pageCount.toNat

def isValid (request : UserImageRequest) : Bool :=
  request.loadedCodePages != 0 && request.codeBytes != 0 &&
    decide (request.codeBytes.toNat ≤ 16384) &&
    request.pageCount != 0 &&
    decide (request.pageCountNat ≤ 4) &&
    decide (userCodeBase ≤ request.entry.toNat) &&
    decide (request.entry.toNat < userCodeBase + request.pageCountNat * 4096)

def pageWritable (request : UserImageRequest) (i : Nat) : Bool :=
  request.writablePageBitmap.toNat.testBit i

end UserImageRequest

def userCodeFlagsForBitmap (writable : Bool) : Nat :=
  if writable then userCodeFlags ||| 2 else userCodeFlags

/- The bytes of a code page that come from the image. -/
def codeCopySize (codeBytes i : Nat) : Nat :=
  let remaining := if i * 4096 < codeBytes then codeBytes - i * 4096 else 0
  if 4096 < remaining then 4096 else remaining

def loadCodePage (request : UserImageRequest) (w : SlotState) (i : Nat) : SlotState :=
  let page := w.process.codePageAt i
  { w with
    process :=
      { w.process with
        userCodePageFlags := Function.update w.process.userCodePageFlags (Fin.ofNat 4 i)
            (userCodeFlagsForBitmap (request.pageWritable i)) }
    mem := copyBytes (clearPage w.mem page) page (request.loadedCodePages.toNat + i * 4096)
        (codeCopySize request.codeBytes.toNat i) }

def loadCodePages (request : UserImageRequest) (w : SlotState) : SlotState :=
  (List.range request.pageCountNat).foldl (loadCodePage request) w

/- The process with its image, in front of its tables. -/
def openUserImage (request : UserImageRequest) (w : SlotState) : SlotState := loadCodePages request
    { w with
      process :=
        { w.process with
          userCodePageCount := request.pageCountNat
          userCodePageFlags := fun _ => 0 } }

def userProcessName : List UInt8 := textBytes "user-process"

def recordUserProcess (s : ProcessSystem) (process : Process) : ProcessSystem :=
  { s with
    counters :=
      { s.counters with
        userProcessesCreated := u32 (s.counters.userProcessesCreated + 1)
        lastUserPid := process.pid
        lastUserCr3 := process.pages .cr3 } }

def processCreateUserImage (request : UserImageRequest) (s : ProcessSystem) : Nat × ProcessSystem :=
  if s.counters.initialized = false ∨ request.isValid = false then
    (0, s)
  else
    match s.findUnusedProcess with
    | none => (0, s)
    | some i =>
      let made := allocateProcess s.context (s.slot i)
      if made.1 = false then
        (0, s.setSlot i made.2)
      else
        let assigned := assignPid s i made.2 fun process =>
            { process with
              mode := .user
              name := copyName userProcessName
              imagePath := copyImagePath request.path
              entry := 0
              userEntry := request.entry.toNat
              imageBytes := u32 request.codeBytes.toNat }
        let loaded := buildUserPageTables s.context (openUserImage request (assigned.slot i))
        if loaded.process.userPageTablesReady = false then
          (0, assigned.setSlot i (releaseAddressSpace (releaseKernelStack loaded)))
        else
          (s.nextPid,
            recordUserProcess (recordCreatedProcess (assigned.setSlot i loaded)) loaded.process)

----------
-- Kernel Scheduler

def readyKernel (process : Process) : Bool :=
  decide (process.state = .ready) && decide (process.mode = .kernel) && process.entry != 0

/- The index a scan reaches after some slots. -/
def scanIndex (cursor scanned : Nat) : Fin 64 := Fin.ofNat 64 (cursor + scanned)

def findNextReadyProcess (s : ProcessSystem) : Option (Fin 64) × ProcessSystem :=
  let found :=
    ((List.range 64).map (scanIndex s.kernelScheduleCursor)).find? fun i => readyKernel (s.table i)
  match found with
  | none =>
    (none, { s with
      counters := { s.counters with kernelSchedulerCursor := s.kernelScheduleCursor } })
  | some i =>
    let cursor := (i.val + 1) % 64
    (some i, { s with
      kernelScheduleCursor := cursor
      counters :=
        { s.counters with
          kernelSchedulerSelections := u32 (s.counters.kernelSchedulerSelections + 1)
          kernelSchedulerCursor := cursor } })

def ProcessSystem.setState (s : ProcessSystem) (i : Fin 64)
    (state : ProcessStateCode) : ProcessSystem :=
  s.setProcess i { s.table i with state := state }

/- What `x86_64_process_run_next_ready` does before an entry. -/
inductive RunStart
| idle (s : ProcessSystem)
| refused (s : ProcessSystem)
| entered (i : Fin 64) (s : ProcessSystem)

def runnable (process : Process) : Bool := process.entry != 0 && process.kernelStackTop != 0 &&
    process.addressSpaceOwned && process.pages .cr3 != 0 &&
    process.kernelMappingsReady

def startNextReady (s : ProcessSystem) : RunStart :=
  match findNextReadyProcess s with
  | (none, s) => .idle s
  | (some i, s) =>
    let s := s.setState i .running
    if runnable (s.table i) = false then .refused (s.setState i .failed) else .entered i s

/- What it does after the entry has returned. -/
def finishRun (i : Fin 64) (s : ProcessSystem) : ProcessSystem :=
  s.setProcess i { s.table i with state := .exited, exitCode := 0 }

----------
-- Exit And Reaping

def processMarkUserExited (pid exitCode : Nat) (s : ProcessSystem) : Bool × ProcessSystem :=
  match s.findProcessByPid pid with
  | none => (false, s)
  | some i =>
    let process := s.table i
    if process.mode ≠ .user then
      (false, s)
    else
      let exited := if process.state ≠ .exited then
          u32 (s.counters.userProcessesExited + 1)
        else
          s.counters.userProcessesExited
      (true, { s.setProcess i
          { process with
            state := .exited
            exitCode := exitCode } with
        counters := { s.counters with userProcessesExited := exited } })

def reapable (process : Process) : Bool := decide (process.mode = .user) &&
    (decide (process.state = .exited) || decide (process.state = .failed))

def processReapUser (pid : Nat) (s : ProcessSystem) : Bool × ProcessSystem :=
  let refuse : ProcessSystem :=
    { s with
      counters := { s.counters with reapFailures := u32 (s.counters.reapFailures + 1) } }
  match s.findProcessByPid pid with
  | none => (false, refuse)
  | some i =>
    if reapable (s.table i) = false then
      (false, refuse)
    else
      let released := releaseProcessResources (s.slot i)
      (true, { s.setSlot i
          { released with process := clearedProcess } with
        counters :=
          { s.counters with userProcessesReaped := u32 (s.counters.userProcessesReaped + 1) } })

/- One turn of the reaping loop. -/
def reapSlot (s : ProcessSystem) (i : Fin 64) : ProcessSystem := if reapable (s.table i) then
    (processReapUser (s.table i).pid s).2
  else
    s

def processReapExitedUserProcesses (s : ProcessSystem) : ProcessSystem :=
  (List.finRange 64).foldl reapSlot s

----------
-- Children

def childStatusQueueCapacity : Nat := 16

def processRecordChildExit (parentPid childPid exitCode : Nat)
    (s : ProcessSystem) : Bool × ProcessSystem :=
  if parentPid = 0 ∨ childPid = 0 ∨ parentPid = childPid then
    (false, s)
  else
    let full := decide (childStatusQueueCapacity ≤ s.childStatusQueue.length)
    let queue := if full then s.childStatusQueue.eraseIdx 0 else s.childStatusQueue
    (true, { s with
      childStatusQueue := queue ++ [⟨parentPid, childPid, exitCode⟩]
      counters :=
        { s.counters with
          completedChildRecords := u32 (s.counters.completedChildRecords + 1)
          completedChildDrops := if full then
              u32 (s.counters.completedChildDrops + 1)
            else
              s.counters.completedChildDrops } })

def processWaitChild (parentPid : Nat) (s : ProcessSystem) : Option ChildStatus × ProcessSystem :=
  if parentPid = 0 then
    (none, s)
  else
    match s.childStatusQueue.findIdx? fun c =>
      c.parentPid == parentPid with
    | none =>
      (none, { s with
        counters := { s.counters with waitMisses := u32 (s.counters.waitMisses + 1) } })
    | some index =>
      (s.childStatusQueue[index]?, { s with
        childStatusQueue := s.childStatusQueue.eraseIdx index
        counters :=
          { s.counters with completedChildWaits := u32 (s.counters.completedChildWaits + 1) } })

end LiamOS.X64
