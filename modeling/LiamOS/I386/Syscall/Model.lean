import LiamOS.I386.Files

/-
  The system calls of the i386 kernel, `core/kernel/core/ syscall.c`, with what they call in
  `fd_table.c`, `exec.c`, `user_image.c` and `process.c`.

  User addresses are followed in one address space: the two user pages and whatever lies beside
  them. Every byte read or written through such an address is also put on record. The kernel's own
  data is not part of that address space.

  Key definitions: `Access`, `SyscallKernel`, `syscallUserBufferIsValid`, `syscallCopyFromUser`,
  `syscallCopyToUser`, `syscallCopyUserString`, `fdTableOpenCurrent`, `fdTableReadCurrent`,
  `fdTableCloseCurrent`, `processConfigureArguments`, `execCreateWithArgs`, `syscallDispatch`.
-/

namespace LiamOS.I386

open Word

----------
-- Data

/- The values of `status.h`. -/
def KernelStatus.value : KernelStatus → Int
| .ok => 0
| .unknown => -1
| .invalidArgument => -2
| .notFound => -3
| .outOfMemory => -4
| .alreadyExists => -5
| .notInitialized => -6
| .busy => -7
| .permissionDenied => -8
| .unsupported => -9
| .invalidState => -10
| .corruptionDetected => -11
| .timeout => -12

/- A status as the word a system call returns. -/
def KernelStatus.word (status : KernelStatus) : Nat := (status.value % 4294967296).toNat

/- A byte read or written through a user address. -/
inductive Access
| read (address : Nat)
| write (address : Nat) (byte : UInt8)
deriving DecidableEq, Repr

/-
  `name`, `argv` and `files` are the fields of the process table that `ProcessKernel` leaves out;
  the length of `argv` is `argc`. `otherMemory` is what lies at addresses outside the two user
  pages.
-/
structure SyscallKernel where
  processes : ProcessKernel
  name : Fin 16 → List UInt8
  argv : Fin 16 → List (List UInt8)
  files : Fin 16 → Fin 16 → OpenFile
  fdTableInitialized : Bool
  vfs : Vfs
  ticks : Nat
  screen : List UInt8
  otherMemory : Nat → UInt8
  accesses : List Access

def syscallWriteMaxBytes : Nat := 4096

def syscallCopyChunkMax : Nat := 512

def processArgumentMax : Nat := 64

def processArgumentLineMax : Nat := 128

def processMaxArguments : Nat := 8

def processNameMax : Nat := 32

def processImagePathMax : Nat := 64

----------
-- The Address Space

/- The index of an address in a page, if it lies there. -/
def pageIndex (page address : Nat) : Option (Fin 4096) :=
  if hIn : page ≤ address ∧ address < page + 4096 then some ⟨address - page, by omega⟩ else none

/- The byte at an address. -/
def SyscallKernel.load (s : SyscallKernel) (address : Nat) : UInt8 :=
  match pageIndex ring3UserCodeVirtual address with
  | some i => s.processes.codePage i
  | none =>
    match pageIndex ring3UserStackVirtual address with
    | some i => s.processes.stackPage i
    | none => s.otherMemory address

def SyscallKernel.store (s : SyscallKernel) (address : Nat) (byte : UInt8) : SyscallKernel :=
  match pageIndex ring3UserCodeVirtual address with
  | some i =>
    { s with
      processes := { s.processes with codePage := s.processes.codePage.set i byte } }
  | none =>
    match pageIndex ring3UserStackVirtual address with
    | some i =>
      { s with
        processes := { s.processes with stackPage := s.processes.stackPage.set i byte } }
    | none =>
      { s with otherMemory := Function.update s.otherMemory address byte }

def SyscallKernel.record (s : SyscallKernel) (access : Access) : SyscallKernel :=
  { s with accesses := s.accesses ++ [access] }

/- Read a byte through a user address. -/
def SyscallKernel.readUser (s : SyscallKernel) (address : Nat) : UInt8 × SyscallKernel :=
  (s.load address, s.record (.read address))

/- Write a byte through a user address. -/
def SyscallKernel.writeUser (s : SyscallKernel) (address : Nat) (byte : UInt8) : SyscallKernel :=
  (s.store address byte).record (.write address byte)

----------
-- Copies

def syscallUserRangeContains (address length rangeStart rangeLength : Nat) : Bool :=
  if length = 0 then
    true
  else
    let rangeEnd := u32 (rangeStart + rangeLength - 1)
    let endAddress := u32 (address + length - 1)
    if endAddress < address then
      false
    else
      decide (rangeStart ≤ address) && decide (endAddress ≤ rangeEnd)

def syscallUserBufferIsValid (address length : Nat) : Bool := if address = 0 ∨ length = 0 then
    false
  else if syscallUserRangeContains address length ring3UserCodeVirtual ring3UserPageSize then
    true
  else if syscallUserRangeContains address length ring3UserStackVirtual ring3UserPageSize then
    true
  else
    false

/- The loop that reads a number of bytes. -/
def readUserBytes : Nat → Nat → SyscallKernel → List UInt8 × SyscallKernel
| 0, _, s => ([], s)
| n + 1, address, s =>
    let (byte, s₁) := s.readUser address
    let (bytes, s₂) := readUserBytes n (u32 (address + 1)) s₁
    (byte :: bytes, s₂)

/- The loop that writes bytes. -/
def writeUserBytes : List UInt8 → Nat → SyscallKernel → SyscallKernel
| [], _, s => s
| byte :: bytes, address, s => writeUserBytes bytes (u32 (address + 1)) (s.writeUser address byte)

def syscallCopyFromUser (source length : Nat) (s : SyscallKernel) :
    Except KernelStatus (List UInt8) × SyscallKernel :=
  if length = 0 then
    (.ok [], s)
  else if !syscallUserBufferIsValid source length then
    (.error .permissionDenied, s)
  else
    let (bytes, s₁) := readUserBytes length source s
    (.ok bytes, s₁)

def syscallCopyToUser (destination : Nat) (source : List UInt8)
    (s : SyscallKernel) : KernelStatus × SyscallKernel :=
  if source.length = 0 then
    (.ok, s)
  else if !syscallUserBufferIsValid destination source.length then
    (.permissionDenied, s)
  else
    (.ok, writeUserBytes source destination s)

/- The loop of `syscall_copy_user_string`. -/
def copyUserStringLoop :
    Nat → Nat → SyscallKernel → Except KernelStatus (List UInt8) × SyscallKernel
| 0, _, s => (.error .invalidArgument, s)
| n + 1, address, s =>
    if !syscallUserBufferIsValid address 1 then
      (.error .permissionDenied, s)
    else
      let (byte, s₁) := s.readUser address
      if byte = 0 then
        (.ok [], s₁)
      else
        let (text, s₂) := copyUserStringLoop n (u32 (address + 1)) s₁
        (text.map (byte :: ·), s₂)

def syscallCopyUserString (source maxLength : Nat) (s : SyscallKernel) :
    Except KernelStatus (List UInt8) × SyscallKernel :=
  if source = 0 ∨ maxLength = 0 then
    (.error .invalidArgument, s)
  else
    copyUserStringLoop maxLength source s

----------
-- Files of the Current Process

def SyscallKernel.setFile (s : SyscallKernel) (slot fd : Fin 16)
    (file : OpenFile) : SyscallKernel :=
  { s with files := Function.update s.files slot (Function.update (s.files slot) fd file) }

def fdTableAllocateSlot (files : Fin 16 → OpenFile) : Option (Fin 16) :=
  (List.finRange 16).find? fun fd =>
    decide (fdFirstProcessFile ≤ fd.val) && !(files fd).used

def fdTableOpenCurrent (path : List UInt8) (flags : Nat) (s : SyscallKernel) :
    Except KernelStatus Nat × SyscallKernel :=
  if !s.fdTableInitialized then
    (.error .notInitialized, s)
  else
    match s.processes.currentProcess with
    | none => (.error .invalidArgument, s)
    | some slot =>
      match vfsLookup s.vfs path with
      | .error status => (.error status, s)
      | .ok node =>
        if node.type ≠ .file then
          (.error .invalidState, s)
        else
          match fdTableAllocateSlot (s.files slot) with
          | none => (.error .outOfMemory, s)
          | some fd =>
            (.ok fd.val, s.setFile slot fd
                { used := true
                  node := some node
                  offset := 0
                  flags := flags })

/- The open file behind a descriptor. -/
def SyscallKernel.openFile? (s : SyscallKernel) (slot : Fin 16) (fd : Nat) : Option (Fin 16) :=
  if hFd : fd < 16 then
    if fd < fdFirstProcessFile ∨ (s.files slot ⟨fd, hFd⟩).used = false then none else some ⟨fd, hFd⟩
  else
    none

def fdTableReadCurrent (fd length : Nat) (s : SyscallKernel) :
    Except KernelStatus (List UInt8) × SyscallKernel :=
  if !s.fdTableInitialized then
    (.error .notInitialized, s)
  else
    match s.processes.currentProcess with
    | none => (.error .invalidArgument, s)
    | some slot =>
      match s.openFile? slot fd with
      | none => (.error .invalidArgument, s)
      | some fd =>
        match (s.files slot fd).node with
        | none => (.error .invalidState, s)
        | some node =>
          if node.type ≠ .file then
            (.error .invalidState, s)
          else
            match vfsReadNode s.vfs node (s.files slot fd).offset length with
            | .error status => (.error status, s)
            | .ok bytes =>
              (.ok bytes, s.setFile slot fd
                  { s.files slot fd with offset := u32 ((s.files slot fd).offset + bytes.length) })

def fdTableCloseCurrent (fd : Nat) (s : SyscallKernel) : KernelStatus × SyscallKernel :=
  if !s.fdTableInitialized then
    (.notInitialized, s)
  else
    match s.processes.currentProcess with
    | none => (.invalidArgument, s)
    | some slot =>
      match s.openFile? slot fd with
      | none => (.invalidArgument, s)
      | some fd => (.ok, s.setFile slot fd closedFile)

----------
-- Arguments

def isBlank (byte : UInt8) : Bool := byte == 0x20 || byte == 0x09

def stringTrimLeft (text : List UInt8) : List UInt8 := text.dropWhile isBlank

/- What `string_copy` leaves in a buffer of a given size. -/
def stringCopy (text : List UInt8) (maxLength : Nat) : List UInt8 := text.take (maxLength - 1)

/- The bytes `string_copy_until_space` copies. -/
def stringCopyUntilSpace (text : List UInt8) (maxLength : Nat) : List UInt8 :=
  (text.takeWhile fun byte => !isBlank byte).take (maxLength - 1)

/- The loop of `process_configure_arguments` for a number of free entries of `argv`. -/
def splitArguments : Nat → List UInt8 → List (List UInt8)
| 0, _ => []
| entries + 1, cursor =>
    if cursor = [] then
      []
    else
      let word := stringCopyUntilSpace cursor processArgumentMax
      if word.length = 0 then
        []
      else
        word :: splitArguments entries (stringTrimLeft (cursor.drop word.length))

/- The `argv` of a process for an argument line. -/
def processConfigureArguments (name : List UInt8)
    (arguments : Option (List UInt8)) : List (List UInt8) :=
  let first := stringCopy name processArgumentMax
  match arguments with
  | none => [first]
  | some line =>
    let cursor := stringTrimLeft line
    if cursor = [] then
      [first]
    else
      let kept := stringCopy cursor processArgumentLineMax
      first :: splitArguments (processMaxArguments - 1) (stringTrimLeft kept)

def processGetCurrentArgc (s : SyscallKernel) : Nat :=
  match s.processes.currentProcess with
  | none => 0
  | some slot => (s.argv slot).length

def processGetCurrentArgument (index length : Nat)
    (s : SyscallKernel) : Except KernelStatus (List UInt8) :=
  match s.processes.currentProcess with
  | none => .error .invalidArgument
  | some slot =>
    if length = 0 then
      .error .invalidArgument
    else
      match (s.argv slot)[index]? with
      | none => .error .notFound
      | some argument => if length < argument.length + 1 then .error .unsupported else .ok argument

----------
-- Starting Programs

/- The bytes of a text of the source. -/
def bytesOf (text : String) : List UInt8 := text.toList.map fun c => UInt8.ofNat c.toNat

/- `registered_images`: paths and names. -/
def registeredImages : List (List UInt8 × List UInt8) :=
  [("/sbin/init", "init"), ("/bin/hello", "hello"), ("/bin/hello-elf", "hello-elf"),
    ("/bin/syscheck", "syscheck"),
    ("/bin/sysbadptr", "sysbadptr"), ("/bin/pid", "pid"),
    ("/bin/ticks", "ticks"), ("/bin/about", "about"),
    ("/bin/os-release", "os-release"), ("/bin/cat", "cat"),
    ("/bin/clear", "clear"), ("/bin/help", "help"),
    ("/bin/uptime", "uptime"), ("/bin/args", "args"),
    ("/bin/echo", "echo"), ("/bin/sh", "sh")].map fun image => (bytesOf image.1, bytesOf image.2)

/- The name of the image registered under a path. -/
def userImageLookup (vfs : Vfs) (path : List UInt8) : Except KernelStatus (List UInt8) :=
  match registeredImages.find? fun image =>
      image.1 = path with
  | none => .error .notFound
  | some image =>
    match vfsLookup vfs image.1 with
    | .error status => .error status
    | .ok node => if node.type ≠ .file then .error .invalidState else .ok image.2

/- The process is created, given its image path and its arguments; the result is its pid. -/
def execCreateWithArgs (path : List UInt8) (arguments : Option (List UInt8)) (s : SyscallKernel) :
    Except KernelStatus Nat × SyscallKernel :=
  match userImageLookup s.vfs path with
  | .error status => (.error status, s)
  | .ok name =>
    match processCreate s.processes ring3UserCodeVirtual ring3UserStackVirtual,
      processFindFreeSlot s.processes with
    | (.ok, processes), some slot =>
      let name := stringCopy name processNameMax
      (.ok s.processes.nextPid,
        { s with
          processes :=
            processConfigureImagePath processes slot (stringCopy path processImagePathMax)
          name := Function.update s.name slot name
          argv := Function.update s.argv slot (processConfigureArguments name arguments)
          files := Function.update s.files slot fun _ => closedFile })
    | (status, _), _ => (.error status, s)

----------
-- Services

/- The loop of `syscall_write`, for at most so many turns. -/
def syscallWriteLoop : Nat → Nat → Nat → Nat → SyscallKernel → Nat × SyscallKernel
| 0, _, _, totalWritten, s => (totalWritten, s)
| turns + 1, buffer, length, totalWritten, s =>
    if totalWritten < length then
      let chunkLength := length - totalWritten
      let chunkLength := if syscallCopyChunkMax < chunkLength then
          syscallCopyChunkMax
        else
          chunkLength
      match syscallCopyFromUser (u32 (buffer + totalWritten)) chunkLength s with
      | (.error status, s₁) => (status.word, s₁)
      | (.ok bytes, s₁) =>
        syscallWriteLoop turns buffer length (totalWritten + chunkLength)
          { s₁ with screen := s₁.screen ++ bytes }
    else
      (totalWritten, s)

def syscallWrite (buffer length : Nat) (s : SyscallKernel) : Nat × SyscallKernel :=
  if buffer = 0 ∨ length = 0 then
    (0, s)
  else
    let length := if syscallWriteMaxBytes < length then syscallWriteMaxBytes else length
    syscallWriteLoop (length + 1) buffer length 0 s

def syscallOpen (path flags : Nat) (s : SyscallKernel) : Nat × SyscallKernel :=
  match syscallCopyUserString path vfsPathMax s with
  | (.error status, s₁) => (status.word, s₁)
  | (.ok kernelPath, s₁) =>
    match fdTableOpenCurrent kernelPath flags s₁ with
    | (.error status, s₂) => (status.word, s₂)
    | (.ok fd, s₂) => (fd, s₂)

def syscallRead (fd buffer length : Nat) (s : SyscallKernel) : Nat × SyscallKernel :=
  if length = 0 then
    (0, s)
  else
    let readLength := if syscallCopyChunkMax < length then syscallCopyChunkMax else length
    if !syscallUserBufferIsValid buffer readLength then
      (KernelStatus.permissionDenied.word, s)
    else
      match fdTableReadCurrent fd readLength s with
      | (.error status, s₁) => (status.word, s₁)
      | (.ok bytes, s₁) =>
        match syscallCopyToUser buffer bytes s₁ with
        | (.ok, s₂) => (bytes.length, s₂)
        | (status, s₂) => (status.word, s₂)

def syscallClose (fd : Nat) (s : SyscallKernel) : Nat × SyscallKernel :=
  ((fdTableCloseCurrent fd s).1.word, (fdTableCloseCurrent fd s).2)

def syscallStat (path outStat : Nat) (s : SyscallKernel) : Nat × SyscallKernel :=
  match syscallCopyUserString path vfsPathMax s with
  | (.error status, s₁) => (status.word, s₁)
  | (.ok kernelPath, s₁) =>
    match vfsStatPath s₁.vfs kernelPath with
    | .error status => (status.word, s₁)
    | .ok stat =>
      ((syscallCopyToUser outStat stat.bytes s₁).1.word,
        (syscallCopyToUser outStat stat.bytes s₁).2)

def syscallGetArg (index buffer length : Nat) (s : SyscallKernel) : Nat × SyscallKernel :=
  if length = 0 then
    (KernelStatus.invalidArgument.word, s)
  else
    match processGetCurrentArgument index processArgumentMax s with
    | .error status => (status.word, s)
    | .ok argument =>
      if length < argument.length + 1 then
        (KernelStatus.unsupported.word, s)
      else
        match syscallCopyToUser buffer (argument ++ [0]) s with
        | (.ok, s₁) => (argument.length, s₁)
        | (status, s₁) => (status.word, s₁)

/- The argument line of `syscall_exec`, if one is given. -/
def copyExecArguments (arguments : Nat) (s : SyscallKernel) :
    Except KernelStatus (Option (List UInt8)) × SyscallKernel :=
  if arguments = 0 then
    (.ok none, s)
  else
    let (line, s₁) := syscallCopyUserString arguments processArgumentLineMax s
    (line.map some, s₁)

def syscallExec (path arguments : Nat) (s : SyscallKernel) : Nat × SyscallKernel :=
  match syscallCopyUserString path vfsPathMax s with
  | (.error status, s₁) => (status.word, s₁)
  | (.ok kernelPath, s₁) =>
    match copyExecArguments arguments s₁ with
    | (.error status, s₂) => (status.word, s₂)
    | (.ok kernelArguments, s₂) =>
      match execCreateWithArgs kernelPath kernelArguments s₂ with
      | (.error status, s₃) => (status.word, s₃)
      | (.ok pid, s₃) => (pid, s₃)

/- The argument of EXIT as a signed number. -/
def signedWord (word : Nat) : Int := if word < 2147483648 then word else word - 4294967296

def syscallDispatch (number arg1 arg2 arg3 : Nat) (s : SyscallKernel) : Nat × SyscallKernel :=
  match number with
  | 1 =>
    (KernelStatus.ok.word, { s with processes := processMarkExit s.processes (signedWord arg1) })
  | 2 => syscallWrite arg1 arg2 s
  | 3 => (s.ticks, s)
  | 4 => (KernelStatus.ok.word, s)
  | 5 => (processGetCurrentPid s.processes, s)
  | 6 => syscallOpen arg1 arg2 s
  | 7 => syscallRead arg1 arg2 arg3 s
  | 8 => syscallClose arg1 s
  | 9 => syscallStat arg1 arg2 s
  | 10 => (processGetCurrentArgc s, s)
  | 11 => syscallGetArg arg1 arg2 arg3 s
  | 12 => syscallExec arg1 arg2 s
  | _ => (KernelStatus.unsupported.word, s)

end LiamOS.I386
