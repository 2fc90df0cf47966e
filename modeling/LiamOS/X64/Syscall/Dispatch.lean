import LiamOS.X64.Exec.Image
import LiamOS.X64.Reports

/-
  The system calls of the x86_64 kernel, `x86_64_syscall_dispatch` of
  `kernel/arch/x86_64/syscall_dispatch.h`.

  The kernel runs on the tables of its caller, so an argument is used as an address. What it reads
  there is a parameter; what it writes there is listed, and the range checks keep these addresses
  from wrapping around. Interrupts are masked during a call: the serial line is the only device
  whose state changes while READ waits. Flags of the dispatcher that are only reported are left
  out.

  Key definitions: `SyscallService`, `SyscallCall`, `SyscallEnv`, `DispatchState`,
  `DispatchSystem`, `SyscallOutcome`, `syscallDispatchInit`, `initializeLiveDispatcher`,
  `userRangeOk`, `userPathOk`, `syscallDispatch`.
-/

namespace LiamOS.X64

open Word BoundedText

----------
-- Calls

def syscallRetOk : Nat := 0

def syscallRetEfault : Nat := 0xFFFFFFFFFFFFFFF2

def syscallRetEinval : Nat := 0xFFFFFFFFFFFFFFEA

def syscallRetEnoent : Nat := 0xFFFFFFFFFFFFFFFE

def syscallRetEnosys : Nat := 0xFFFFFFFFFFFFFFDA

inductive SyscallService
| exit
| write
| openFile
| read
| close
| stat
| getArg
| exec
| getpid
| yield
| ps
| wait
| desktopStatus
| windowPresent
| ticks
| sleepTicks
| inputStatus
| inputEvents
| spawn
deriving DecidableEq, Repr

/- The numbers of `syscall.h`. -/
def syscallService : Nat → Option SyscallService
| 1 => some .exit
| 2 => some .write
| 3 => some .openFile
| 4 => some .read
| 5 => some .close
| 6 => some .stat
| 7 => some .getArg
| 8 => some .exec
| 9 => some .getpid
| 10 => some .yield
| 11 => some .ps
| 12 => some .wait
| 13 => some .desktopStatus
| 14 => some .windowPresent
| 15 => some .ticks
| 16 => some .sleepTicks
| 17 => some .inputStatus
| 18 => some .inputEvents
| 19 => some .spawn
| _ => none

/- The registers of a call. The last three are not used. -/
structure SyscallCall where
  number : UInt64
  arg0 : UInt64
  arg1 : UInt64
  arg2 : UInt64
  arg3 : UInt64
  arg4 : UInt64
  arg5 : UInt64

/-
  What a call finds around it: the bytes at the addresses of its caller, the buffer paths are
  normalised in, what the serial line has ready at each look, the tick counter behind a wait and
  whether a window could be drawn.
-/
structure SyscallEnv where
  images : VfsImages
  view : ByteMemory
  scratch : ByteBuffer
  serial : List (List UInt8)
  ticksAfter : Nat
  drawn : Bool

----------
-- State

structure DispatchState where
  currentPid : Nat
  dispatchCalls : Nat
  lastSyscall : Nat
  lastResult : Nat
  openFileCount : Nat
  exitCode : Nat
  yieldCount : Nat
  writeOutputEnabled : Bool
  blockingReadEnabled : Bool
  blockingReadSpins : Nat
  inputEventCursor : Nat
  execProcessCreated : Bool
  execCr3SwitchRequested : Bool
  execSpawnedPid : Nat
  execTargetCr3 : Nat
  spawnSpawnedPid : Nat
  exec : ExecState
  vfs : VfsState

/- The dispatcher with the parts of the kernel it calls. -/
structure DispatchSystem where
  state : DispatchState
  session : SessionStorage
  keyboard : KeyboardDriver
  timer : TimerState
  desktop : DesktopServices
  processes : ProcessSystem
  serialOutput : List UInt8
  shellInteractiveRequested : Bool

/-
  The value a call returns, or none while it still waits, and the bytes stored at addresses of the
  caller.
-/
structure SyscallOutcome where
  result : Option Nat
  stores : List (Nat × UInt8)
  system : DispatchSystem

namespace DispatchSystem

def reply (s : DispatchSystem) (value : Nat) (stores : List (Nat × UInt8)) : SyscallOutcome where
  result := some value
  stores := stores
  system := { s with state := { s.state with lastResult := value } }

/- What the desktop services look at. -/
def desktopSources (s : DispatchSystem) (env : SyscallEnv) : DesktopSources where
  images := env.images
  scratch := env.scratch
  session := s.session
  timer := s.timer
  timerTicks := s.keyboard.timerTicks
  keyboard := (keyboardGetState s.keyboard).1

end DispatchSystem

/- Bytes at an address and those behind it. -/
def storesAt (address : Nat) (bytes : List UInt8) : List (Nat × UInt8) :=
  bytes.zipIdx.map fun (byte, i) => (address + i, byte)

/- The stores of a report whose buffer is at an address. -/
def storesFrom (address : Nat) (stores : List (Nat × UInt8)) : List (Nat × UInt8) :=
  stores.map fun (i, byte) => (address + i, byte)

/- `x86_64_syscall_dispatch_init`. -/
def syscallDispatchInit (currentPid : Nat) (k : KeyboardDriver) : DispatchState where
  currentPid := currentPid
  dispatchCalls := 0
  lastSyscall := 0
  lastResult := 0
  openFileCount := vfsOpenCount vfsInit
  exitCode := 0
  yieldCount := 0
  writeOutputEnabled := false
  blockingReadEnabled := false
  blockingReadSpins := 0
  inputEventCursor := inputEventLatestSequence k
  execProcessCreated := false
  execCr3SwitchRequested := false
  execSpawnedPid := 0
  execTargetCr3 := 0
  spawnSpawnedPid := 0
  exec :=
    { execUserCodePage := 0
      execUserImagePages := fun _ => 0
      execUserImagePageCount := 0
      execUserWritablePageBitmap := 0
      execUserImageBytes := 0
      execEntry := 0
      execLoaded := false }
  vfs := vfsInit

/-
  `initialize_live_dispatcher` of `user_mode.c`; `staging` is the address of
  `active_exec_user_image_pages`.
-/
def initializeLiveDispatcher (staging currentPid : Nat) (k : KeyboardDriver) : DispatchState :=
  let state := syscallDispatchInit currentPid k
  { state with
    exec :=
      { state.exec with
        execUserCodePage := staging
        execUserImagePages := fun i =>
          if i < userImageMaxPages then staging + i * 4096 else 0 }
    writeOutputEnabled := true
    blockingReadEnabled := true }

----------
-- Checks

def userCanonicalLimit : Nat := 0x800000000000

def userRangeOk (address size : Nat) : Bool := if size = 0 then
    true
  else if address < userCodeBase then
    false
  else
    let stop := u64 (address + size)
    if stop < address then
      false
    else if userCanonicalLimit < stop then false else true

/- The loop over the bytes of a string, from an index on. -/
def userCstringValid (view : ByteMemory) (userAddress : Nat) : Nat → Nat → Bool
| 0, _ => false
| turns + 1, i =>
    if userRangeOk (u64 (userAddress + i)) 1 = false then
      false
    else if view (u64 (userAddress + i)) = 0 then
      true
    else
      userCstringValid view userAddress turns (i + 1)

def userPathOk (view : ByteMemory) (userPath : Nat) : Bool :=
  userRangeOk userPath 1 && userCstringValid view userPath vfsPathMaxBytes 0

/- The string at an address, in front of its terminator. -/
def stringAt (view : ByteMemory) (address : Nat) : List UInt8 :=
  ((List.range vfsPathMaxBytes).map fun i =>
    view (address + i)).takeWhile (· ≠ 0)

def bufferAt (view : ByteMemory) (address : Nat) : ByteBuffer := fun i => view (address + i)

----------
-- Files

/- Each byte is written as a string, so a zero byte is not. -/
def writeSerial (view : ByteMemory) (buffer size : Nat) : List UInt8 :=
  let limit := if 1024 < size then 1024 else size
  ((List.range limit).map fun i => view (buffer + i)).filter (· ≠ 0)

def sysWrite (env : SyscallEnv) (arg0 arg1 arg2 : Nat) (s : DispatchSystem) : SyscallOutcome :=
  if userRangeOk arg1 arg2 = false then
    s.reply syscallRetEfault []
  else if arg0 = 1 ∨ arg0 = 2 then
    let s := if s.state.writeOutputEnabled then
        { s with serialOutput := s.serialOutput ++ writeSerial env.view arg1 arg2 }
      else
        s
    s.reply arg2 []
  else
    let (reply, session, vfs) :=
      vfsWrite env.images arg0 (if arg1 = 0 then none else some (bufferAt env.view arg1))
        arg2 s.session s.state.vfs
    { s with
      session := session
      state := { s.state with vfs := vfs } }.reply reply.value []

def sysOpen (env : SyscallEnv) (arg0 arg1 : Nat) (s : DispatchSystem) : SyscallOutcome :=
  if userPathOk env.view arg0 = false then
    s.reply syscallRetEfault []
  else
    let (reply, session, vfs) :=
      vfsOpen env.images (some (bufferAt env.view arg0)) env.scratch arg1 s.session s.state.vfs
    { s with
      session := session
      state :=
        { s.state with
          vfs := vfs
          openFileCount := vfsOpenCount vfs } }.reply
      reply.value []

/- `ready` is what the line hands over before it is empty. -/
def serialRead (buffer size : Nat) (ready : List UInt8) : List UInt8 :=
  if buffer = 0 ∨ size = 0 then [] else ready.take size

def readStdin (buffer size : Nat) (ready : List UInt8)
    (k : KeyboardDriver) : List UInt8 × KeyboardDriver :=
  match keyboardRead buffer size k with
  | (bytes, k) =>
    if bytes.length < size then
      (bytes ++ serialRead (buffer + bytes.length) (size - bytes.length) ready, k)
    else
      (bytes, k)

/- The waiting loop, for as long as the line is looked at. -/
def pollStdin (buffer size : Nat) :
    List (List UInt8) → Nat → KeyboardDriver → Option (List UInt8) × Nat × KeyboardDriver
| [], spins, k => (none, spins, k)
| ready :: serial, spins, k =>
    match readStdin buffer size ready k with
    | ([], k) => pollStdin buffer size serial (u32 (spins + 1)) k
    | (byte :: bytes, k) => (some (byte :: bytes), spins, k)

def readStdinBlocking (buffer size : Nat) (serial : List (List UInt8)) (spins : Nat)
    (k : KeyboardDriver) :
    Option (List UInt8) × Nat × KeyboardDriver :=
  if size = 0 then (some [], spins, k) else pollStdin buffer size serial spins k

def sysRead (env : SyscallEnv) (arg0 arg1 arg2 : Nat) (s : DispatchSystem) : SyscallOutcome :=
  if userRangeOk arg1 arg2 = false then
    s.reply syscallRetEfault []
  else if arg0 = 0 then
    if s.state.blockingReadEnabled then
      match readStdinBlocking arg1 arg2 env.serial s.state.blockingReadSpins s.keyboard with
      | (some bytes, spins, k) =>
        { s with
          keyboard := k
          state := { s.state with blockingReadSpins := spins } }.reply
          bytes.length (storesAt arg1 bytes)
      | (none, spins, k) =>
        ⟨none, [],
          { s with
            keyboard := k
            state := { s.state with blockingReadSpins := spins } }⟩
    else
      match readStdin arg1 arg2 (env.serial.headD []) s.keyboard with
      | (bytes, k) =>
        { s with keyboard := k }.reply bytes.length
          (storesAt arg1 bytes)
  else
    match vfsRead env.images arg0 (decide (arg1 ≠ 0)) arg2 s.session s.state.vfs with
    | (reply, vfs) =>
      { s with state := { s.state with vfs := vfs } }.reply
        reply.value (storesAt arg1 reply.bytes)

def sysClose (arg0 : Nat) (s : DispatchSystem) : SyscallOutcome :=
  match vfsClose arg0 s.state.vfs with
  | (reply, vfs) =>
    { s with
      state :=
        { s.state with
          vfs := vfs
          openFileCount := vfsOpenCount vfs } }.reply
      reply.value []

def sysStat (env : SyscallEnv) (arg0 arg1 : Nat) (s : DispatchSystem) : SyscallOutcome :=
  if userPathOk env.view arg0 = false ∨ userRangeOk arg1 8 = false then
    s.reply syscallRetEfault []
  else
    let reply := vfsStat env.images (bufferAt env.view arg0) env.scratch s.session
    s.reply reply.value (storesAt arg1 reply.bytes)

/- As much of the text as fits in front of a terminator. -/
def copyStringArg (buffer size : Nat) (value : List UInt8) : Nat × List UInt8 :=
  if buffer = 0 ∨ size = 0 then
    (0, [])
  else
    ((value.take (size - 1)).length, value.take (size - 1) ++ [0])

def sysGetArg (arg0 arg1 arg2 : Nat) (s : DispatchSystem) : SyscallOutcome := if arg0 ≠ 0 then
    s.reply syscallRetEinval []
  else if userRangeOk arg1 arg2 = false then
    s.reply syscallRetEfault []
  else if s.shellInteractiveRequested = false then
    s.reply syscallRetOk []
  else
    match copyStringArg arg1 arg2 (textBytes "interactive") with
    | (written, bytes) => s.reply written (storesAt arg1 bytes)

----------
-- Programs

/- The executable of a path, or the code to return. -/
def execImage (env : SyscallEnv) (arg0 : Nat) (s : DispatchSystem) : Except Nat UserImage :=
  if userPathOk env.view arg0 = false then
    .error syscallRetEfault
  else
    match vfsResolve env.images (bufferAt env.view arg0) env.scratch s.session s.state.vfs with
    | .error code => .error code
    | .ok resolved =>
      if resolved.type ≠ .executable then
        .error syscallRetEnosys
      else
        .ok ⟨resolved.data, resolved.size⟩

def sysExec (env : SyscallEnv) (arg0 : Nat) (s : DispatchSystem) : SyscallOutcome :=
  let s :=
    { s with
      state :=
        { s.state with
          exec :=
            { s.state.exec with
              execLoaded := false
              execEntry := 0 }
          execProcessCreated := false
          execCr3SwitchRequested := false
          execSpawnedPid := 0
          execTargetCr3 := 0 } }
  match execImage env arg0 s with
  | .error code => s.reply code []
  | .ok image =>
    match execProgram (stringAt env.view arg0) image s.state.exec s.processes with
    | (pid, exec, processes) =>
      let s :=
        { s with
          processes := processes
          state :=
            { s.state with
              exec := exec
              execSpawnedPid := pid } }
      if pid = 0 then
        s.reply syscallRetEinval []
      else
        let targetCr3 := processes.counters.lastUserCr3
        { s with
          state :=
            { s.state with
              execTargetCr3 := targetCr3
              execCr3SwitchRequested := decide (targetCr3 ≠ 0)
              execProcessCreated := true } }.reply
          syscallRetOk []

def sysSpawn (env : SyscallEnv) (arg0 : Nat) (s : DispatchSystem) : SyscallOutcome :=
  let s :=
    { s with
      state :=
        { s.state with
          exec :=
            { s.state.exec with
              execLoaded := false
              execEntry := 0 }
          execCr3SwitchRequested := false
          execTargetCr3 := 0
          spawnSpawnedPid := 0 } }
  match execImage env arg0 s with
  | .error code => s.reply code []
  | .ok image =>
    match execProgram (stringAt env.view arg0) image s.state.exec s.processes with
    | (pid, exec, processes) =>
      let s :=
        { s with
          processes := processes
          state :=
            { s.state with
              exec := exec
              spawnSpawnedPid := pid } }
      if pid = 0 then s.reply syscallRetEinval [] else s.reply pid []

----------
-- Reports, Children And Input

def sysPs (arg0 arg1 : Nat) (s : DispatchSystem) : SyscallOutcome :=
  if userRangeOk arg0 arg1 = false then
    s.reply syscallRetEfault []
  else
    let report := processSnapshot arg0 arg1 s.processes
    s.reply report.value (storesFrom arg0 report.stores)

def sysWait (arg0 arg1 : Nat) (s : DispatchSystem) : SyscallOutcome :=
  if userRangeOk arg0 4 = false ∨ userRangeOk arg1 4 = false then
    s.reply syscallRetEfault []
  else
    match processWaitChild s.state.currentPid s.processes with
    | (none, processes) => { s with processes := processes }.reply syscallRetEnoent []
    | (some child, processes) =>
      { s with processes := processes }.reply syscallRetOk
        (storesAt arg0 (bytesLE child.childPid 4) ++ storesAt arg1 (bytesLE child.exitCode 4))

def sysDesktopStatus (env : SyscallEnv) (arg0 arg1 : Nat) (s : DispatchSystem) : SyscallOutcome :=
  if userRangeOk arg0 arg1 = false then
    s.reply syscallRetEfault []
  else
    let report := desktopServicesSnapshot arg0 arg1 (s.desktopSources env) s.desktop
    { s with keyboard := (keyboardGetState s.keyboard).2 }.reply
      report.value (storesFrom arg0 report.stores)

def sysWindowPresent (env : SyscallEnv) (s : DispatchSystem) : SyscallOutcome :=
  match presentDemoWindow env.drawn (s.desktopSources env) s.desktop with
  | (value, desktop) =>
    { s with
      desktop := desktop
      keyboard := (keyboardGetState s.keyboard).2 }.reply
      value []

def sysSleepTicks (env : SyscallEnv) (arg0 : Nat) (s : DispatchSystem) : SyscallOutcome :=
  if 1000 < arg0 then
    s.reply syscallRetEinval []
  else
    let before := s.keyboard.timerTicks
    { s with
      keyboard := { s.keyboard with timerTicks := env.ticksAfter }
      timer := timerWaitForTicks arg0 before env.ticksAfter
          s.timer }.reply (sub32 env.ticksAfter before) []

def sysInputStatus (arg0 arg1 : Nat) (s : DispatchSystem) : SyscallOutcome :=
  if userRangeOk arg0 arg1 = false then
    s.reply syscallRetEfault []
  else
    match keyboardGetState s.keyboard with
    | (keyboard, k) =>
      let report := formatInputStatus arg1 keyboard
      { s with keyboard := k }.reply report.value
        (storesFrom arg0 report.stores)

/- `x86_64_input_event` in memory. -/
def inputEventBytes (event : InputEvent) : List UInt8 :=
  [event.type, event.code, event.value, event.flags, event.tick,
    event.sequence].flatMap fun field => bytesLE field 4

def inputEventBytesCount : Nat := 24

def sysInputEvents (arg0 arg1 : Nat) (s : DispatchSystem) : SyscallOutcome :=
  let byteCount := u64 (arg1 * inputEventBytesCount)
  if inputEventQueueCapacity < arg1 ∨ byteCount / inputEventBytesCount ≠ arg1 then
    s.reply syscallRetEinval []
  else if userRangeOk arg0 byteCount = false then
    s.reply syscallRetEfault []
  else
    match inputEventsReadFrom s.state.inputEventCursor arg0 arg1 s.keyboard with
    | (events, cursor, k) =>
      { s with
        keyboard := k
        state := { s.state with inputEventCursor := cursor } }.reply
        events.length
        (storesAt arg0 (events.flatMap inputEventBytes))

----------
-- Dispatch

def syscallDispatch (env : SyscallEnv) (call : SyscallCall) (s : DispatchSystem) : SyscallOutcome :=
  let arg0 := call.arg0.toNat
  let arg1 := call.arg1.toNat
  let arg2 := call.arg2.toNat
  let s :=
    { s with
      state :=
        { s.state with
          dispatchCalls := u32 (s.state.dispatchCalls + 1)
          lastSyscall := call.number.toNat } }
  match syscallService call.number.toNat with
  | some .exit =>
    { s with state := { s.state with exitCode := u32 arg0 } }.reply
      syscallRetOk []
  | some .write => sysWrite env arg0 arg1 arg2 s
  | some .openFile => sysOpen env arg0 arg1 s
  | some .read => sysRead env arg0 arg1 arg2 s
  | some .close => sysClose arg0 s
  | some .stat => sysStat env arg0 arg1 s
  | some .getArg => sysGetArg arg0 arg1 arg2 s
  | some .exec => sysExec env arg0 s
  | some .getpid => s.reply s.state.currentPid []
  | some .yield =>
    { s with
      state := { s.state with yieldCount := u32 (s.state.yieldCount + 1) } }.reply
      syscallRetOk []
  | some .ps => sysPs arg0 arg1 s
  | some .wait => sysWait arg0 arg1 s
  | some .desktopStatus => sysDesktopStatus env arg0 arg1 s
  | some .windowPresent => sysWindowPresent env s
  | some .ticks => s.reply s.keyboard.timerTicks []
  | some .sleepTicks => sysSleepTicks env arg0 s
  | some .inputStatus => sysInputStatus arg0 arg1 s
  | some .inputEvents => sysInputEvents arg0 arg1 s
  | some .spawn => sysSpawn env arg0 s
  | none => s.reply syscallRetEnosys []

end LiamOS.X64
