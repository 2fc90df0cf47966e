import LiamOS.Lib.Word
import LiamOS.X64.Vfs.Path

/-
  The keyboard driver of `kernel/arch/x86_64/idt.c`: the ring of typed characters, the ring of
  input events and the state the driver reports.

  Both rings are arrays with a head, a tail and a count. A full character ring refuses what comes
  next, a full event ring gives up its oldest event. Events carry a sequence number; a reader of
  events keeps the number it has reached in a cursor of its own. The scancode on the data port and
  the state of the interrupt controller are parameters.

  Key definitions: `KeyboardState`, `InputEvent`, `KeyboardDriver`, `keyboardInitialize`,
  `keyboardHandleIrq`, `inputEventPush`, `inputEventsReadFrom`, `keyboardBufferPush`,
  `keyboardRead`, `keyboardGetState`.
-/

namespace LiamOS.X64

open Word

----------
-- State

def keyboardBufferCapacity : Nat := 128

def inputEventQueueCapacity : Nat := 64

/- `x86_64_keyboard_state`. -/
structure KeyboardState where
  initialized : Nat
  irq1Unmasked : Nat
  scancodesSeen : Nat
  makeCodesSeen : Nat
  breakCodesSeen : Nat
  translatedCharsSeen : Nat
  shiftPressed : Nat
  bufferedChars : Nat
  bufferCapacity : Nat
  bufferOverflows : Nat
  eventQueueCapacity : Nat
  eventQueued : Nat
  eventDrops : Nat
  eventOldestSequence : Nat
  eventLatestSequence : Nat
  eventReadCalls : Nat
  eventsRead : Nat
  readCalls : Nat
  bytesRead : Nat
  lastScancode : Nat
  lastAscii : Nat
  keyboardOk : Nat

/- `x86_64_input_event`. -/
structure InputEvent where
  type : Nat
  code : Nat
  value : Nat
  flags : Nat
  tick : Nat
  sequence : Nat
deriving DecidableEq, Repr

/- The static variables of the driver. -/
structure KeyboardDriver where
  timerTicks : Nat
  keyboardState : KeyboardState
  keyboardBuffer : Nat → UInt8
  keyboardBufferHead : Nat
  keyboardBufferTail : Nat
  keyboardBufferCount : Nat
  inputEventQueue : Nat → InputEvent
  inputEventHead : Nat
  inputEventTail : Nat
  inputEventCount : Nat
  inputEventNextSequence : Nat

def timerHandleIrq (k : KeyboardDriver) : KeyboardDriver :=
  { k with timerTicks := u32 (k.timerTicks + 1) }

def keyboardBufferReset (k : KeyboardDriver) : KeyboardDriver :=
  { k with
    keyboardBufferHead := 0
    keyboardBufferTail := 0
    keyboardBufferCount := 0
    inputEventHead := 0
    inputEventTail := 0
    inputEventCount := 0
    inputEventNextSequence := 1
    keyboardState :=
      { k.keyboardState with
        bufferedChars := 0
        bufferCapacity := keyboardBufferCapacity
        bufferOverflows := 0
        eventQueueCapacity := inputEventQueueCapacity
        eventQueued := 0
        eventDrops := 0
        eventOldestSequence := 0
        eventLatestSequence := 0
        eventReadCalls := 0
        eventsRead := 0
        readCalls := 0
        bytesRead := 0 } }

/- The interrupt controller's answers are parameters. -/
def keyboardInitialize (irq1Unmasked interruptsEnabledAfter : Nat)
    (k : KeyboardDriver) : KeyboardDriver :=
  let k := keyboardBufferReset
      { k with
        keyboardState :=
          { k.keyboardState with
            initialized := 1
            scancodesSeen := 0
            makeCodesSeen := 0
            breakCodesSeen := 0
            translatedCharsSeen := 0
            shiftPressed := 0
            lastScancode := 0
            lastAscii := 0
            keyboardOk := 0 } }
  { k with
    keyboardState :=
      { k.keyboardState with
        irq1Unmasked := irq1Unmasked
        keyboardOk := if irq1Unmasked ≠ 0 ∧ interruptsEnabledAfter ≠ 0 then 1 else 0 } }

----------
-- Input Events

def inputEventLatestSequence (k : KeyboardDriver) : Nat := if k.inputEventNextSequence = 0 then
    0
  else
    k.inputEventNextSequence - 1

/- The oldest event of a full ring makes room. -/
def inputEventDrop (k : KeyboardDriver) : KeyboardDriver :=
  if inputEventQueueCapacity ≤ k.inputEventCount then
    { k with
      inputEventHead := (k.inputEventHead + 1) % inputEventQueueCapacity
      inputEventCount := k.inputEventCount - 1
      keyboardState := { k.keyboardState with eventDrops := u32 (k.keyboardState.eventDrops + 1) } }
  else
    k

def inputEventPush (type code value flags : Nat) (k : KeyboardDriver) : KeyboardDriver :=
  let k := inputEventDrop k
  let k :=
    { k with
      inputEventQueue := Function.update k.inputEventQueue k.inputEventTail
          ⟨type, code, value, flags, k.timerTicks, k.inputEventNextSequence⟩
      inputEventNextSequence := u32 (k.inputEventNextSequence + 1)
      inputEventTail := (k.inputEventTail + 1) % inputEventQueueCapacity
      inputEventCount := k.inputEventCount + 1 }
  { k with
    keyboardState :=
      { k.keyboardState with
        eventQueued := k.inputEventCount
        eventOldestSequence := (k.inputEventQueue k.inputEventHead).sequence
        eventLatestSequence := inputEventLatestSequence k } }

/-
  The loop over the queued events: those past the cursor are stored, until there are `maxEvents`.
  The last number is what the caller's cursor holds.
-/
def collectEvents (k : KeyboardDriver) (currentCursor maxEvents : Nat) :
    Nat → Nat → List InputEvent → Nat → List InputEvent × Nat
| 0, _, events, cursor => (events, cursor)
| turns + 1, i, events, cursor =>
    if events.length < maxEvents then
      let index := (k.inputEventHead + i) % inputEventQueueCapacity
      let event := k.inputEventQueue index
      if currentCursor < event.sequence then
        collectEvents k currentCursor maxEvents turns (i + 1) (events ++ [event]) event.sequence
      else
        collectEvents k currentCursor maxEvents turns (i + 1) events cursor
    else
      (events, cursor)

/- What is stored from `events` on, the caller's cursor behind the call and the driver. -/
def inputEventsReadFrom (cursor events maxEvents : Nat) (k : KeyboardDriver) :
    List InputEvent × Nat × KeyboardDriver :=
  if events = 0 ∨ maxEvents = 0 ∨ k.keyboardState.initialized = 0 then
    ([], cursor, k)
  else
    let k :=
      { k with
        keyboardState :=
          { k.keyboardState with eventReadCalls := u32 (k.keyboardState.eventReadCalls + 1) } }
    if k.inputEventCount = 0 then
      ([], inputEventLatestSequence k,
        { k with keyboardState := { k.keyboardState with eventQueued := 0 } })
    else
      let oldestSequence := (k.inputEventQueue k.inputEventHead).sequence
      let currentCursor := if cursor < oldestSequence - 1 then oldestSequence - 1 else cursor
      let (stored, cursor) := collectEvents k currentCursor maxEvents k.inputEventCount 0 [] cursor
      (stored, cursor,
        { k with
          keyboardState :=
            { k.keyboardState with
              eventQueued := k.inputEventCount
              eventOldestSequence := oldestSequence
              eventLatestSequence := inputEventLatestSequence k
              eventsRead := u32 (k.keyboardState.eventsRead + stored.length) } })

----------
-- Characters

def keyboardBufferPush (ascii : UInt8) (k : KeyboardDriver) : KeyboardDriver :=
  if keyboardBufferCapacity ≤ k.keyboardBufferCount then
    { k with
      keyboardState :=
        { k.keyboardState with bufferOverflows := u32 (k.keyboardState.bufferOverflows + 1) } }
  else
    { k with
      keyboardBuffer := Function.update k.keyboardBuffer k.keyboardBufferTail ascii
      keyboardBufferTail := (k.keyboardBufferTail + 1) % keyboardBufferCapacity
      keyboardBufferCount := k.keyboardBufferCount + 1
      keyboardState := { k.keyboardState with bufferedChars := k.keyboardBufferCount + 1 } }

/- The loop that takes characters out, at most `size`. -/
def takeCharacters (size : Nat) : Nat → List UInt8 → KeyboardDriver → List UInt8 × KeyboardDriver
| 0, bytes, k => (bytes, k)
| turns + 1, bytes, k =>
    if bytes.length < size ∧ 0 < k.keyboardBufferCount then
      takeCharacters size turns (bytes ++ [k.keyboardBuffer k.keyboardBufferHead])
        { k with
          keyboardBufferHead := (k.keyboardBufferHead + 1) % keyboardBufferCapacity
          keyboardBufferCount := k.keyboardBufferCount - 1 }
    else
      (bytes, k)

def keyboardRead (buffer size : Nat) (k : KeyboardDriver) : List UInt8 × KeyboardDriver :=
  if buffer = 0 ∨ size = 0 ∨ k.keyboardState.initialized = 0 then
    ([], k)
  else
    let (bytes, k) := takeCharacters size k.keyboardBufferCount []
        { k with
          keyboardState :=
            { k.keyboardState with readCalls := u32 (k.keyboardState.readCalls + 1) } }
    (bytes,
      { k with
        keyboardState :=
          { k.keyboardState with
            bufferedChars := k.keyboardBufferCount
            bytesRead := u32 (k.keyboardState.bytesRead + bytes.length) } })

/- The state as it is reported, refreshed from the rings. -/
def keyboardGetState (k : KeyboardDriver) : KeyboardState × KeyboardDriver :=
  let state :=
    { k.keyboardState with
      bufferedChars := k.keyboardBufferCount
      bufferCapacity := keyboardBufferCapacity
      eventQueueCapacity := inputEventQueueCapacity
      eventQueued := k.inputEventCount
      eventOldestSequence := if k.inputEventCount = 0 then
          0
        else
          (k.inputEventQueue k.inputEventHead).sequence
      eventLatestSequence := inputEventLatestSequence k }
  (state, { k with keyboardState := state })

----------
-- Scancodes

def scancodeAsciiMap : List UInt8 :=
  [0, 27] ++ textBytes "1234567890-=" ++ [8, 9] ++ textBytes "qwertyuiop[]" ++ [10, 0] ++
    textBytes "asdfghjkl;'`" ++ [0] ++
    textBytes "\\zxcvbnm,./" ++ [0] ++ textBytes "*" ++ [0] ++
    textBytes " "

def scancodeShiftAsciiMap : List UInt8 :=
  [0, 27] ++ textBytes "!@#$%^&*()_+" ++ [8, 9] ++ textBytes "QWERTYUIOP\x7b\x7d" ++ [10, 0] ++
    textBytes "ASDFGHJKL:\"~" ++ [0] ++
    textBytes "|ZXCVBNM<>?" ++ [0] ++ textBytes "*" ++ [0] ++
    textBytes " "

def keyboardTranslateScancode (scancode : UInt8) (k : KeyboardDriver) : UInt8 :=
  if 128 ≤ scancode.toNat then
    0
  else if k.keyboardState.shiftPressed ≠ 0 then
    scancodeShiftAsciiMap.getD scancode.toNat 0
  else
    scancodeAsciiMap.getD scancode.toNat 0

/- `value` is set to whether a shift key is down. -/
def keyboardShift (value : Nat) (k : KeyboardDriver) : KeyboardDriver :=
  { k with keyboardState := { k.keyboardState with shiftPressed := value } }

def keyboardMake (k : KeyboardDriver) : KeyboardDriver :=
  { k with
    keyboardState :=
      { k.keyboardState with makeCodesSeen := u32 (k.keyboardState.makeCodesSeen + 1) } }

def keyboardBreak (k : KeyboardDriver) : KeyboardDriver :=
  { k with
    keyboardState :=
      { k.keyboardState with breakCodesSeen := u32 (k.keyboardState.breakCodesSeen + 1) } }

/- One keyboard interrupt with the scancode of the data port. -/
def keyboardHandleIrq (scancode : UInt8) (k : KeyboardDriver) : KeyboardDriver :=
  let code := scancode.toNat
  let k :=
    { k with
      keyboardState :=
        { k.keyboardState with
          scancodesSeen := u32 (k.keyboardState.scancodesSeen + 1)
          lastScancode := code } }
  if code = 0x2A ∨ code = 0x36 then
    inputEventPush 1 code 0 (1 + 4) (keyboardMake (keyboardShift 1 k))
  else if code = 0xAA ∨ code = 0xB6 then
    inputEventPush 1 code 0 (2 + 4) (keyboardBreak (keyboardShift 0 k))
  else if 0x80 ≤ code then
    inputEventPush 1 code 0 2 (keyboardBreak k)
  else
    let k := keyboardMake k
    let ascii := keyboardTranslateScancode scancode k
    let k := inputEventPush 1 code ascii.toNat 1
        { k with keyboardState := { k.keyboardState with lastAscii := ascii.toNat } }
    if ascii = 0 then
      k
    else
      keyboardBufferPush ascii
        { k with
          keyboardState :=
            { k.keyboardState with
              translatedCharsSeen := u32 (k.keyboardState.translatedCharsSeen + 1) } }

end LiamOS.X64
