import LiamOS.Lib.BoundedText
import LiamOS.X64.Keyboard.Model
import LiamOS.X64.Process.Model
import LiamOS.X64.Vfs.Files

/-
  The text reports of the x86_64 kernel: the process list of `process.c`, the desktop status of
  `desktop_services.c` and the input status of `syscall_dispatch.h`.

  The three files have the same `append_char`, `append_string` and `append_u32`. A report is a
  value and the stores to the buffer, as offsets from its start. Of the timer the state is
  modelled; how far the ticks get while the kernel waits for them is a parameter. So is whether
  the rectangles of the demo window could be drawn.

  Key definitions: `appendChar`, `appendString`, `appendU32`, `processSnapshot`, `TimerState`,
  `DesktopServices`, `refreshDesktopState`, `desktopServicesSnapshot`, `presentDemoWindow`,
  `formatInputStatus`.
-/

namespace LiamOS.X64

open Word BoundedText

----------
-- Appending

def appendChar (size : Nat) (c : Char) (w : Writer) : Writer := put size w (UInt8.ofNat c.toNat)

def appendString (size : Nat) (value : List UInt8) (w : Writer) : Writer := puts size value w

def appendU32 (size value : Nat) (w : Writer) : Writer := puts size (decimalText value) w

/- A line of a status report: a label and a number. -/
def appendField (size : Nat) (w : Writer) (field : String × Nat) : Writer :=
  appendChar size '\n' (appendU32 size field.2 (appendString size (textBytes field.1) w))

def appendFields (size : Nat) (fields : List (String × Nat)) (w : Writer) : Writer :=
  fields.foldl (appendField size) w

/- What a report returns and what it stores. -/
structure Report where
  value : Nat
  stores : List (Nat × UInt8)

----------
-- Processes

def processStateName : ProcessStateCode → String
| .ready => "ready"
| .running => "running"
| .exited => "exited"
| .failed => "failed"
| .unused => "unused"

def processModeName : ProcessModeCode → String
| .kernel => "kernel"
| .user => "user"
| .none => "none"

/- The line of a process that is in use. -/
def appendProcess (size : Nat) (process : Process) (w : Writer) : Writer :=
  let w := appendU32 size process.pid w
  let w := appendChar size ' ' w
  let w := appendString size (textBytes (processStateName process.state)) w
  let w := appendChar size ' ' w
  let w := appendString size (textBytes (processModeName process.mode)) w
  let w := appendChar size ' ' w
  let w := appendString size process.name w
  let w := if process.imagePath.headD 0 ≠ 0 then
      appendString size process.imagePath (appendChar size ' ' w)
    else
      w
  appendChar size '\n' w

def appendProcesses (size : Nat) (s : ProcessSystem) (w : Writer) : Writer :=
  (List.finRange 64).foldl
    (fun w i =>
      if (s.table i).state = .unused then w else appendProcess size (s.table i) w)
    w

def appendCounter (size : Nat) (w : Writer) (counter : String × Nat) : Writer :=
  appendU32 size counter.2 (appendString size (textBytes counter.1) w)

def processCountersOf (s : ProcessSystem) : List (String × Nat) :=
  [("created ", s.counters.createdProcesses), (" user-created ", s.counters.userProcessesCreated),
    (" user-exited ", s.counters.userProcessesExited),
    (" user-reaped ", s.counters.userProcessesReaped),
    (" wait-ready ", s.childStatusQueue.length),
    (" wait-records ", s.counters.completedChildRecords),
    (" waits ", s.counters.completedChildWaits),
    (" wait-drops ", s.counters.completedChildDrops),
    (" kernel-sched ", s.counters.kernelSchedulerSelections),
    (" user-sched ", s.counters.userSchedulerSelections),
    (" kernel-cursor ", s.counters.kernelSchedulerCursor),
    (" user-cursor ", s.counters.userSchedulerCursor)]

def processSnapshot (buffer size : Nat) (s : ProcessSystem) : Report :=
  if buffer = 0 ∨ size = 0 then
    ⟨0, []⟩
  else
    let w := appendString size (textBytes "PID STATE MODE NAME\n") start
    let w := appendProcesses size s w
    let w := (processCountersOf s).foldl (appendCounter size) w
    let w := appendChar size '\n' w
    ⟨if w.offset < size then w.offset else size - 1, close size w⟩

----------
-- Desktop Services

/- `x86_64_timer_state`; its ticks are those of the driver. -/
structure TimerState where
  initialized : Nat
  interruptsEnabledAfter : Nat
  irq0Unmasked : Nat
  frequencyHz : Nat
  waitedTicks : Nat
  waitOk : Nat
  timerOk : Nat

/- `after` is the tick counter when the loop ends. -/
def timerWaitForTicks (ticks start after : Nat) (timer : TimerState) : TimerState :=
  let waitedTicks := sub32 after start
  let waitOk := if ticks ≤ waitedTicks then 1 else 0
  { timer with
    waitedTicks := waitedTicks
    waitOk := waitOk
    timerOk := if timer.initialized ≠ 0 ∧ timer.irq0Unmasked ≠ 0 ∧
          timer.interruptsEnabledAfter ≠ 0 ∧ waitOk ≠ 0 then
        1
      else
        0 }

/- The session file, written and read back by a probe. -/
def vfsSessionStorageReady (images : VfsImages) (scratch : ByteBuffer)
    (session : SessionStorage) : Bool :=
  let path := some (cString (textBytes "/tmp/session.txt"))
  let flags := vfsOpenWrite ||| vfsOpenCreate ||| vfsOpenTruncate
  let (fd, session, probe) := vfsOpen images path scratch flags session vfsInit
  if fd.value < vfsFdBase then
    false
  else
    let (written, session, probe) :=
      vfsWrite images fd.value (some (cString (textBytes "ram"))) 3 session probe
    if written.value ≠ 3 then
      false
    else
      let (closed, probe) := vfsClose fd.value probe
      if closed.value ≠ vfsRetOk then
        false
      else
        let (fd, session, probe) := vfsOpen images path scratch vfsOpenRead session probe
        if fd.value < vfsFdBase then
          false
        else
          let (bytes, probe) := vfsRead images fd.value true 3 session probe
          if bytes.value ≠ 3 ∨ bytes.bytes ≠ textBytes "ram" then
            false
          else
            (vfsClose fd.value probe).1.value == vfsRetOk

/-
  The part of `desktop_state` that lasts, with the state of the framebuffer. The other fields are
  read anew each time.
-/
structure DesktopServices where
  initialized : Bool
  schedulerQuantumTicks : Nat
  framebufferInitialized : Nat
  windowPresentCalls : Nat

structure DesktopStatus where
  schedulerTickReady : Nat
  schedulerObservedTicks : Nat
  schedulerObservedSlices : Nat
  inputReady : Nat
  inputBufferedChars : Nat
  inputEventCapacity : Nat
  inputEventQueued : Nat
  inputEventDrops : Nat
  inputEventOldestSequence : Nat
  inputEventLatestSequence : Nat
  inputEventServiceReady : Nat
  storageReadonlyVfsReady : Nat
  storageSessionReady : Nat
  storagePersistentReady : Nat
  graphicsReady : Nat
  windowServiceReady : Nat

/- What the desktop services look at. -/
structure DesktopSources where
  images : VfsImages
  scratch : ByteBuffer
  session : SessionStorage
  timer : TimerState
  timerTicks : Nat
  keyboard : KeyboardState

def flag (condition : Prop) [Decidable condition] : Nat := if condition then 1 else 0

def refreshDesktopState (sources : DesktopSources) (desktop : DesktopServices) : DesktopStatus :=
  let timer := sources.timer
  let keyboard := sources.keyboard
  let schedulerTickReady :=
    flag (timer.timerOk ≠ 0 ∧ timer.frequencyHz ≠ 0 ∧ timer.interruptsEnabledAfter ≠ 0)
  let inputEventServiceReady :=
    flag (keyboard.keyboardOk ≠ 0 ∧ keyboard.eventQueueCapacity = inputEventQueueCapacity)
  let storageSessionReady :=
    flag (vfsSessionStorageReady sources.images sources.scratch sources.session = true)
  { schedulerTickReady := schedulerTickReady
    schedulerObservedTicks := sources.timerTicks
    schedulerObservedSlices := sources.timerTicks / desktop.schedulerQuantumTicks
    inputReady := keyboard.keyboardOk
    inputBufferedChars := keyboard.bufferedChars
    inputEventCapacity := keyboard.eventQueueCapacity
    inputEventQueued := keyboard.eventQueued
    inputEventDrops := keyboard.eventDrops
    inputEventOldestSequence := keyboard.eventOldestSequence
    inputEventLatestSequence := keyboard.eventLatestSequence
    inputEventServiceReady := inputEventServiceReady
    storageReadonlyVfsReady := 1
    storageSessionReady := storageSessionReady
    storagePersistentReady := 0
    graphicsReady := desktop.framebufferInitialized
    windowServiceReady :=
      flag (schedulerTickReady ≠ 0 ∧ keyboard.keyboardOk ≠ 0 ∧
        inputEventServiceReady ≠ 0 ∧ storageSessionReady ≠ 0 ∧
        desktop.framebufferInitialized ≠ 0) }

def desktopFields (status : DesktopStatus) (windowPresentCalls : Nat) : List (String × Nat) :=
  [("scheduler-ready ", status.schedulerTickReady),
    ("scheduler-ticks ", status.schedulerObservedTicks),
    ("scheduler-slices ", status.schedulerObservedSlices),
    ("input-ready ", status.inputReady),
    ("input-buffered ", status.inputBufferedChars),
    ("input-events-ready ", status.inputEventServiceReady),
    ("input-events-capacity ", status.inputEventCapacity),
    ("input-events-queued ", status.inputEventQueued),
    ("input-events-drops ", status.inputEventDrops),
    ("input-events-oldest ", status.inputEventOldestSequence),
    ("input-events-latest ", status.inputEventLatestSequence),
    ("storage-readonly-vfs ", status.storageReadonlyVfsReady),
    ("storage-session ", status.storageSessionReady),
    ("storage-persistent ", status.storagePersistentReady),
    ("graphics-ready ", status.graphicsReady),
    ("window-service-ready ", status.windowServiceReady),
    ("window-present-calls ", windowPresentCalls)]

def desktopServicesSnapshot (buffer size : Nat) (sources : DesktopSources)
    (desktop : DesktopServices) : Report :=
  if buffer = 0 ∨ size = 0 ∨ desktop.initialized = false then
    ⟨0, []⟩
  else
    let status := refreshDesktopState sources desktop
    let w := appendFields size (desktopFields status desktop.windowPresentCalls)
        (appendString size (textBytes "desktop services\n") start)
    ⟨if w.offset < size then w.offset else size - 1, close size w⟩

/- `drawn` says whether all four rectangles were filled. -/
def presentDemoWindow (drawn : Bool) (sources : DesktopSources)
    (desktop : DesktopServices) : Nat × DesktopServices :=
  if (refreshDesktopState sources desktop).windowServiceReady = 0 then
    (0, desktop)
  else
    (if drawn then 1 else 0,
      { desktop with windowPresentCalls := u32 (desktop.windowPresentCalls + 1) })

----------
-- Input

def inputFields (keyboard : KeyboardState) : List (String × Nat) :=
  [("keyboard-ready ", keyboard.keyboardOk), ("buffered ", keyboard.bufferedChars),
    ("capacity ", keyboard.bufferCapacity),
    ("scancodes ", keyboard.scancodesSeen),
    ("translated ", keyboard.translatedCharsSeen),
    ("event-capacity ", keyboard.eventQueueCapacity),
    ("event-queued ", keyboard.eventQueued),
    ("event-drops ", keyboard.eventDrops),
    ("event-oldest ", keyboard.eventOldestSequence),
    ("event-latest ", keyboard.eventLatestSequence),
    ("events-read ", keyboard.eventsRead)]

/- Unlike the other two it returns the length of the text. -/
def formatInputStatus (size : Nat) (keyboard : KeyboardState) : Report :=
  let w :=
    appendFields size (inputFields keyboard) (appendString size (textBytes "input status\n") start)
  ⟨w.offset, if size ≠ 0 then close size w else w.stores⟩

----------
-- Bounds

variable {size : Nat}
variable {w : Writer}

theorem within_appendFields (fields : List (String × Nat)) (hWithin : Within size w.stores) :
    Within size (appendFields size fields w).stores := by
  induction fields generalizing w with
  | nil => exact hWithin
  | cons field fields ih => exact ih (((hWithin.puts _).puts _).put _)

theorem within_appendProcess (process : Process) (hWithin : Within size w.stores) :
    Within size (appendProcess size process w).stores := by
  unfold appendProcess
  dsimp only
  apply Within.put
  have hNamed :=
    ((((((hWithin.puts (decimalText process.pid)).put
      (UInt8.ofNat ' '.toNat)).puts (textBytes (processStateName process.state))).put
          (UInt8.ofNat ' '.toNat)).puts (textBytes (processModeName process.mode))).put
              (UInt8.ofNat ' '.toNat)).puts process.name
  split
  · exact (hNamed.put _).puts _
  · exact hNamed

theorem within_appendProcesses (s : ProcessSystem) (hWithin : Within size w.stores) :
    Within size (appendProcesses size s w).stores := by
  unfold appendProcesses
  induction List.finRange 64 generalizing w with
  | nil => exact hWithin
  | cons i slots ih =>
    rw [List.foldl_cons]
    apply ih
    split
    · exact hWithin
    · exact within_appendProcess _ hWithin

theorem within_appendCounters (counters : List (String × Nat)) (hWithin : Within size w.stores) :
    Within size (counters.foldl (appendCounter size) w).stores := by
  induction counters generalizing w with
  | nil => exact hWithin
  | cons counter counters ih => exact ih ((hWithin.puts _).puts _)

theorem processSnapshot_within (buffer size : Nat) (s : ProcessSystem) :
    Within size (processSnapshot buffer size s).stores := by
  unfold processSnapshot
  split
  · exact fun _ hStore => absurd hStore List.not_mem_nil
  · next hBuffer =>
      dsimp only
      apply Within.close _ (by omega)
      apply Within.put
      apply within_appendCounters
      apply within_appendProcesses
      exact (within_start size).puts _

theorem desktopServicesSnapshot_within (buffer size : Nat) (sources : DesktopSources)
    (desktop : DesktopServices) :
    Within size (desktopServicesSnapshot buffer size sources desktop).stores := by
  unfold desktopServicesSnapshot
  split
  · exact fun _ hStore => absurd hStore List.not_mem_nil
  · next hBuffer =>
      dsimp only
      apply Within.close _ (by omega)
      apply within_appendFields
      exact (within_start size).puts _

theorem formatInputStatus_within (size : Nat) (keyboard : KeyboardState) :
    Within size (formatInputStatus size keyboard).stores := by
  have hFields : Within size
        (appendFields size (inputFields keyboard)
          (appendString size (textBytes "input status\n") start)).stores :=
    within_appendFields _ ((within_start size).puts _)
  unfold formatInputStatus
  dsimp only
  split
  · exact hFields.close (by omega)
  · exact hFields

----------
-- Values

theorem processSnapshot_value (buffer size : Nat) (s : ProcessSystem) :
    (processSnapshot buffer size s).value ≤ size := by
  unfold processSnapshot
  split
  · exact Nat.zero_le _
  · dsimp only
    split <;> omega

theorem desktopServicesSnapshot_value (buffer size : Nat) (sources : DesktopSources)
    (desktop : DesktopServices) :
    (desktopServicesSnapshot buffer size sources desktop).value ≤ size := by
  unfold desktopServicesSnapshot
  split
  · exact Nat.zero_le _
  · dsimp only
    split <;> omega

/- A line takes its label, ten digits and the end of line. -/
theorem appendField_offset_le (field : String × Nat) :
    (appendField size w field).offset ≤ w.offset + ((textBytes field.1).length + 11) := by
  have hDigits := decimalText_length_le field.2
  change (puts size (decimalText field.2) (puts size (textBytes field.1) w)).offset + 1 ≤ _
  rw [puts_offset, puts_offset]
  omega

/- The characters of the lines with these labels, at most. -/
def lineBytes (labels : List String) : Nat :=
  (labels.map fun label => (textBytes label).length + 11).sum

theorem appendFields_offset_le (fields : List (String × Nat)) :
    (appendFields size fields w).offset ≤ w.offset + lineBytes (fields.map Prod.fst) := by
  unfold lineBytes
  induction fields generalizing w with
  | nil => exact Nat.le_refl _
  | cons field fields ih =>
    have hField := @appendField_offset_le size w field
    have hRest := @ih (appendField size w field)
    rw [List.map_cons, List.map_cons, List.sum_cons]
    change (appendFields size fields (appendField size w field)).offset ≤ _
    omega

/- The length of the text, whatever the size is. -/
theorem formatInputStatus_value (size : Nat) (keyboard : KeyboardState) :
    (formatInputStatus size keyboard).value ≤ 266 := by
  have hFields :=
    @appendFields_offset_le size (appendString size (textBytes "input status\n") start)
      (inputFields keyboard)
  have hTitle : (textBytes "input status\n").length = 13 := by decide +kernel
  have hLabels : lineBytes
        ["keyboard-ready ", "buffered ", "capacity ",
          "scancodes ", "translated ", "event-capacity ",
          "event-queued ", "event-drops ", "event-oldest ",
          "event-latest ", "events-read "] = 253 := by
    decide +kernel
  have hStart :
      (appendString size (textBytes "input status\n")
        start).offset = start.offset + (textBytes "input status\n").length :=
    puts_offset _
  have hOffset : start.offset = 0 := rfl
  unfold inputFields at hFields
  simp only [List.map_cons, List.map_nil] at hFields
  rw [hLabels, hStart, hTitle, hOffset] at hFields
  unfold formatInputStatus inputFields
  exact hFields

end LiamOS.X64
