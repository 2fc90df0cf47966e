import LiamOS.Lib.Word
import LiamOS.Lib.Transition

/-
  The kernel task scheduler of the i386 kernel: `core/kernel/core/scheduler.c` and the timer
  interrupt of `core/kernel/drivers/timer.c`.

  A pointer to a task is the number of its slot, and an entry function is its address. The
  ready-queue snapshot is the list of its slots with the task ids recorded for them. What an entry
  function does while it runs is the list of calls that follow its start, so a call made by an
  entry, by the shell or by an interrupt is the same kind of step.

  A kernel assertion that fails stops the kernel, so the runs of the model are those in which none
  fails. Counters and texts that only the shell prints are left out.

  Key definitions: `SchedulerTask`, `Scheduler`, `schedulerSelectNextReadyTask`, `schedulerAudit`,
  `schedulerCreateTaskInternal`, `schedulerDisableTask`, `SchedulerMachine`, `SchedulerCall`,
  `SchedulerMachine.step`.
-/

namespace LiamOS.I386

open Word

----------
-- Data

def schedulerMaxTasks : Nat := 16

def schedulerKernelStackSize : Nat := 4096

/- `other` is a value of the field that the enumeration does not have. -/
inductive SchedulerTaskState
| unused
| active
| running
| disabled
| completed
| sleeping
| other (value : Nat)
deriving DecidableEq, Repr

inductive SchedulerTaskMode
| recurring
| oneshot
deriving DecidableEq, Repr

structure SchedulerTask where
  used : Bool
  id : Nat
  state : SchedulerTaskState
  mode : SchedulerTaskMode
  intervalTicks : Nat
  lastRunTick : Nat
  runCount : Nat
  wakeTick : Nat
  sleepCount : Nat
  kernelStackBase : Nat
  kernelStackSize : Nat
  kernelStackTop : Nat
  entry : Nat
deriving DecidableEq, Repr

/- What `scheduler_clear_task` leaves in a slot. -/
def clearedTask : SchedulerTask where
  used := false
  id := 0
  state := .unused
  mode := .recurring
  intervalTicks := 0
  lastRunTick := 0
  runCount := 0
  wakeTick := 0
  sleepCount := 0
  kernelStackBase := 0
  kernelStackSize := 0
  kernelStackTop := 0
  entry := 0

structure PreemptTest where
  enabled : Bool
  inTimerDispatch : Bool
  tickInterval : Nat
  lastDispatchTick : Nat
deriving DecidableEq, Repr

def clearedPreemptTest : PreemptTest where
  enabled := false
  inTimerDispatch := false
  tickInterval := 0
  lastDispatchTick := 0

/- A place of the ready-queue snapshot. -/
structure ReadyPlace where
  slot : Nat
  taskId : Nat
deriving DecidableEq, Repr

structure Scheduler where
  initialized : Bool
  tasks : Nat → SchedulerTask
  nextTaskId : Nat
  currentTaskIndex : Nat
  readyQueue : List ReadyPlace
  currentRunningTask : Option Nat
  currentSwitchedTask : Option Nat
  runningOnTaskStack : Bool
  preemptTest : PreemptTest
  timerTicks : Nat

def Scheduler.setTask (s : Scheduler) (slot : Nat) (task : SchedulerTask) : Scheduler :=
  { s with tasks := Function.update s.tasks slot task }

/- One pass over the table, slot by slot. -/
def Scheduler.mapTasks (s : Scheduler) (f : SchedulerTask → SchedulerTask) : Scheduler :=
  { s with
    tasks := fun slot =>
      if slot < schedulerMaxTasks then f (s.tasks slot)
      else s.tasks slot }

/- The base of a kernel stack that `kmalloc` returned: the stack lies in the heap. -/
structure StackBase where
  address : Nat
  start_le : 0xC1000010 ≤ address
  end_le : address + schedulerKernelStackSize ≤ 0xC2000000

----------
-- Slots

def SchedulerTask.available (task : SchedulerTask) : Bool :=
  !task.used || task.state == .unused || task.state == .disabled || task.state == .completed

def schedulerFindAvailableSlot (s : Scheduler) : Option Nat :=
  (List.range schedulerMaxTasks).find? fun slot =>
    (s.tasks slot).available

def schedulerFindTaskById (s : Scheduler) (taskId : Nat) : Option Nat :=
  (List.range schedulerMaxTasks).find? fun slot =>
    (s.tasks slot).used && (s.tasks slot).id == taskId

def schedulerTaskStateIsValid (state : SchedulerTaskState) : Bool :=
  state == .unused || state == .active || state == .running || state == .disabled ||
    state == .completed || state == .sleeping

/- The states in which a task may still run. -/
def SchedulerTaskState.live (state : SchedulerTaskState) : Bool :=
  state == .active || state == .running || state == .sleeping

/- The states in which a task is done. -/
def SchedulerTaskState.inactive (state : SchedulerTaskState) : Bool :=
  state == .disabled || state == .completed

----------
-- Selection

def schedulerWakeDue (currentTick : Nat) (task : SchedulerTask) : SchedulerTask :=
  if !task.used || task.state != .sleeping then task
  else if sub32 currentTick task.wakeTick < 0x80000000 then
    { task with state := .active, wakeTick := 0 }
  else task

def schedulerWakeSleepingTasks (s : Scheduler) (currentTick : Nat) : Scheduler :=
  s.mapTasks (schedulerWakeDue currentTick)

def schedulerTaskIsReadyToRun (task : SchedulerTask) (currentTick : Nat) : Bool :=
  if !task.used || task.state != .active then false
  else if task.mode = .oneshot then true
  else if sub32 currentTick task.lastRunTick < task.intervalTicks then false
  else true

def schedulerResetReadyQueueSnapshot (s : Scheduler) : Scheduler := { s with readyQueue := [] }

/- One attempt of the loop that rebuilds the snapshot. -/
def schedulerQueueAttempt (s : Scheduler) (currentTick : Nat) (queue : List ReadyPlace)
    (attempts : Nat) : List ReadyPlace :=
  let index := (s.currentTaskIndex % schedulerMaxTasks + attempts) % schedulerMaxTasks
  if !schedulerTaskIsReadyToRun (s.tasks index) currentTick
  then queue
  else if schedulerMaxTasks ≤ queue.length then queue
  else queue ++ [⟨index, (s.tasks index).id⟩]

def schedulerRebuildReadyQueue (s : Scheduler) (currentTick : Nat) : Scheduler :=
  { s with
    readyQueue := (List.range schedulerMaxTasks).foldl (schedulerQueueAttempt s currentTick) [] }

def schedulerSelectNextReadyTask (s : Scheduler) (currentTick : Nat) : Option Nat × Scheduler :=
  let rebuilt := schedulerRebuildReadyQueue s currentTick
  match rebuilt.readyQueue with
  | [] => (none, rebuilt)
  | place :: _ =>
    if schedulerMaxTasks ≤ place.slot then (none, rebuilt)
    else
      (some place.slot, { rebuilt with currentTaskIndex := (place.slot + 1) % schedulerMaxTasks })

----------
-- Audit and Repair

def schedulerPointerPointsToTaskTable : Option Nat → Bool
| none => true
| some slot => decide (slot < schedulerMaxTasks)

/- The issues an audit counts. -/
inductive AuditIssue
| invalidUsedState
| unusedTaskWithStack
| activeTaskWithoutStack
| activeTaskWithoutEntry
| sleepingTaskWithoutWakeTick
| inactiveTaskWithStack
| readyQueueInvalidSlot
| readyQueueTaskIdMismatch
| readyQueueOverCapacity
| currentTaskInvalid
| switchedTaskInvalid
deriving DecidableEq, Repr

/- An issue that is recorded when a condition holds. -/
def AuditIssue.when (issue : AuditIssue) (condition : Bool) : List AuditIssue :=
  if condition then [issue] else []

def schedulerAuditTask (task : SchedulerTask) : List AuditIssue := if !task.used then
    AuditIssue.unusedTaskWithStack.when (task.kernelStackBase != 0 || task.kernelStackTop != 0)
  else if !schedulerTaskStateIsValid task.state then
    [.invalidUsedState]
  else
    AuditIssue.activeTaskWithoutStack.when
        (task.state.live && (task.kernelStackBase == 0 || task.kernelStackTop == 0)) ++
      AuditIssue.activeTaskWithoutEntry.when (task.state.live && task.entry == 0) ++
      AuditIssue.sleepingTaskWithoutWakeTick.when (task.state == .sleeping && task.wakeTick == 0) ++
      AuditIssue.inactiveTaskWithStack.when
        (task.state.inactive && (task.kernelStackBase != 0 || task.kernelStackTop != 0))

def schedulerAuditPlace (s : Scheduler) (place : ReadyPlace) : List AuditIssue :=
  if schedulerMaxTasks ≤ place.slot then
    [.readyQueueInvalidSlot]
  else
    AuditIssue.readyQueueTaskIdMismatch.when
      (!(s.tasks place.slot).used || place.taskId != (s.tasks place.slot).id)

def schedulerAuditReadyQueue (s : Scheduler) : List AuditIssue :=
  AuditIssue.readyQueueOverCapacity.when (decide (schedulerMaxTasks < s.readyQueue.length)) ++
    s.readyQueue.flatMap (schedulerAuditPlace s)

def schedulerAuditIssues (s : Scheduler) : List AuditIssue :=
  (List.range schedulerMaxTasks).flatMap (fun slot => schedulerAuditTask (s.tasks slot)) ++
    schedulerAuditReadyQueue s ++
    AuditIssue.currentTaskInvalid.when (!schedulerPointerPointsToTaskTable s.currentRunningTask) ++
    AuditIssue.switchedTaskInvalid.when (!schedulerPointerPointsToTaskTable s.currentSwitchedTask)

/- The number of issues found, which the audit returns. -/
def schedulerAudit (s : Scheduler) : Nat := (schedulerAuditIssues s).length

def schedulerFreeKernelStack (task : SchedulerTask) : SchedulerTask :=
  if task.kernelStackBase = 0 then task
  else
    { task with
      kernelStackBase := 0
      kernelStackSize := 0
      kernelStackTop := 0 }

/- What a repair makes of one task. -/
def schedulerRepairTask (task : SchedulerTask) : SchedulerTask := if !task.used then
    { schedulerFreeKernelStack task with
      kernelStackTop := 0
      kernelStackSize := 0 }
  else if !schedulerTaskStateIsValid task.state then
    schedulerFreeKernelStack { task with state := .disabled }
  else if task.state.live &&
      (task.entry == 0 || task.kernelStackBase == 0 || task.kernelStackTop == 0) then
    schedulerFreeKernelStack { task with state := .disabled }
  else
    let woken := if task.state == .sleeping && task.wakeTick == 0 then
        { task with state := .active }
      else task
    if woken.state.inactive then schedulerFreeKernelStack woken
    else woken

def schedulerRepair (s : Scheduler) : Scheduler :=
  { s.mapTasks schedulerRepairTask with
    currentRunningTask := if schedulerPointerPointsToTaskTable s.currentRunningTask
      then s.currentRunningTask else none
    currentSwitchedTask := if schedulerPointerPointsToTaskTable s.currentSwitchedTask
      then s.currentSwitchedTask else none
    readyQueue := [] }

----------
-- Creation

/- The scheduler after `scheduler_initialize`. -/
def schedulerInitialize (s : Scheduler) : Scheduler where
  initialized := true
  tasks := fun slot =>
    if slot < schedulerMaxTasks then clearedTask
    else s.tasks slot
  nextTaskId := 1
  currentTaskIndex := 0
  readyQueue := []
  currentRunningTask := none
  currentSwitchedTask := none
  runningOnTaskStack := false
  preemptTest := clearedPreemptTest
  timerTicks := s.timerTicks

/- The task when `kmalloc` has returned its stack. -/
def schedulerAllocateKernelStack (task : SchedulerTask) : Option StackBase → Option SchedulerTask
| none => none
| some stack =>
    some
      { task with
        kernelStackBase := stack.address
        kernelStackSize := schedulerKernelStackSize
        kernelStackTop := u32 (stack.address + schedulerKernelStackSize) }

def SchedulerTask.created (id intervalTicks entry now : Nat)
    (mode : SchedulerTaskMode) : SchedulerTask :=
  { clearedTask with
    used := true
    id := id
    state := .active
    mode := mode
    intervalTicks := intervalTicks
    lastRunTick := now
    runCount := 0
    entry := entry }

/- The result is the new id, and `none` stands for -1. -/
def schedulerCreateTaskInternal (s : Scheduler) (intervalTicks entry : Nat)
    (mode : SchedulerTaskMode)
    (stack : Option StackBase) : Option Nat × Scheduler :=
  if !s.initialized || entry == 0 then (none, s)
  else if mode == .recurring && intervalTicks == 0 then
    (none, s)
  else
    match schedulerFindAvailableSlot s with
    | none => (none, s)
    | some slot =>
      match schedulerAllocateKernelStack
          (SchedulerTask.created s.nextTaskId intervalTicks entry s.timerTicks mode)
          stack with
      | none => (none, s.setTask slot clearedTask)
      | some task =>
        (some task.id, { s.setTask slot task with nextTaskId := u32 (s.nextTaskId + 1) })

----------
-- Operations on a Task

def schedulerDisableTask (s : Scheduler) (taskId : Nat) : Bool × Scheduler :=
  match schedulerFindTaskById s taskId with
  | none => (false, s)
  | some slot =>
    let task := s.tasks slot
    if task.state != .active && task.state != .running then
      (false, s)
    else
      (true, s.setTask slot (schedulerFreeKernelStack { task with state := .disabled }))

def schedulerSleepTask (s : Scheduler) (taskId sleepTicks : Nat) : Bool × Scheduler :=
  match schedulerFindTaskById s taskId with
  | none => (false, s)
  | some slot =>
    let task := s.tasks slot
    if sleepTicks == 0 then (false, s)
    else if task.state != .active then (false, s)
    else
      (true, s.setTask slot
          { task with
            state := .sleeping
            wakeTick := u32 (s.timerTicks + sleepTicks)
            sleepCount := u32 (task.sleepCount + 1) })

def schedulerWakeTask (s : Scheduler) (taskId : Nat) : Bool × Scheduler :=
  match schedulerFindTaskById s taskId with
  | none => (false, s)
  | some slot =>
    let task := s.tasks slot
    if task.state != .sleeping then (false, s)
    else
      (true, s.setTask slot { task with state := .active, wakeTick := 0 })

def schedulerYieldTask (s : Scheduler) (taskId : Nat) : Bool × Scheduler :=
  match schedulerFindTaskById s taskId with
  | none => (false, s)
  | some slot =>
    let task := s.tasks slot
    if task.state != .active && task.state != .running then
      (false, s)
    else
      (true, s.setTask slot { task with lastRunTick := s.timerTicks })

def schedulerYieldCurrentTask (s : Scheduler) : Bool × Scheduler :=
  match s.currentRunningTask with
  | none => (false, s)
  | some slot => schedulerYieldTask s (s.tasks slot).id

def schedulerClearInactiveTask (task : SchedulerTask) : SchedulerTask :=
  if task.used && task.state.inactive then clearedTask
  else task

def schedulerClearInactiveTasks (s : Scheduler) : Scheduler :=
  { s.mapTasks schedulerClearInactiveTask with
    currentTaskIndex := if schedulerMaxTasks ≤ s.currentTaskIndex then 0 else s.currentTaskIndex
    readyQueue := [] }

----------
-- The Preemption Test

def schedulerEnablePreemptTest (s : Scheduler) (tickInterval : Nat) : Scheduler :=
  { s with
    preemptTest :=
      { s.preemptTest with
        enabled := true
        tickInterval := if tickInterval = 0 then 10 else tickInterval
        lastDispatchTick := s.timerTicks } }

def schedulerDisablePreemptTest (s : Scheduler) : Scheduler :=
  { s with
    preemptTest :=
      { s.preemptTest with
        enabled := false
        inTimerDispatch := false } }

def schedulerResetPreemptTest (s : Scheduler) : Scheduler :=
  { s with
    preemptTest := if s.preemptTest.enabled then
        { clearedPreemptTest with
          enabled := true
          tickInterval := if s.preemptTest.tickInterval = 0 then 10 else s.preemptTest.tickInterval
          lastDispatchTick := s.timerTicks }
      else clearedPreemptTest }

----------
-- The Trampoline

/- The trampoline up to the call of the entry. -/
def schedulerTrampolineEnter (s : Scheduler) (slot : Nat) : Scheduler :=
  { s.setTask slot { s.tasks slot with state := .running } with
    currentRunningTask := some slot }

/- What the return of an entry makes of the task in a slot. -/
def SchedulerTask.left (task : SchedulerTask) (onTaskStack : Bool) : SchedulerTask :=
  let counted := { task with runCount := u32 (task.runCount + 1) }
  if task.mode = .oneshot then
    if onTaskStack then { counted with state := .completed }
    else
      schedulerFreeKernelStack { counted with state := .completed }
  else { counted with state := .active }

/- The trampoline behind the return of the entry. -/
def schedulerTrampolineLeave (s : Scheduler) (slot : Nat) : Scheduler :=
  { s.setTask slot
      ((s.tasks slot).left s.runningOnTaskStack) with
    currentRunningTask := none }

/- The function that called the trampoline. -/
inductive Dispatcher
| runTaskNow
| runPending
| onTimerTick
| contextSwitch (slot : Nat)
deriving DecidableEq, Repr

/- What is left of the dispatcher behind the trampoline. -/
def Dispatcher.resume (s : Scheduler) : Dispatcher → Scheduler
| .runTaskNow => s
| .runPending => s
| .onTimerTick =>
    { s with preemptTest := { s.preemptTest with inTimerDispatch := false } }
| .contextSwitch slot =>
    { s with
      tasks := if (s.tasks slot).state = .completed then
          Function.update s.tasks slot (schedulerFreeKernelStack (s.tasks slot))
        else s.tasks
      runningOnTaskStack := false
      currentSwitchedTask := none }

----------
-- The Machine

/-
  How far a dispatch has come. A task that was switched to runs with interrupts on before it reads
  which task it is; when it finds none it halts.
-/
inductive DispatchPhase
| starting
| inEntry (slot : Nat)
| halted
deriving DecidableEq, Repr

/- A dispatch that has not returned. `entryOf` is the id of the task whose entry was called. -/
structure DispatchFrame where
  dispatcher : Dispatcher
  phase : DispatchPhase
  entryOf : Nat
deriving DecidableEq, Repr

/-
  `frames` are the dispatches in progress, the innermost first. `mainContext` is the number of
  dispatches below the context switch that saved `scheduler_main_context` last. `entryCalls` are
  the ids of the tasks whose entries were called, the latest first.
-/
structure SchedulerMachine where
  scheduler : Scheduler
  frames : List DispatchFrame
  mainContext : Option Nat
  entryCalls : List Nat

def SchedulerMachine.withScheduler (m : SchedulerMachine) (s : Scheduler) : SchedulerMachine :=
  { m with scheduler := s }

/- `scheduler_task_trampoline` called by a dispatcher. -/
def SchedulerMachine.trampoline (m : SchedulerMachine) (dispatcher : Dispatcher)
    (slot : Nat) : SchedulerMachine :=
  if (m.scheduler.tasks slot).entry = 0 then
    m.withScheduler (dispatcher.resume m.scheduler)
  else
    { m with
      scheduler := schedulerTrampolineEnter m.scheduler slot
      frames := ⟨dispatcher, .inEntry slot, (m.scheduler.tasks slot).id⟩ :: m.frames
      entryCalls := (m.scheduler.tasks slot).id :: m.entryCalls }

/- A dispatch sets the tick of the last run first. -/
def Scheduler.setLastRunTick (s : Scheduler) (slot : Nat) : Scheduler :=
  s.setTask slot { s.tasks slot with lastRunTick := s.timerTicks }

/- The scheduler in which a pending run selects a task. -/
def schedulerPendingSelection (s : Scheduler) : Scheduler :=
  schedulerWakeSleepingTasks s s.timerTicks

def SchedulerMachine.runPending (m : SchedulerMachine)
    (dispatcher : Dispatcher) : SchedulerMachine :=
  if !m.scheduler.initialized then
    m.withScheduler (dispatcher.resume m.scheduler)
  else
    match schedulerSelectNextReadyTask (schedulerPendingSelection m.scheduler)
        m.scheduler.timerTicks with
    | (none, s) => m.withScheduler (dispatcher.resume s)
    | (some slot, s) => (m.withScheduler (s.setLastRunTick slot)).trampoline dispatcher slot

/- The timer interrupt up to the pending run, and whether it makes one. -/
def schedulerTimerTick (s : Scheduler) (currentTick : Nat) : Bool × Scheduler :=
  if !s.initialized then (false, s)
  else
    let woken := schedulerWakeSleepingTasks s currentTick
    if !woken.preemptTest.enabled then (false, woken)
    else if woken.preemptTest.inTimerDispatch then
      (false, woken)
    else if sub32 currentTick woken.preemptTest.lastDispatchTick <
        woken.preemptTest.tickInterval then
      (false, woken)
    else
      (true,
        { woken with
          preemptTest :=
            { woken.preemptTest with
              inTimerDispatch := true
              lastDispatchTick := currentTick } })

def SchedulerMachine.onTimerTick (m : SchedulerMachine) (currentTick : Nat) : SchedulerMachine :=
  match schedulerTimerTick m.scheduler currentTick with
  | (false, s) => m.withScheduler s
  | (true, s) => (m.withScheduler s).runPending .onTimerTick

def SchedulerMachine.runTaskNow (m : SchedulerMachine) (taskId : Nat) : SchedulerMachine :=
  match schedulerFindTaskById m.scheduler taskId with
  | none => m
  | some slot =>
    if (m.scheduler.tasks slot).state != .active then m
    else
      (m.withScheduler (m.scheduler.setLastRunTick slot)).trampoline .runTaskNow slot

def SchedulerMachine.runTaskWithContextSwitch (m : SchedulerMachine)
    (taskId : Nat) : SchedulerMachine :=
  match schedulerFindTaskById m.scheduler taskId with
  | none => m
  | some slot =>
    let task := m.scheduler.tasks slot
    if task.state != .active then m
    else if task.kernelStackBase == 0 || task.kernelStackTop == 0 then m
    else
      { m with
        scheduler :=
          { m.scheduler.setLastRunTick slot with
            currentSwitchedTask := some slot
            runningOnTaskStack := true }
        frames := ⟨.contextSwitch slot, .starting, task.id⟩ :: m.frames
        mainContext := some m.frames.length }

/-
  The end of a dispatch. A task that was switched to resumes the context saved last; when that is
  not the context of its own dispatcher, the stack behind it has been reused and the code says
  nothing about what follows.
-/
def SchedulerMachine.leaveFrame (m : SchedulerMachine) (dispatcher : Dispatcher)
    (rest : List DispatchFrame) : Option SchedulerMachine :=
  match dispatcher with
  | .contextSwitch slot =>
    if m.mainContext = some rest.length then
      some
        { m with
          scheduler := (Dispatcher.contextSwitch slot).resume m.scheduler
          frames := rest }
    else none
  | direct =>
    some
      { m with
        scheduler := direct.resume m.scheduler
        frames := rest }

/- The entry of the innermost dispatch returns. -/
def SchedulerMachine.entryReturns (m : SchedulerMachine) : Option SchedulerMachine :=
  match m.frames with
  | ⟨dispatcher, .inEntry slot, _⟩ :: rest =>
    (m.withScheduler (schedulerTrampolineLeave m.scheduler slot)).leaveFrame dispatcher rest
  | _ => none

/- `scheduler_switched_task_entry` on the stack of the task. -/
def SchedulerMachine.switchedTaskEntry (m : SchedulerMachine) : Option SchedulerMachine :=
  match m.frames with
  | ⟨dispatcher, .starting, taskId⟩ :: rest =>
    match m.scheduler.currentSwitchedTask with
    | none =>
      some { m with frames := ⟨dispatcher, .halted, taskId⟩ :: rest }
    | some slot =>
      if (m.scheduler.tasks slot).entry = 0 then
        m.leaveFrame dispatcher rest
      else
        some
          { m with
            scheduler := schedulerTrampolineEnter m.scheduler slot
            frames := ⟨dispatcher, .inEntry slot, (m.scheduler.tasks slot).id⟩ :: rest
            entryCalls := (m.scheduler.tasks slot).id :: m.entryCalls }
  | _ => none

/-
  The calls of the public functions that change the scheduler, the timer interrupt, and the two
  ways in which a dispatch in progress goes on. `stack` is what `kmalloc` returns.
-/
inductive SchedulerCall
| schedulerInitialize
| createKernelTask
    (intervalTicks entry : Nat)
    (stack : Option StackBase)
| createOneshotKernelTask
    (entry : Nat)
    (stack : Option StackBase)
| disableTask (taskId : Nat)
| sleepTask (taskId sleepTicks : Nat)
| wakeTask (taskId : Nat)
| yieldTask (taskId : Nat)
| yieldCurrentTask
| runTaskNow (taskId : Nat)
| runTaskWithContextSwitch (taskId : Nat)
| clearInactiveTasks
| repair
| runPending
| onTimerTick (currentTick : Nat)
| timerInterrupt
| enablePreemptTest (tickInterval : Nat)
| disablePreemptTest
| resetPreemptTest
| switchedTaskEntry
| entryReturns

/- The interrupt of the timer counts a tick. -/
def SchedulerMachine.tick (m : SchedulerMachine) : SchedulerMachine := m.withScheduler
    { m.scheduler with timerTicks := u32 (m.scheduler.timerTicks + 1) }

def SchedulerMachine.step (m : SchedulerMachine) : SchedulerCall → Option SchedulerMachine
| .schedulerInitialize =>
    some
      { m with
        scheduler := schedulerInitialize m.scheduler
        mainContext := none }
| .createKernelTask intervalTicks entry stack =>
    some
      (m.withScheduler
        (schedulerCreateTaskInternal m.scheduler intervalTicks entry .recurring stack).2)
| .createOneshotKernelTask entry stack =>
    some (m.withScheduler (schedulerCreateTaskInternal m.scheduler 0 entry .oneshot stack).2)
| .disableTask taskId => some (m.withScheduler (schedulerDisableTask m.scheduler taskId).2)
| .sleepTask taskId sleepTicks =>
    some (m.withScheduler (schedulerSleepTask m.scheduler taskId sleepTicks).2)
| .wakeTask taskId => some (m.withScheduler (schedulerWakeTask m.scheduler taskId).2)
| .yieldTask taskId => some (m.withScheduler (schedulerYieldTask m.scheduler taskId).2)
| .yieldCurrentTask => some (m.withScheduler (schedulerYieldCurrentTask m.scheduler).2)
| .runTaskNow taskId => some (m.runTaskNow taskId)
| .runTaskWithContextSwitch taskId => some (m.runTaskWithContextSwitch taskId)
| .clearInactiveTasks => some (m.withScheduler (schedulerClearInactiveTasks m.scheduler))
| .repair => some (m.withScheduler (schedulerRepair m.scheduler))
| .runPending => some (m.runPending .runPending)
| .onTimerTick currentTick => some (m.onTimerTick currentTick)
| .timerInterrupt => some (m.tick.onTimerTick m.tick.scheduler.timerTicks)
| .enablePreemptTest tickInterval =>
    some (m.withScheduler (schedulerEnablePreemptTest m.scheduler tickInterval))
| .disablePreemptTest => some (m.withScheduler (schedulerDisablePreemptTest m.scheduler))
| .resetPreemptTest => some (m.withScheduler (schedulerResetPreemptTest m.scheduler))
| .switchedTaskEntry => m.switchedTaskEntry
| .entryReturns => m.entryReturns

/- The machine when the kernel has initialized the scheduler. -/
def SchedulerMachine.booted (timerTicks : Nat) : SchedulerMachine where
  scheduler := schedulerInitialize
      { initialized := false
        tasks := fun _ => clearedTask
        nextTaskId := 0
        currentTaskIndex := 0
        readyQueue := []
        currentRunningTask := none
        currentSwitchedTask := none
        runningOnTaskStack := false
        preemptTest := clearedPreemptTest
        timerTicks := timerTicks }
  frames := []
  mainContext := none
  entryCalls := []

end LiamOS.I386
