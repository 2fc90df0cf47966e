import LiamOS.I386.Scheduler.Model

/-
  How the operations of the scheduler end.

  Each operation on a task either leaves the scheduler as it was or replaces the task of one slot.
  The lemmas here say which slot and with what, so that later proofs never unfold an operation.
-/

namespace LiamOS.I386

open Word

variable {s : Scheduler} {slot : Nat} {m m' : SchedulerMachine}

----------
-- Finding a Slot

theorem schedulerFindTaskById_spec {taskId : Nat}
    (hFound : schedulerFindTaskById s taskId = some slot) :
    slot < schedulerMaxTasks ∧ (s.tasks slot).used = true ∧ (s.tasks slot).id = taskId := by
  have hMem := List.mem_of_find?_eq_some hFound
  have hTest := List.find?_some hFound
  simp only [Bool.and_eq_true, beq_iff_eq] at hTest
  exact ⟨List.mem_range.mp hMem, hTest⟩

theorem schedulerFindAvailableSlot_spec (hFound : schedulerFindAvailableSlot s = some slot) :
    slot < schedulerMaxTasks ∧ (s.tasks slot).available = true := by
  have hMem := List.mem_of_find?_eq_some hFound
  have hTest := List.find?_some hFound
  exact ⟨List.mem_range.mp hMem, hTest⟩

----------
-- Replacing a Task

theorem setTask_self (s : Scheduler) (slot : Nat) (task : SchedulerTask) :
    (s.setTask slot task).tasks slot = task := by
  simp [Scheduler.setTask]

theorem setTask_of_ne (s : Scheduler) {other : Nat} (hNe : other ≠ slot) (task : SchedulerTask) :
    (s.setTask slot task).tasks other = s.tasks other := by
  simp [Scheduler.setTask, hNe]

/- What holds of the new task and of every other one holds of the whole table. -/
theorem setTask_forall {P : Nat → SchedulerTask → Prop} {s : Scheduler} {slot : Nat}
    {task : SchedulerTask} (hSelf : P slot task)
    (hOthers : ∀ other, other ≠ slot → P other (s.tasks other)) (other : Nat) :
    P other ((s.setTask slot task).tasks other) := by
  by_cases hEq : other = slot
  · subst hEq
    rw [setTask_self]
    exact hSelf
  · rw [setTask_of_ne s hEq]
    exact hOthers other hEq

theorem mapTasks_tasks (s : Scheduler) (f : SchedulerTask → SchedulerTask)
    (hSlot : slot < schedulerMaxTasks) :
    (s.mapTasks f).tasks slot = f (s.tasks slot) :=
  if_pos hSlot

----------
-- Creation

/- The slot a creation takes, if it gets that far. -/
def schedulerCreateSlot (s : Scheduler) (intervalTicks entry : Nat)
    (mode : SchedulerTaskMode) : Option Nat :=
  if !s.initialized || entry == 0 then none
  else if mode == .recurring && intervalTicks == 0 then none
  else schedulerFindAvailableSlot s

/- The new task with its stack. -/
def SchedulerTask.createdOn (stack : StackBase) (id intervalTicks entry now : Nat)
    (mode : SchedulerTaskMode) : SchedulerTask :=
  { SchedulerTask.created id intervalTicks entry now mode with
    kernelStackBase := stack.address
    kernelStackSize := schedulerKernelStackSize
    kernelStackTop := u32 (stack.address + schedulerKernelStackSize) }

theorem schedulerCreateSlot_spec {intervalTicks entry : Nat} {mode : SchedulerTaskMode}
    (hSlot : schedulerCreateSlot s intervalTicks entry mode = some slot) :
    entry ≠ 0 ∧ schedulerFindAvailableSlot s = some slot := by
  unfold schedulerCreateSlot at hSlot
  split at hSlot
  · cases hSlot
  · next hReady =>
      split at hSlot
      · cases hSlot
      · refine ⟨?_, hSlot⟩
        rintro rfl
        simp at hReady

/-
  A creation stops in front of the table, clears a slot when no stack is left, or puts a new task
  into it.
-/
theorem schedulerCreateTaskInternal_cases (s : Scheduler) (intervalTicks entry : Nat)
    (mode : SchedulerTaskMode) (stack : Option StackBase) :
    (schedulerCreateSlot s intervalTicks entry mode = none ∧
        schedulerCreateTaskInternal s intervalTicks entry mode stack = (none, s)) ∨
      ∃ slot, schedulerCreateSlot s intervalTicks entry mode = some slot ∧
          ((stack = none ∧ schedulerCreateTaskInternal s intervalTicks entry mode stack =
                (none, s.setTask slot clearedTask)) ∨
            ∃ base,
              stack = some base ∧ schedulerCreateTaskInternal s intervalTicks entry mode stack =
                  (some s.nextTaskId,
                    { s.setTask slot (SchedulerTask.createdOn base s.nextTaskId intervalTicks entry
                          s.timerTicks mode) with
                      nextTaskId := u32 (s.nextTaskId + 1) })) := by
  unfold schedulerCreateSlot schedulerCreateTaskInternal
  split
  · exact Or.inl ⟨rfl, rfl⟩
  · split
    · exact Or.inl ⟨rfl, rfl⟩
    · cases hSlot : schedulerFindAvailableSlot s with
      | none => exact Or.inl ⟨rfl, rfl⟩
      | some slot =>
        refine Or.inr ⟨slot, rfl, ?_⟩
        cases stack with
        | none => exact Or.inl ⟨rfl, rfl⟩
        | some base => exact Or.inr ⟨base, rfl, rfl⟩

----------
-- Operations on a Task

theorem schedulerDisableTask_cases (s : Scheduler) (taskId : Nat) :
    schedulerDisableTask s taskId = (false, s) ∨
      ∃ slot, schedulerFindTaskById s taskId = some slot ∧ (s.tasks slot).state.live = true ∧
          schedulerDisableTask s taskId =
            (true, s.setTask slot
                (schedulerFreeKernelStack { s.tasks slot with state := .disabled })) := by
  unfold schedulerDisableTask
  cases hFound : schedulerFindTaskById s taskId with
  | none => exact Or.inl rfl
  | some slot =>
    dsimp only
    split
    · exact Or.inl rfl
    · next hState =>
        refine Or.inr ⟨slot, rfl, ?_, rfl⟩
        cases hTask : (s.tasks slot).state <;>
          simp [hTask, SchedulerTaskState.live] at hState ⊢

theorem schedulerSleepTask_cases (s : Scheduler) (taskId sleepTicks : Nat) :
    schedulerSleepTask s taskId sleepTicks = (false, s) ∨
      ∃ slot, schedulerFindTaskById s taskId = some slot ∧ (s.tasks slot).state = .active ∧
          schedulerSleepTask s taskId sleepTicks =
            (true, s.setTask slot
                { s.tasks slot with
                  state := .sleeping
                  wakeTick := u32 (s.timerTicks + sleepTicks)
                  sleepCount := u32 ((s.tasks slot).sleepCount + 1) }) := by
  unfold schedulerSleepTask
  cases hFound : schedulerFindTaskById s taskId with
  | none => exact Or.inl rfl
  | some slot =>
    dsimp only
    split
    · exact Or.inl rfl
    · split
      · exact Or.inl rfl
      · next hState =>
          exact Or.inr ⟨slot, rfl, by simpa using hState, rfl⟩

theorem schedulerWakeTask_cases (s : Scheduler) (taskId : Nat) :
    schedulerWakeTask s taskId = (false, s) ∨
      ∃ slot, schedulerFindTaskById s taskId = some slot ∧ (s.tasks slot).state = .sleeping ∧
          schedulerWakeTask s taskId =
            (true, s.setTask slot
                { s.tasks slot with
                  state := .active
                  wakeTick := 0 }) := by
  unfold schedulerWakeTask
  cases hFound : schedulerFindTaskById s taskId with
  | none => exact Or.inl rfl
  | some slot =>
    dsimp only
    split
    · exact Or.inl rfl
    · next hState =>
        exact Or.inr ⟨slot, rfl, by simpa using hState, rfl⟩

theorem schedulerYieldTask_cases (s : Scheduler) (taskId : Nat) :
    schedulerYieldTask s taskId = (false, s) ∨ ∃ slot, schedulerFindTaskById s taskId = some slot ∧
          schedulerYieldTask s taskId = (true, s.setLastRunTick slot) := by
  unfold schedulerYieldTask
  cases hFound : schedulerFindTaskById s taskId with
  | none => exact Or.inl rfl
  | some slot =>
    dsimp only
    split
    · exact Or.inl rfl
    · exact Or.inr ⟨slot, rfl, rfl⟩

/- A yield of the current task is a yield or nothing. -/
theorem schedulerYieldCurrentTask_cases (s : Scheduler) : schedulerYieldCurrentTask s = (false, s) ∨
      ∃ taskId, schedulerYieldCurrentTask s = schedulerYieldTask s taskId := by
  unfold schedulerYieldCurrentTask
  split
  · exact Or.inl rfl
  · exact Or.inr ⟨_, rfl⟩

----------
-- Dispatches

theorem SchedulerMachine.runTaskNow_cases (m : SchedulerMachine) (taskId : Nat) :
    m.runTaskNow taskId = m ∨ ∃ slot, schedulerFindTaskById m.scheduler taskId = some slot ∧
          (m.scheduler.tasks slot).state = .active ∧
          m.runTaskNow taskId =
            (m.withScheduler (m.scheduler.setLastRunTick slot)).trampoline .runTaskNow slot := by
  unfold SchedulerMachine.runTaskNow
  cases hFound : schedulerFindTaskById m.scheduler taskId with
  | none => exact Or.inl rfl
  | some slot =>
    dsimp only
    split
    · exact Or.inl rfl
    · next hState =>
        exact Or.inr ⟨slot, rfl, by simpa using hState, rfl⟩

theorem SchedulerMachine.runTaskWithContextSwitch_cases (m : SchedulerMachine) (taskId : Nat) :
    m.runTaskWithContextSwitch taskId = m ∨
      ∃ slot, schedulerFindTaskById m.scheduler taskId = some slot ∧
          (m.scheduler.tasks slot).state = .active ∧
          m.runTaskWithContextSwitch taskId =
            { m with
              scheduler :=
                { m.scheduler.setLastRunTick slot with
                  currentSwitchedTask := some slot
                  runningOnTaskStack := true }
              frames := ⟨.contextSwitch slot, .starting, (m.scheduler.tasks slot).id⟩ :: m.frames
              mainContext := some m.frames.length } := by
  unfold SchedulerMachine.runTaskWithContextSwitch
  cases hFound : schedulerFindTaskById m.scheduler taskId with
  | none => exact Or.inl rfl
  | some slot =>
    dsimp only
    split
    · exact Or.inl rfl
    · next hState =>
        split
        · exact Or.inl rfl
        · exact Or.inr ⟨slot, rfl, by simpa using hState, rfl⟩

/- The timer interrupt wakes tasks and changes no other. -/
theorem schedulerTimerTick_cases (s : Scheduler) (currentTick : Nat) :
    (s.initialized = false ∧ schedulerTimerTick s currentTick = (false, s)) ∨
      schedulerTimerTick s currentTick = (false, schedulerWakeSleepingTasks s currentTick) ∨
        s.preemptTest.enabled = true ∧ ∃ preemptTest, schedulerTimerTick s currentTick =
              (true,
                { schedulerWakeSleepingTasks s currentTick with preemptTest := preemptTest }) := by
  unfold schedulerTimerTick
  split
  · next hOff => exact Or.inl ⟨by simpa using hOff, rfl⟩
  · dsimp only
    split
    · exact Or.inr (Or.inl rfl)
    · next hEnabled =>
        split
        · exact Or.inr (Or.inl rfl)
        · split
          · exact Or.inr (Or.inl rfl)
          · have hOn : s.preemptTest.enabled = true := by
              simpa [schedulerWakeSleepingTasks, Scheduler.mapTasks] using hEnabled
            exact Or.inr (Or.inr ⟨hOn, _, rfl⟩)

----------
-- The End of a Dispatch

theorem SchedulerMachine.leaveFrame_cases {dispatcher : Dispatcher} {rest : List DispatchFrame}
    (hLeave : m.leaveFrame dispatcher rest = some m') :
    m'.scheduler = dispatcher.resume m.scheduler ∧ m'.frames = rest ∧
      m'.entryCalls = m.entryCalls := by
  unfold SchedulerMachine.leaveFrame at hLeave
  cases dispatcher with
  | contextSwitch slot =>
    dsimp only at hLeave
    split at hLeave
    · cases hLeave
      exact ⟨rfl, rfl, rfl⟩
    · cases hLeave
  | runTaskNow =>
    cases hLeave
    exact ⟨rfl, rfl, rfl⟩
  | runPending =>
    cases hLeave
    exact ⟨rfl, rfl, rfl⟩
  | onTimerTick =>
    cases hLeave
    exact ⟨rfl, rfl, rfl⟩

theorem SchedulerMachine.entryReturns_cases (hReturns : m.entryReturns = some m') :
    ∃ dispatcher slot taskId rest, m.frames = ⟨dispatcher, .inEntry slot, taskId⟩ :: rest ∧
        m'.scheduler = dispatcher.resume (schedulerTrampolineLeave m.scheduler slot) ∧
        m'.entryCalls = m.entryCalls := by
  unfold SchedulerMachine.entryReturns at hReturns
  split at hReturns
  · next dispatcher slot taskId rest hFrames =>
      have hLeft := SchedulerMachine.leaveFrame_cases hReturns
      exact ⟨dispatcher, slot, taskId, rest, hFrames, hLeft.1, hLeft.2.2⟩
  · cases hReturns

/-
  A task that was switched to halts when it finds no task, leaves at once when the task has no
  entry, or calls the entry.
-/
theorem SchedulerMachine.switchedTaskEntry_cases (hEntry : m.switchedTaskEntry = some m') :
    ∃ dispatcher taskId rest, m.frames = ⟨dispatcher, .starting, taskId⟩ :: rest ∧
        ((m.scheduler.currentSwitchedTask = none ∧ m'.scheduler = m.scheduler ∧
            m'.entryCalls = m.entryCalls) ∨
          ∃ slot, m.scheduler.currentSwitchedTask = some slot ∧
              (((m.scheduler.tasks slot).entry = 0 ∧ m'.scheduler = dispatcher.resume m.scheduler ∧
                  m'.entryCalls = m.entryCalls) ∨
                ((m.scheduler.tasks slot).entry ≠ 0 ∧
                  m'.scheduler = schedulerTrampolineEnter m.scheduler slot ∧
                  m'.entryCalls = (m.scheduler.tasks slot).id :: m.entryCalls))) := by
  unfold SchedulerMachine.switchedTaskEntry at hEntry
  split at hEntry
  · next dispatcher taskId rest hFrames =>
      refine ⟨dispatcher, taskId, rest, hFrames, ?_⟩
      cases hSwitched : m.scheduler.currentSwitchedTask with
      | none =>
        rw [hSwitched] at hEntry
        cases hEntry
        exact Or.inl ⟨rfl, rfl, rfl⟩
      | some slot =>
        rw [hSwitched] at hEntry
        refine Or.inr ⟨slot, rfl, ?_⟩
        dsimp only at hEntry
        split at hEntry
        · next hNone =>
            have hLeft := SchedulerMachine.leaveFrame_cases hEntry
            exact Or.inl ⟨hNone, hLeft.1, hLeft.2.2⟩
        · next hSome =>
            cases hEntry
            exact Or.inr ⟨hSome, rfl, rfl⟩
  · cases hEntry

----------
-- Fields a Change Keeps

/- Tasks that differ in their stacks only. -/
structure SchedulerTask.SameButStack (task task' : SchedulerTask) : Prop where
  used : task'.used = task.used
  id : task'.id = task.id
  state : task'.state = task.state
  mode : task'.mode = task.mode
  runCount : task'.runCount = task.runCount

theorem SchedulerTask.SameButStack.refl (task : SchedulerTask) : task.SameButStack task :=
  ⟨rfl, rfl, rfl, rfl, rfl⟩

theorem schedulerFreeKernelStack_same (task : SchedulerTask) :
    task.SameButStack (schedulerFreeKernelStack task) := by
  unfold schedulerFreeKernelStack
  split
  · exact .refl _
  · exact ⟨rfl, rfl, rfl, rfl, rfl⟩

/- The dispatcher changes at most stacks behind the trampoline. -/
theorem resume_same (s : Scheduler) (dispatcher : Dispatcher) (slot : Nat) :
    (s.tasks slot).SameButStack ((dispatcher.resume s).tasks slot) := by
  cases dispatcher with
  | runTaskNow => exact .refl _
  | runPending => exact .refl _
  | onTimerTick => exact .refl _
  | contextSwitch switched =>
    unfold Dispatcher.resume
    dsimp only
    split
    · by_cases hEq : slot = switched
      · subst hEq
        rw [Function.update_self]
        exact schedulerFreeKernelStack_same _
      · rw [Function.update_of_ne hEq]
        exact .refl _
    · exact .refl _

end LiamOS.I386
