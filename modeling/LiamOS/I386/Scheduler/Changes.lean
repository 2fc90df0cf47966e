import LiamOS.I386.Scheduler.Selection

/-
  What a call of the scheduler can make of the task in a slot.

  A step is a sequence of single changes of tasks, each of them possible for few calls only. An
  invariant of single tasks is therefore proved once for each kind of change, and
  `SchedulerMachine.step_changes` carries it over to every call.

  Key definitions: `TaskChange`, `SchedulerMachine.Changes`.
-/

namespace LiamOS.I386

open Word RoundRobin Transition Relation

variable {s s' : Scheduler} {task task' : SchedulerTask} {slot : Nat} {m m' : SchedulerMachine}
variable {call : SchedulerCall}
variable {s'' : Scheduler}

----------
-- Single Changes

def SchedulerCall.creates : SchedulerCall → Bool
| .createKernelTask _ _ _ => true
| .createOneshotKernelTask _ _ => true
| _ => false

/- The changes of one task that a call is made of. -/
inductive TaskChange : SchedulerCall → SchedulerTask → SchedulerTask → Prop
| initialized (task : SchedulerTask) : TaskChange .schedulerInitialize task clearedTask
| emptied (call : SchedulerCall) (task : SchedulerTask) (hCreates : call.creates = true)
    (hFree : task.available = true) :
    TaskChange call task clearedTask
| created (call : SchedulerCall) (task : SchedulerTask) (hCreates : call.creates = true)
    (hFree : task.available = true) (stack : StackBase) (id intervalTicks entry now : Nat)
    (mode : SchedulerTaskMode) :
    TaskChange call task (SchedulerTask.createdOn stack id intervalTicks entry now mode)
| dated (call : SchedulerCall) (task : SchedulerTask) (now : Nat) :
    TaskChange call task { task with lastRunTick := now }
| woken (call : SchedulerCall) (task : SchedulerTask) (hSleeping : task.state = .sleeping) :
    TaskChange call task { task with state := .active, wakeTick := 0 }
| started (call : SchedulerCall) (task : SchedulerTask) (hActive : task.state = .active) :
    TaskChange call task { task with state := .running }
| ended (call : SchedulerCall) (task : SchedulerTask) :
    TaskChange call task (schedulerFreeKernelStack task)
| slept (taskId sleepTicks now : Nat) (task : SchedulerTask) (hActive : task.state = .active) :
    TaskChange (.sleepTask taskId sleepTicks) task
      { task with
        state := .sleeping
        wakeTick := u32 (now + sleepTicks)
        sleepCount := u32 (task.sleepCount + 1) }
| disabled (taskId : Nat) (task : SchedulerTask) (hLive : task.state.live = true) :
    TaskChange (.disableTask taskId) task
      (schedulerFreeKernelStack { task with state := .disabled })
| cleared (task : SchedulerTask) : TaskChange .clearInactiveTasks task clearedTask
| repaired (task : SchedulerTask) : TaskChange .repair task (schedulerRepairTask task)
| entered (task : SchedulerTask) : TaskChange .switchedTaskEntry task { task with state := .running }
| left (task : SchedulerTask) (onTaskStack : Bool) :
    TaskChange .entryReturns task (task.left onTaskStack)

/-
  The tasks of the table change by single changes only, no call takes the scheduler down, and only
  a creation takes an id.
-/
structure Scheduler.Changes (call : SchedulerCall) (s s' : Scheduler) : Prop where
  tasks : ∀ slot, slot < schedulerMaxTasks →
      ReflTransGen (TaskChange call) (s.tasks slot) (s'.tasks slot)
  initialized : s.initialized = true → s'.initialized = true
  nextTaskId : call.creates = false → call ≠ .schedulerInitialize → s'.nextTaskId = s.nextTaskId

theorem Scheduler.Changes.of_tasks (hTasks : s'.tasks = s.tasks)
    (hRest : s'.initialized = s.initialized ∧ s'.nextTaskId = s.nextTaskId) :
    s.Changes call s' := by
  refine ⟨?_, fun hOn => hRest.1.trans hOn, fun _ _ => hRest.2⟩
  intro slot _
  rw [hTasks]

theorem Scheduler.Changes.trans (hLeft : s.Changes call s') (hRight : s'.Changes call s'') :
    s.Changes call s'' :=
  ⟨fun slot hSlot => (hLeft.tasks slot hSlot).trans (hRight.tasks slot hSlot),
    fun hOn => hRight.initialized (hLeft.initialized hOn),
    fun hKeeps hCall => (hRight.nextTaskId hKeeps hCall).trans (hLeft.nextTaskId hKeeps hCall)⟩

/- The rest of the scheduler may change as well. -/
theorem Scheduler.Changes.elsewhere (hChanges : s.Changes call s') (hTasks : s''.tasks = s'.tasks)
    (hRest : s''.initialized = s'.initialized ∧ s''.nextTaskId = s'.nextTaskId) :
    s.Changes call s'' :=
  hChanges.trans (.of_tasks hTasks hRest)

theorem Scheduler.Changes.setTask
    (hTask : slot < schedulerMaxTasks → ReflTransGen (TaskChange call) (s.tasks slot) task) :
    s.Changes call (s.setTask slot task) :=
  ⟨@setTask_forall (fun other task => other < schedulerMaxTasks →
      ReflTransGen (TaskChange call) (s.tasks other) task) _ _ _ hTask (fun _ _ _ => .refl),
    fun hOn => hOn, fun _ _ => rfl⟩

theorem Scheduler.Changes.mapTasks {f : SchedulerTask → SchedulerTask}
    (hTask : ∀ task, ReflTransGen (TaskChange call) task (f task)) :
    s.Changes call (s.mapTasks f) := by
  refine ⟨?_, fun hOn => hOn, fun _ _ => rfl⟩
  intro slot hSlot
  rw [mapTasks_tasks s f hSlot]
  exact hTask _

theorem setLastRunTick_changes (s : Scheduler) (slot : Nat) :
    s.Changes call (s.setLastRunTick slot) :=
  .setTask fun _ => .single (.dated _ _ _)

theorem schedulerWakeSleepingTasks_changes (s : Scheduler) (currentTick : Nat) :
    s.Changes call (schedulerWakeSleepingTasks s currentTick) := by
  refine .mapTasks ?_
  intro task
  unfold schedulerWakeDue
  split
  · exact .refl
  · next hSleeping =>
      split
      · simp only [Bool.or_eq_true, not_or] at hSleeping
        exact .single (.woken _ _ (by simpa using hSleeping.2))
      · exact .refl

theorem resume_changes (s : Scheduler) (dispatcher : Dispatcher) :
    s.Changes call (dispatcher.resume s) := by
  cases dispatcher with
  | contextSwitch switched =>
    by_cases hDone : (s.tasks switched).state = .completed
    · have hSet : s.Changes call (s.setTask switched (schedulerFreeKernelStack (s.tasks switched))) :=
        .setTask fun _ => .single (.ended _ _)
      refine ⟨?_, fun hOn => hOn, fun _ _ => rfl⟩
      intro slot hSlot
      simpa [Dispatcher.resume, hDone, Scheduler.setTask] using hSet.tasks slot hSlot
    · exact .of_tasks (by simp [Dispatcher.resume, hDone]) ⟨rfl, rfl⟩
  | _ => exact .of_tasks rfl ⟨rfl, rfl⟩

----------
-- Changes of a Machine

/-
  A step that changes tasks by single changes, and calls at most the entry of a task that it found
  active.
-/
structure SchedulerMachine.Changes (call : SchedulerCall) (m m' : SchedulerMachine) : Prop where
  tasks : m.scheduler.Changes call m'.scheduler
  calls : m'.entryCalls = m.entryCalls ∨ ∃ slot task, slot < schedulerMaxTasks ∧
      ReflTransGen (TaskChange call) (m.scheduler.tasks slot) task ∧ task.used = true ∧
      task.state = .active ∧ m'.entryCalls = task.id :: m.entryCalls

theorem SchedulerMachine.Changes.of_scheduler (hChanges : m.scheduler.Changes call s) :
    m.Changes call (m.withScheduler s) :=
  ⟨hChanges, Or.inl rfl⟩

/- A change of the table in front of a step. -/
theorem SchedulerMachine.Changes.after (hFirst : m.scheduler.Changes call s)
    (hSecond : (m.withScheduler s).Changes call m') :
    m.Changes call m' := by
  refine ⟨hFirst.trans hSecond.tasks, ?_⟩
  rcases hSecond.calls with hSame | ⟨slot, task, hSlot, hTask, hActive⟩
  · exact Or.inl hSame
  · exact Or.inr ⟨slot, task, hSlot, (hFirst.tasks slot hSlot).trans hTask, hActive⟩

/- A dispatch of an active task. -/
theorem dispatch_changes (dispatcher : Dispatcher) (hSlot : slot < schedulerMaxTasks)
    (hUsed : (s.tasks slot).used = true) (hActive : (s.tasks slot).state = .active) :
    (m.withScheduler s).Changes call
      ((m.withScheduler (s.setLastRunTick slot)).trampoline dispatcher slot) := by
  have hDated : s.Changes call (s.setLastRunTick slot) := setLastRunTick_changes s slot
  have hSelf :
      (s.setLastRunTick slot).tasks slot = { s.tasks slot with lastRunTick := s.timerTicks } :=
    setTask_self _ _ _
  have hStill : ((s.setLastRunTick slot).tasks slot).used = true ∧
      ((s.setLastRunTick slot).tasks slot).state = .active := by
    rw [hSelf]
    exact ⟨hUsed, hActive⟩
  unfold SchedulerMachine.trampoline
  split
  · exact ⟨hDated.trans (resume_changes _ _), Or.inl rfl⟩
  · exact ⟨hDated.trans
        ((Scheduler.Changes.setTask fun _ => .single (.started _ _ hStill.2)).elsewhere rfl ⟨rfl, rfl⟩),
      Or.inr ⟨slot, _, hSlot, hDated.tasks slot hSlot, hStill.1, hStill.2, rfl⟩⟩

theorem runPending_changes (m : SchedulerMachine) (dispatcher : Dispatcher) :
    m.Changes call (m.runPending dispatcher) := by
  have hWoken : m.scheduler.Changes call (schedulerPendingSelection m.scheduler) :=
    schedulerWakeSleepingTasks_changes _ _
  have hSelect : m.scheduler.Changes call m.scheduler.selected :=
    hWoken.trans (.of_tasks m.scheduler.selected_tasks (by
      rw [Scheduler.selected, schedulerSelectNextReadyTask_snd]
      exact ⟨rfl, rfl⟩))
  rcases m.runPending_cases dispatcher with
    ⟨-, hEq⟩ | ⟨-, hEq | ⟨slot, hSlot, hUsed, hActive, hEq⟩⟩
  · rw [hEq]
    exact .of_scheduler (resume_changes _ _)
  · rw [hEq]
    exact .of_scheduler (hSelect.trans (resume_changes _ _))
  · rw [hEq]
    exact .after hSelect (dispatch_changes dispatcher hSlot hUsed hActive)

theorem onTimerTick_changes (m : SchedulerMachine) (currentTick : Nat) :
    m.Changes call (m.onTimerTick currentTick) := by
  have hWoken : m.scheduler.Changes call (schedulerWakeSleepingTasks m.scheduler currentTick) :=
    schedulerWakeSleepingTasks_changes _ _
  unfold SchedulerMachine.onTimerTick
  rcases schedulerTimerTick_cases m.scheduler currentTick with ⟨-, hEq⟩ | hEq | ⟨-, preemptTest, hEq⟩
  · rw [hEq]
    exact .of_scheduler (.of_tasks rfl ⟨rfl, rfl⟩)
  · rw [hEq]
    exact .of_scheduler hWoken
  · rw [hEq]
    refine SchedulerMachine.Changes.after ?_ (runPending_changes _ _)
    exact hWoken.trans (.of_tasks rfl ⟨rfl, rfl⟩)

theorem schedulerYieldTask_changes (s : Scheduler) (taskId : Nat) :
    s.Changes call (schedulerYieldTask s taskId).2 := by
  rcases schedulerYieldTask_cases s taskId with hEq | ⟨slot, -, hEq⟩
  · rw [hEq]
    exact .of_tasks rfl ⟨rfl, rfl⟩
  · rw [hEq]
    exact setLastRunTick_changes _ _

theorem schedulerCreateTaskInternal_changes (s : Scheduler) (intervalTicks entry : Nat)
    (mode : SchedulerTaskMode) (stack : Option StackBase) (hCreates : call.creates = true) :
    s.Changes call (schedulerCreateTaskInternal s intervalTicks entry mode stack).2 := by
  rcases schedulerCreateTaskInternal_cases s intervalTicks entry mode stack with
    ⟨-, hEq⟩ | ⟨slot, hSlot, ⟨-, hEq⟩ | ⟨base, -, hEq⟩⟩
  · rw [hEq]
    exact .of_tasks rfl ⟨rfl, rfl⟩
  · rw [hEq]
    have hFree := (schedulerFindAvailableSlot_spec (schedulerCreateSlot_spec hSlot).2).2
    exact .setTask fun _ => .single (.emptied _ _ hCreates hFree)
  · rw [hEq]
    have hFree := (schedulerFindAvailableSlot_spec (schedulerCreateSlot_spec hSlot).2).2
    have hSet : s.Changes call (s.setTask slot
        (SchedulerTask.createdOn base s.nextTaskId intervalTicks entry s.timerTicks mode)) :=
      .setTask fun _ => .single (.created _ _ hCreates hFree _ _ _ _ _ _)
    exact ⟨hSet.tasks, hSet.initialized, fun hNot => absurd (hNot.symm.trans hCreates) nofun⟩

----------
-- Every Call

/- Every step but the first of a switched task changes tasks as its call allows. -/
theorem SchedulerMachine.step_changes (hStep : m.step call = some m')
    (hCall : call ≠ .switchedTaskEntry) :
    m.Changes call m' := by
  cases call with
  | switchedTaskEntry => exact absurd rfl hCall
  | entryReturns =>
    obtain ⟨dispatcher, slot, taskId, rest, -, hScheduler, hCalls⟩ :=
      SchedulerMachine.entryReturns_cases hStep
    refine ⟨?_, Or.inl hCalls⟩
    rw [hScheduler]
    have hLeft : m.scheduler.Changes .entryReturns (schedulerTrampolineLeave m.scheduler slot) :=
      (Scheduler.Changes.setTask fun _ => .single (.left _ _)).elsewhere rfl ⟨rfl, rfl⟩
    exact hLeft.trans (resume_changes _ _)
  | schedulerInitialize =>
    cases hStep
    refine ⟨⟨?_, fun _ => rfl, fun _ hCall => absurd rfl hCall⟩, Or.inl rfl⟩
    intro slot hSlot
    have hCleared : (schedulerInitialize m.scheduler).tasks slot = clearedTask := if_pos hSlot
    rw [hCleared]
    exact .single (.initialized _)
  | createKernelTask intervalTicks entry stack =>
    cases hStep
    exact .of_scheduler (schedulerCreateTaskInternal_changes _ _ _ _ _ rfl)
  | createOneshotKernelTask entry stack =>
    cases hStep
    exact .of_scheduler (schedulerCreateTaskInternal_changes _ _ _ _ _ rfl)
  | disableTask taskId =>
    cases hStep
    refine .of_scheduler ?_
    rcases schedulerDisableTask_cases m.scheduler taskId with hEq | ⟨slot, -, hLive, hEq⟩
    · rw [hEq]
      exact .of_tasks rfl ⟨rfl, rfl⟩
    · rw [hEq]
      exact .setTask fun _ => .single (.disabled _ _ hLive)
  | sleepTask taskId sleepTicks =>
    cases hStep
    refine .of_scheduler ?_
    rcases schedulerSleepTask_cases m.scheduler taskId sleepTicks with hEq | ⟨slot, -, hActive, hEq⟩
    · rw [hEq]
      exact .of_tasks rfl ⟨rfl, rfl⟩
    · rw [hEq]
      exact .setTask fun _ => .single (.slept _ _ _ _ hActive)
  | wakeTask taskId =>
    cases hStep
    refine .of_scheduler ?_
    rcases schedulerWakeTask_cases m.scheduler taskId with hEq | ⟨slot, -, hSleeping, hEq⟩
    · rw [hEq]
      exact .of_tasks rfl ⟨rfl, rfl⟩
    · rw [hEq]
      exact .setTask fun _ => .single (.woken _ _ hSleeping)
  | yieldTask taskId =>
    cases hStep
    exact .of_scheduler (schedulerYieldTask_changes _ _)
  | yieldCurrentTask =>
    cases hStep
    refine .of_scheduler ?_
    rcases schedulerYieldCurrentTask_cases m.scheduler with hEq | ⟨taskId, hEq⟩
    · rw [hEq]
      exact .of_tasks rfl ⟨rfl, rfl⟩
    · rw [hEq]
      exact schedulerYieldTask_changes _ _
  | runTaskNow taskId =>
    cases hStep
    rcases m.runTaskNow_cases taskId with hEq | ⟨slot, hFound, hActive, hEq⟩
    · rw [hEq]
      exact .of_scheduler (.of_tasks rfl ⟨rfl, rfl⟩)
    · rw [hEq]
      have hSpec := schedulerFindTaskById_spec hFound
      exact dispatch_changes .runTaskNow hSpec.1 hSpec.2.1 hActive
  | runTaskWithContextSwitch taskId =>
    cases hStep
    rcases m.runTaskWithContextSwitch_cases taskId with hEq | ⟨slot, -, -, hEq⟩
    · rw [hEq]
      exact .of_scheduler (.of_tasks rfl ⟨rfl, rfl⟩)
    · rw [hEq]
      exact ⟨(setLastRunTick_changes _ slot).elsewhere rfl ⟨rfl, rfl⟩, Or.inl rfl⟩
  | clearInactiveTasks =>
    cases hStep
    have hMapped : m.scheduler.Changes .clearInactiveTasks
        (m.scheduler.mapTasks schedulerClearInactiveTask) := by
      refine .mapTasks ?_
      intro task
      unfold schedulerClearInactiveTask
      split
      · exact .single (.cleared _)
      · exact .refl
    exact .of_scheduler (hMapped.elsewhere rfl ⟨rfl, rfl⟩)
  | repair =>
    cases hStep
    have hMapped : m.scheduler.Changes .repair (m.scheduler.mapTasks schedulerRepairTask) :=
      .mapTasks fun task => .single (.repaired task)
    exact .of_scheduler (hMapped.elsewhere rfl ⟨rfl, rfl⟩)
  | runPending =>
    cases hStep
    exact runPending_changes _ _
  | onTimerTick currentTick =>
    cases hStep
    exact onTimerTick_changes _ _
  | timerInterrupt =>
    cases hStep
    have hTick : m.scheduler.Changes .timerInterrupt m.tick.scheduler := .of_tasks rfl ⟨rfl, rfl⟩
    exact .after hTick (onTimerTick_changes m.tick _)
  | enablePreemptTest tickInterval =>
    cases hStep
    exact .of_scheduler (.of_tasks rfl ⟨rfl, rfl⟩)
  | disablePreemptTest =>
    cases hStep
    exact .of_scheduler (.of_tasks rfl ⟨rfl, rfl⟩)
  | resetPreemptTest =>
    cases hStep
    exact .of_scheduler (.of_tasks rfl ⟨rfl, rfl⟩)

/- The first step of a switched task as well, as far as tasks are concerned. -/
theorem SchedulerMachine.step_tasks (hStep : m.step call = some m') :
    m.scheduler.Changes call m'.scheduler := by
  by_cases hCall : call = .switchedTaskEntry
  · subst hCall
    obtain ⟨dispatcher, taskId, rest, -, ⟨-, hEq, -⟩ |
        ⟨slot, -, ⟨-, hEq, -⟩ | ⟨-, hEq, -⟩⟩⟩ := SchedulerMachine.switchedTaskEntry_cases hStep
    · rw [hEq]
      exact .of_tasks rfl ⟨rfl, rfl⟩
    · rw [hEq]
      exact resume_changes _ _
    · rw [hEq]
      exact (Scheduler.Changes.setTask fun _ => .single (.entered _)).elsewhere rfl ⟨rfl, rfl⟩
  · exact (SchedulerMachine.step_changes hStep hCall).tasks

/-
  A relation that the single changes of a call respect holds between a task and what the call
  makes of it.
-/
theorem Scheduler.Changes.related {R : SchedulerTask → SchedulerTask → Prop}
    (hRefl : ∀ task, R task task)
    (hTrans : ∀ first second third, R first second → R second third → R first third)
    (hChange : ∀ task task', TaskChange call task task' → R task task')
    (hChanges : s.Changes call s') (hSlot : slot < schedulerMaxTasks) :
    R (s.tasks slot) (s'.tasks slot) := by
  have hGen := hChanges.tasks slot hSlot
  generalize s'.tasks slot = task' at hGen ⊢
  induction hGen with
  | refl => exact hRefl _
  | tail _ hLast ih => exact hTrans _ _ _ ih (hChange _ _ hLast)

end LiamOS.I386
