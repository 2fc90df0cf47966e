import LiamOS.I386.Scheduler.Changes

/-
  Tasks that were disabled, over runs in which entries call the scheduler in any way.

  `scheduler_disable_task` accepts a task whose entry is running. The trampoline writes the slot
  when that entry returns, whatever happened meanwhile: a recurring task is active again, and a
  task created in the slot is counted and ended in place of the old one. The run keeps disabled
  tasks disabled exactly if no step does one of these things.

  Main declarations: `disabledStays_iff`.
-/

namespace LiamOS.I386

open Word RoundRobin Transition

variable {task task' : SchedulerTask} {s : Scheduler} {slot : Nat} {m : SchedulerMachine}
variable {call : SchedulerCall} {w w' : Watched}

----------
-- Watched Runs

/- A machine with the ids for which `scheduler_disable_task` has returned 1. -/
structure Watched where
  machine : SchedulerMachine
  disabled : List Nat

def Watched.tasks (w : Watched) : Nat → SchedulerTask := w.machine.scheduler.tasks

/- The ids that are disabled when a call has ended. -/
def Watched.disabledAfter (w : Watched) : SchedulerCall → List Nat
| .disableTask taskId =>
    if (schedulerDisableTask w.machine.scheduler taskId).1 then
      taskId :: w.disabled
    else w.disabled
| _ => w.disabled

theorem Watched.disabledAfter_disableTask (w : Watched) (taskId : Nat) :
    w.disabledAfter (.disableTask taskId) = if (schedulerDisableTask w.machine.scheduler taskId).1
      then taskId :: w.disabled
      else w.disabled := rfl

def Watched.step (w : Watched) (call : SchedulerCall) : Option Watched :=
  match w.machine.step call with
  | none => none
  | some m => some ⟨m, w.disabledAfter call⟩

/- No slot holds a disabled task that may still run. -/
def Watched.Quiet (w : Watched) : Prop :=
  ∀ slot, slot < schedulerMaxTasks → (w.tasks slot).used = true →
    (w.tasks slot).id ∈ w.disabled → (w.tasks slot).state.live = false

/-
  A step that respects the tasks disabled before it: they are not live behind it, none of their
  entries is called, and when one of their entries returns, a task that has taken the slot is as
  it was.
-/
structure DisabledStays (t : Taken Watched SchedulerCall) : Prop where
  quiet : t.after.Quiet
  notCalled : ∀ taskId, t.after.machine.entryCalls = taskId :: t.before.machine.entryCalls →
        taskId ∉ t.before.disabled
  unaffected : t.label = .entryReturns → ∀ dispatcher slot taskId rest,
        t.before.machine.frames = ⟨dispatcher, .inEntry slot, taskId⟩ :: rest →
          taskId ∈ t.before.disabled →
          (t.before.tasks slot).used = true →
          (t.before.tasks slot).id ≠ taskId → t.after.tasks slot = t.before.tasks slot

/- A creation does not hand out a disabled id again. -/
def Watched.FreshId (w : Watched) (intervalTicks entry : Nat) (mode : SchedulerTaskMode)
    (stack : Option StackBase) : Prop :=
  ∀ taskId,
    (schedulerCreateTaskInternal w.machine.scheduler
        intervalTicks entry mode stack).1 = some taskId →
      taskId ∉ w.disabled

/- What each call has to meet. -/
def RespectsDisabled (w : Watched) : SchedulerCall → Prop
| .createKernelTask intervalTicks entry stack => w.FreshId intervalTicks entry .recurring stack
| .createOneshotKernelTask entry stack => w.FreshId 0 entry .oneshot stack
| .disableTask taskId =>
    -- no other live task carries the id that is disabled
    ∀ slot other, schedulerFindTaskById w.machine.scheduler taskId = some slot →
        (schedulerDisableTask w.machine.scheduler taskId).1 = true →
        other < schedulerMaxTasks →
        (w.tasks other).used = true →
        (w.tasks other).id = taskId →
        (w.tasks other).state.live = true → other = slot
| .switchedTaskEntry =>
    -- the task was not disabled before its entry is called
    ∀ slot, w.machine.scheduler.currentSwitchedTask = some slot →
        (w.tasks slot).entry ≠ 0 → (w.tasks slot).id ∉ w.disabled
| .entryReturns =>
    -- the slot holds no disabled recurring task, and holds the
    -- task whose entry returns if that one was disabled
    ∀ dispatcher slot taskId rest,
      w.machine.frames = ⟨dispatcher, .inEntry slot, taskId⟩ :: rest → (w.tasks slot).used = true →
          (slot < schedulerMaxTasks →
            (w.tasks slot).id ∈ w.disabled → (w.tasks slot).mode = .oneshot) ∧
            (taskId ∈ w.disabled → (w.tasks slot).id = taskId)
| _ => True

----------
-- Calm Steps

/- A task that is live was live, under the same id. -/
def SchedulerTask.Calm (task task' : SchedulerTask) : Prop :=
  task'.used = true → task'.state.live = true →
    task.used = true ∧ task.id = task'.id ∧ task.state.live = true

theorem SchedulerTask.Calm.refl (task : SchedulerTask) : task.Calm task :=
  fun hUsed hLive => ⟨hUsed, rfl, hLive⟩

theorem SchedulerTask.Calm.trans {first second third : SchedulerTask} (hLeft : first.Calm second)
    (hRight : second.Calm third) :
    first.Calm third := by
  intro hUsed hLive
  rcases hRight hUsed hLive with ⟨hUsed', hId, hLive'⟩
  rcases hLeft hUsed' hLive' with ⟨hUsed'', hId', hLive''⟩
  exact ⟨hUsed'', hId'.trans hId, hLive''⟩

/- A task that was live may become anything under its id. -/
theorem SchedulerTask.Calm.of_live (hLive : task.state.live = true) (hUsed : task'.used = task.used)
    (hId : task'.id = task.id) :
    task.Calm task' :=
  fun hUsed' _ => ⟨hUsed ▸ hUsed', hId.symm, hLive⟩

theorem SchedulerTask.Calm.of_not_live (hDone : task'.state.live = false) : task.Calm task' := by
  intro _ hLive
  rw [hDone] at hLive
  cases hLive

theorem SchedulerTask.SameButStack.calm (hSame : task.SameButStack task') : task.Calm task' := by
  intro hUsed hLive
  rw [hSame.used] at hUsed
  rw [hSame.state] at hLive
  exact ⟨hUsed, hSame.id.symm, hLive⟩

/- Every task of the table changes calmly. -/
def Scheduler.Calm (s s' : Scheduler) : Prop :=
  ∀ slot, slot < schedulerMaxTasks → (s.tasks slot).Calm (s'.tasks slot)

theorem Scheduler.Calm.of_tasks {s' : Scheduler} (hTasks : s'.tasks = s.tasks) : s.Calm s' := by
  intro slot _
  rw [hTasks]
  exact .refl _

theorem Scheduler.Calm.setTask (hTask : (s.tasks slot).Calm task) : s.Calm (s.setTask slot task) :=
  fun other _ =>
    @setTask_forall (fun other task => (s.tasks other).Calm task) _ _ _ hTask
      (fun _ _ => .refl _) other

theorem resume_calm (s : Scheduler) (dispatcher : Dispatcher) : s.Calm (dispatcher.resume s) :=
  fun slot _ => (resume_same s dispatcher slot).calm

/-
  A step under which tasks change calmly, and which calls at most the entry of a task that was
  live.
-/
structure SchedulerMachine.Calm (m m' : SchedulerMachine) : Prop where
  tasks : m.scheduler.Calm m'.scheduler
  calls : m'.entryCalls = m.entryCalls ∨
      ∃ slot, slot < schedulerMaxTasks ∧ (m.scheduler.tasks slot).used = true ∧
          (m.scheduler.tasks slot).state.live = true ∧
          m'.entryCalls = (m.scheduler.tasks slot).id :: m.entryCalls

theorem SchedulerMachine.Calm.of_scheduler (hCalm : m.scheduler.Calm s) :
    m.Calm (m.withScheduler s) :=
  ⟨hCalm, Or.inl rfl⟩

theorem schedulerRepairTask_calm (task : SchedulerTask) : task.Calm (schedulerRepairTask task) := by
  unfold schedulerRepairTask
  split
  · next hUnused =>
      intro hUsed
      have hSame := (schedulerFreeKernelStack_same task).used
      rw [show ({ schedulerFreeKernelStack task with
          kernelStackTop := 0
          kernelStackSize := 0 } : SchedulerTask).used =
            (schedulerFreeKernelStack task).used from rfl,
        hSame] at hUsed
      simp [hUsed] at hUnused
  · split
    · refine .of_not_live ?_
      rw [(schedulerFreeKernelStack_same _).state]
      rfl
    · split
      · refine .of_not_live ?_
        rw [(schedulerFreeKernelStack_same _).state]
        rfl
      · dsimp only
        have hWoken : task.Calm
              (if (task.state == .sleeping && task.wakeTick == 0) = true
                then { task with state := .active }
                else task) := by
          split
          · next hSleeping =>
              have hState : task.state = .sleeping := by
                simp only [Bool.and_eq_true, beq_iff_eq] at hSleeping
                exact hSleeping.1
              exact .of_live (by rw [hState]; rfl) rfl rfl
          · exact .refl _
        have hFreed : ∀ woken : SchedulerTask, task.Calm woken → task.Calm
                (if woken.state.inactive = true then schedulerFreeKernelStack woken
                  else woken) := by
          intro woken hCalm
          split
          · exact hCalm.trans (schedulerFreeKernelStack_same _).calm
          · exact hCalm
        exact hFreed _ hWoken

/- The calls that can do more than a calm step. -/
def SchedulerCall.Watchful : SchedulerCall → Prop
| .createKernelTask _ _ _ => True
| .createOneshotKernelTask _ _ => True
| .disableTask _ => True
| .switchedTaskEntry => True
| .entryReturns => True
| _ => False

theorem TaskChange.calm (hChange : TaskChange call task task') (hCall : ¬ call.Watchful) :
    task.Calm task' := by
  cases hChange with
  | initialized => exact .of_not_live rfl
  | emptied => exact .of_not_live rfl
  | created _ _ hCreates =>
    cases call with
    | createKernelTask => exact absurd trivial hCall
    | createOneshotKernelTask => exact absurd trivial hCall
    | _ => cases hCreates
  | dated => exact fun hUsed hLive => ⟨hUsed, rfl, hLive⟩
  | woken _ _ hSleeping => exact .of_live (by rw [hSleeping]; rfl) rfl rfl
  | started _ _ hActive => exact .of_live (by rw [hActive]; rfl) rfl rfl
  | ended => exact (schedulerFreeKernelStack_same _).calm
  | slept _ _ _ _ hActive => exact .of_live (by rw [hActive]; rfl) rfl rfl
  | disabled => exact absurd trivial hCall
  | cleared => exact .of_not_live rfl
  | repaired => exact schedulerRepairTask_calm _
  | entered => exact absurd trivial hCall
  | left => exact absurd trivial hCall

theorem calm_of_changes (hCall : ¬ call.Watchful)
    (hChanges : Relation.ReflTransGen (TaskChange call) task task') :
    task.Calm task' := by
  induction hChanges with
  | refl => exact .refl _
  | tail _ hLast ih => exact ih.trans (hLast.calm hCall)

/- Every other call is a calm step. -/
theorem step_calm {m' : SchedulerMachine} (hStep : m.step call = some m')
    (hCall : ¬ call.Watchful) :
    m.Calm m' := by
  have hChanges := SchedulerMachine.step_changes hStep fun hEq => hCall (by rw [hEq]; trivial)
  refine ⟨fun slot hSlot => calm_of_changes hCall (hChanges.tasks.tasks slot hSlot), ?_⟩
  rcases hChanges.calls with hSame | ⟨slot, task, hSlot, hTask, hUsed, hActive, hCalls⟩
  · exact Or.inl hSame
  · obtain ⟨hUsed', hId, hLive⟩ :=
      calm_of_changes hCall hTask hUsed (by rw [hActive]; rfl)
    refine Or.inr ⟨slot, hSlot, hUsed', hLive, ?_⟩
    rw [hId]
    exact hCalls

----------
-- Single Steps

/- A calm change of the table keeps disabled tasks quiet. -/
theorem Watched.Quiet.calm (hQuiet : w.Quiet)
    (hCalm : w.machine.scheduler.Calm w'.machine.scheduler) (hDisabled : w'.disabled = w.disabled) :
    w'.Quiet := by
  intro slot hSlot hUsed hMem
  by_contra hLive
  rw [Bool.not_eq_false] at hLive
  rcases hCalm slot hSlot hUsed hLive with ⟨hUsed', hId, hLive'⟩
  rw [hDisabled] at hMem
  have hStill := hQuiet slot hSlot hUsed' (hId ▸ hMem)
  exact absurd (hLive'.symm.trans hStill) (by decide)

theorem notCalled_of_same (hCalls : w'.machine.entryCalls = w.machine.entryCalls) (taskId : Nat)
    (hCalled : w'.machine.entryCalls = taskId :: w.machine.entryCalls) :
    taskId ∉ w.disabled := by
  rw [hCalls] at hCalled
  exact absurd hCalled.symm (List.cons_ne_self _ _)

/- A calm step respects the disabled tasks. -/
theorem disabledStays_of_calm (hQuiet : w.Quiet) (hCalm : w.machine.Calm w'.machine)
    (hDisabled : w'.disabled = w.disabled) (hCall : call ≠ .entryReturns) :
    DisabledStays ⟨w, call, w'⟩ := by
  refine ⟨hQuiet.calm hCalm.tasks hDisabled, ?_, fun hReturns => absurd hReturns hCall⟩
  intro taskId hCalled hMem
  rcases hCalm.calls with hSame | ⟨slot, hSlot, hUsed, hLive, hCalls⟩
  · exact notCalled_of_same hSame taskId hCalled hMem
  · rw [hCalls] at hCalled
    have hId := (List.cons.inj hCalled).1
    have hStill := hQuiet slot hSlot hUsed (hId ▸ hMem)
    exact absurd (hLive.symm.trans hStill) (by decide)

theorem create_disabledStays_iff (hQuiet : w.Quiet) (intervalTicks entry : Nat)
    (mode : SchedulerTaskMode) (stack : Option StackBase)
    (hAfter : w'.machine = w.machine.withScheduler
          (schedulerCreateTaskInternal w.machine.scheduler intervalTicks entry mode stack).2)
    (hDisabled : w'.disabled = w.disabled)
    (hCall : call ≠ .entryReturns) :
    DisabledStays ⟨w, call, w'⟩ ↔ w.FreshId intervalTicks entry mode stack := by
  unfold Watched.FreshId
  rcases schedulerCreateTaskInternal_cases w.machine.scheduler intervalTicks entry mode stack with
    ⟨-, hEq⟩ | ⟨slot, hSlot, ⟨-, hEq⟩ | ⟨base, -, hEq⟩⟩
  · rw [hEq] at hAfter
    rw [hEq]
    refine iff_of_true ?_ (fun taskId hSome => by cases hSome)
    refine disabledStays_of_calm hQuiet ?_ hDisabled hCall
    rw [hAfter]
    exact .of_scheduler (.of_tasks rfl)
  · rw [hEq] at hAfter
    rw [hEq]
    refine iff_of_true ?_ (fun taskId hSome => by cases hSome)
    refine disabledStays_of_calm hQuiet ?_ hDisabled hCall
    rw [hAfter]
    exact .of_scheduler (.setTask (.of_not_live rfl))
  · rw [hEq] at hAfter
    rw [hEq]
    have hRange := (schedulerFindAvailableSlot_spec (schedulerCreateSlot_spec hSlot).2).1
    have hNew : w'.tasks slot =
          SchedulerTask.createdOn base w.machine.scheduler.nextTaskId intervalTicks entry
            w.machine.scheduler.timerTicks mode := by
      unfold Watched.tasks
      rw [hAfter]
      exact setTask_self _ _ _
    have hOthers : ∀ other, other ≠ slot → w'.tasks other = w.tasks other := by
      intro other hNe
      unfold Watched.tasks
      rw [hAfter]
      exact setTask_of_ne _ hNe _
    have hCalls : w'.machine.entryCalls = w.machine.entryCalls := by
      rw [hAfter]
      rfl
    constructor
    · intro hStays taskId hSome hMem
      cases hSome
      have hLive :=
        hStays.quiet slot hRange (by rw [hNew]; rfl) (by rw [hNew, hDisabled]; exact hMem)
      rw [hNew] at hLive
      cases hLive
    · intro hFresh
      refine ⟨?_, notCalled_of_same hCalls, fun hReturns => absurd hReturns hCall⟩
      intro other hOther hUsed hMem
      by_cases hEqSlot : other = slot
      · subst hEqSlot
        change (w'.tasks other).id ∈ w'.disabled at hMem
        rw [hNew, hDisabled] at hMem
        exact absurd hMem (hFresh _ rfl)
      · change (w'.tasks other).used = true at hUsed
        change (w'.tasks other).id ∈ w'.disabled at hMem
        show (w'.tasks other).state.live = false
        rw [hOthers other hEqSlot] at hUsed hMem ⊢
        rw [hDisabled] at hMem
        exact hQuiet other hOther hUsed hMem

theorem disable_disabledStays_iff (hQuiet : w.Quiet) (taskId : Nat)
    (hStep : w.step (.disableTask taskId) = some w') :
    DisabledStays ⟨w, .disableTask taskId, w'⟩ ↔ RespectsDisabled w (.disableTask taskId) := by
  have hAfter : w' =
        ⟨w.machine.withScheduler (schedulerDisableTask w.machine.scheduler taskId).2,
          w.disabledAfter (.disableTask taskId)⟩ :=
    (Option.some.inj hStep).symm
  rcases schedulerDisableTask_cases w.machine.scheduler taskId with hEq | ⟨slot, hFound, hLive, hEq⟩
  · have hSame : w'.disabled = w.disabled := by
      rw [hAfter]
      show w.disabledAfter (.disableTask taskId) = w.disabled
      rw [Watched.disabledAfter_disableTask, hEq]
      rfl
    refine iff_of_true ?_ ?_
    · refine disabledStays_of_calm hQuiet ?_ hSame (by simp)
      rw [hAfter, hEq]
      exact .of_scheduler (.of_tasks rfl)
    · intro slot other _ hReturned
      rw [hEq] at hReturned
      cases hReturned
  · have hDisabled : w'.disabled = taskId :: w.disabled := by
      rw [hAfter]
      show w.disabledAfter (.disableTask taskId) = taskId :: w.disabled
      rw [Watched.disabledAfter_disableTask, hEq]
      rfl
    have hSelf : (w'.tasks slot).state = .disabled := by
      unfold Watched.tasks
      rw [hAfter, hEq]
      show ((w.machine.scheduler.setTask slot _).tasks slot).state = _
      rw [setTask_self, (schedulerFreeKernelStack_same _).state]
    have hOthers : ∀ other, other ≠ slot → w'.tasks other = w.tasks other := by
      intro other hNe
      unfold Watched.tasks
      rw [hAfter, hEq]
      exact setTask_of_ne _ hNe _
    have hCalls : w'.machine.entryCalls = w.machine.entryCalls := by
      rw [hAfter]
      rfl
    constructor
    · intro hStays found other hFound' _ hOther hUsed hId hOtherLive
      rw [hFound] at hFound'
      cases hFound'
      by_contra hNe
      have hOtherQuiet := hStays.quiet other hOther (by rw [hOthers other hNe]; exact hUsed)
          (by
            rw [hOthers other hNe, hDisabled, hId]
            exact List.mem_cons_self)
      rw [hOthers other hNe, hOtherLive] at hOtherQuiet
      cases hOtherQuiet
    · intro hRespects
      refine ⟨?_, notCalled_of_same hCalls, fun hReturns => by cases hReturns⟩
      intro other hOther hUsed hMem
      change (w'.tasks other).used = true at hUsed
      change (w'.tasks other).id ∈ w'.disabled at hMem
      show (w'.tasks other).state.live = false
      by_cases hNe : other = slot
      · rw [hNe, hSelf]
        rfl
      · rw [hOthers other hNe] at hUsed hMem ⊢
        rw [hDisabled] at hMem
        rcases List.mem_cons.mp hMem with hId | hOld
        · by_contra hOtherLive
          rw [Bool.not_eq_false] at hOtherLive
          exact hNe (hRespects slot other hFound (by rw [hEq]) hOther hUsed hId hOtherLive)
        · exact hQuiet other hOther hUsed hOld

theorem enter_disabledStays_iff (hQuiet : w.Quiet)
    (hEntry : w.machine.switchedTaskEntry = some w'.machine)
    (hDisabled : w'.disabled = w.disabled) :
    DisabledStays ⟨w, .switchedTaskEntry, w'⟩ ↔ RespectsDisabled w .switchedTaskEntry := by
  rcases SchedulerMachine.switchedTaskEntry_cases hEntry with
    ⟨dispatcher, frameId, rest, -, ⟨hNone, hScheduler, hCalls⟩ |
        ⟨slot, hSwitched, ⟨hNoEntry, hScheduler, hCalls⟩ | ⟨hHasEntry, hScheduler, hCalls⟩⟩⟩
  · refine iff_of_true ?_ ?_
    · refine disabledStays_of_calm hQuiet ⟨?_, Or.inl hCalls⟩ hDisabled (by simp)
      exact .of_tasks (by rw [hScheduler])
    · intro slot hSome
      rw [hNone] at hSome
      cases hSome
  · refine iff_of_true ?_ ?_
    · refine disabledStays_of_calm hQuiet ⟨?_, Or.inl hCalls⟩ hDisabled (by simp)
      rw [hScheduler]
      exact resume_calm _ _
    · intro other hSome hOtherEntry
      rw [hSwitched] at hSome
      cases hSome
      exact absurd hNoEntry hOtherEntry
  · constructor
    · intro hStays other hSome _
      rw [hSwitched] at hSome
      cases hSome
      exact hStays.notCalled _ hCalls
    · intro hRespects
      have hFresh := hRespects slot hSwitched hHasEntry
      refine ⟨?_, ?_, fun hReturns => by cases hReturns⟩
      · intro other hOther hUsed hMem
        change (w'.tasks other).used = true at hUsed
        change (w'.tasks other).id ∈ w'.disabled at hMem
        show (w'.tasks other).state.live = false
        unfold Watched.tasks at hUsed hMem ⊢
        rw [hScheduler] at hUsed hMem ⊢
        rw [hDisabled] at hMem
        by_cases hEq : other = slot
        · subst hEq
          have hSelf : ((schedulerTrampolineEnter w.machine.scheduler other).tasks other).id =
                (w.tasks other).id := by
            show ((w.machine.scheduler.setTask other _).tasks other).id = _
            rw [setTask_self]
            rfl
          rw [hSelf] at hMem
          exact absurd hMem hFresh
        · have hSame :
              (schedulerTrampolineEnter w.machine.scheduler slot).tasks other = w.tasks other :=
            setTask_of_ne _ hEq _
          rw [hSame] at hUsed hMem ⊢
          exact hQuiet other hOther hUsed hMem
      · intro taskId hCalled
        change w'.machine.entryCalls = taskId :: w.machine.entryCalls at hCalled
        rw [hCalls] at hCalled
        rw [← (List.cons.inj hCalled).1]
        exact hFresh

/- What the return of an entry makes of its slot. -/
theorem left_fields (task : SchedulerTask) (onTaskStack : Bool) :
    (task.left onTaskStack).used = task.used ∧ (task.left onTaskStack).id = task.id ∧
      (task.left onTaskStack).state.live = decide (task.mode ≠ .oneshot) ∧
      (task.left onTaskStack).runCount = u32 (task.runCount + 1) := by
  unfold SchedulerTask.left
  dsimp only
  split
  · next hOneshot =>
      split
      · simp [hOneshot, SchedulerTaskState.live]
      · have hSame := schedulerFreeKernelStack_same
            { task with
              runCount := u32 (task.runCount + 1)
              state := .completed }
        rw [hSame.used, hSame.id, hSame.state, hSame.runCount]
        simp [hOneshot, SchedulerTaskState.live]
  · next hRecurring =>
      simp [hRecurring, SchedulerTaskState.live]

theorem u32_succ_ne (x : Nat) : u32 (x + 1) ≠ x := by
  unfold u32
  omega

/- The table behind the return of an entry. -/
theorem returned_tasks {dispatcher : Dispatcher}
    (hScheduler : w'.machine.scheduler =
        dispatcher.resume (schedulerTrampolineLeave w.machine.scheduler slot)) :
    ((w.tasks slot).left w.machine.scheduler.runningOnTaskStack).SameButStack (w'.tasks slot) ∧
      ∀ other, other ≠ slot → (w.tasks other).SameButStack (w'.tasks other) := by
  unfold Watched.tasks
  rw [hScheduler]
  constructor
  · have hResumed := resume_same (schedulerTrampolineLeave w.machine.scheduler slot) dispatcher slot
    have hSelf : (schedulerTrampolineLeave w.machine.scheduler slot).tasks slot =
          (w.machine.scheduler.tasks slot).left w.machine.scheduler.runningOnTaskStack :=
      setTask_self _ _ _
    rw [hSelf] at hResumed
    exact hResumed
  · intro other hNe
    have hResumed :=
      resume_same (schedulerTrampolineLeave w.machine.scheduler slot) dispatcher other
    have hSame : (schedulerTrampolineLeave w.machine.scheduler slot).tasks other =
          w.machine.scheduler.tasks other :=
      setTask_of_ne _ hNe _
    rw [hSame] at hResumed
    exact hResumed

theorem return_disabledStays_iff (hQuiet : w.Quiet)
    (hReturns : w.machine.entryReturns = some w'.machine) (hDisabled : w'.disabled = w.disabled) :
    DisabledStays ⟨w, .entryReturns, w'⟩ ↔ RespectsDisabled w .entryReturns := by
  rcases SchedulerMachine.entryReturns_cases hReturns with
    ⟨dispatcher, slot, taskId, rest, hFrames, hScheduler, hCalls⟩
  have hTasks := returned_tasks hScheduler
  have hLeft := left_fields (w.tasks slot) w.machine.scheduler.runningOnTaskStack
  constructor
  · intro hStays d i taskId' rest' hFrames' hUsed
    rw [hFrames] at hFrames'
    cases hFrames'
    constructor
    · intro hSlot hMem
      have hStill := hStays.quiet slot hSlot (by rw [hTasks.1.used, hLeft.1]; exact hUsed)
          (by
            rw [hTasks.1.id, hLeft.2.1, hDisabled]
            exact hMem)
      rw [hTasks.1.state, hLeft.2.2.1] at hStill
      simpa using hStill
    · intro hMem
      by_contra hNe
      have hSame := hStays.unaffected rfl dispatcher slot taskId rest hFrames hMem hUsed hNe
      have hCount := congrArg SchedulerTask.runCount hSame
      rw [hTasks.1.runCount, hLeft.2.2.2] at hCount
      exact u32_succ_ne _ hCount
  · intro hRespects
    have hSlotTask := hRespects dispatcher slot taskId rest hFrames
    refine ⟨?_, notCalled_of_same hCalls, ?_⟩
    · intro other hOther hUsed hMem
      change (w'.tasks other).used = true at hUsed
      change (w'.tasks other).id ∈ w'.disabled at hMem
      show (w'.tasks other).state.live = false
      rw [hDisabled] at hMem
      by_cases hEq : other = slot
      · subst hEq
        rw [hTasks.1.used, hLeft.1] at hUsed
        rw [hTasks.1.id, hLeft.2.1] at hMem
        rw [hTasks.1.state, hLeft.2.2.1]
        simpa using (hSlotTask hUsed).1 hOther hMem
      · have hSame := hTasks.2 other hEq
        rw [hSame.used] at hUsed
        rw [hSame.id] at hMem
        rw [hSame.state]
        exact hQuiet other hOther hUsed hMem
    · intro _ d i taskId' rest' hFrames' hMem hUsed hNe
      change w.machine.frames = _ at hFrames'
      rw [hFrames] at hFrames'
      cases hFrames'
      exact absurd ((hSlotTask hUsed).2 hMem) hNe

----------
-- Whole Runs

theorem Watched.step_some (hStep : w.step call = some w') :
    w.machine.step call = some w'.machine ∧ w'.disabled = w.disabledAfter call := by
  unfold Watched.step at hStep
  cases hMachine : w.machine.step call with
  | none =>
    rw [hMachine] at hStep
    cases hStep
  | some m =>
    rw [hMachine] at hStep
    cases hStep
    exact ⟨rfl, rfl⟩

/- One step respects the disabled tasks if it meets its condition. -/
theorem step_disabledStays_iff (hQuiet : w.Quiet) (hStep : w.step call = some w') :
    DisabledStays ⟨w, call, w'⟩ ↔ RespectsDisabled w call := by
  rcases Watched.step_some hStep with ⟨hMachine, hDisabled⟩
  have hCalm : ¬ call.Watchful → call ≠ .entryReturns →
        w'.disabled = w.disabled → DisabledStays ⟨w, call, w'⟩ := by
    intro hCall hNe hSame
    exact disabledStays_of_calm hQuiet (step_calm hMachine hCall) hSame hNe
  cases call with
  | createKernelTask intervalTicks entry stack =>
    exact create_disabledStays_iff hQuiet _ _ _ _
      (Option.some.inj hMachine).symm hDisabled (by simp)
  | createOneshotKernelTask entry stack =>
    exact create_disabledStays_iff hQuiet _ _ _ _
      (Option.some.inj hMachine).symm hDisabled (by simp)
  | disableTask taskId => exact disable_disabledStays_iff hQuiet taskId hStep
  | switchedTaskEntry => exact enter_disabledStays_iff hQuiet hMachine hDisabled
  | entryReturns => exact return_disabledStays_iff hQuiet hMachine hDisabled
  | _ => exact iff_of_true (hCalm (fun hNot => hNot) (by simp) hDisabled) trivial

/-
  From every state of the scheduler and over every run, the disabled tasks stay disabled
  throughout exactly if every step meets its condition.
-/
theorem disabledStays_iff (m : SchedulerMachine) (calls : List SchedulerCall) :
    (∀ t ∈ steps Watched.step ⟨m, []⟩ calls, DisabledStays t) ↔
      ∀ t ∈ steps Watched.step ⟨m, []⟩ calls, RespectsDisabled t.before t.label := by
  refine @steps_iff _ _ Watched.step Watched.Quiet _ _ ?_ _ ?_ calls
  · rintro ⟨w, call, w'⟩ hQuiet hStep
    exact ⟨step_disabledStays_iff hQuiet hStep, fun hStays => hStays.quiet⟩
  · intro slot _ _ hMem
    cases hMem

/-
  A recurring task whose entry disables its own task is active again when the entry returns, on
  both ways of dispatch; and a task created in the slot of a running task is ended by the return
  of the old entry, its own never having been called.
-/
theorem disabled_task_revived :
    (∃ w, run Watched.step ⟨SchedulerMachine.booted 0, []⟩
          [.createKernelTask 1 0x101000 (stackAt 0), .runTaskNow 1, .disableTask 1, .entryReturns] =
        some w ∧
        w.disabled = [1] ∧
        (w.tasks 0).used = true ∧
        (w.tasks 0).id = 1 ∧
        (w.tasks 0).state = .active) ∧
      (∃ w, run Watched.step ⟨SchedulerMachine.booted 0, []⟩
            [.createKernelTask 1 0x101000 (stackAt 0),
              .runTaskWithContextSwitch 1, .switchedTaskEntry,
              .disableTask 1, .entryReturns] =
          some w ∧
          w.disabled = [1] ∧
          (w.tasks 0).used = true ∧
          (w.tasks 0).id = 1 ∧
          (w.tasks 0).state = .active) ∧
      ∃ w, run Watched.step ⟨SchedulerMachine.booted 0, []⟩
            [.createOneshotKernelTask 0x101000 (stackAt 0), .runTaskNow 1, .disableTask 1,
              .createOneshotKernelTask 0x102000 (stackAt 1),
              .entryReturns] =
          some w ∧
          w.disabled = [1] ∧
          (w.tasks 0).id = 2 ∧
          (w.tasks 0).state = .completed ∧
          w.machine.entryCalls = [1] := by
  refine ⟨⟨_, rfl, ?_⟩, ⟨_, rfl, ?_⟩, ⟨_, rfl, ?_⟩⟩
  all_goals decide +kernel

end LiamOS.I386
