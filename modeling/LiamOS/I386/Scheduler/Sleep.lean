import LiamOS.I386.Scheduler.Changes

/-
  When a sleeping task wakes.

  The tick at which a task is due is kept modulo 2 ^ 32, and a task counts as due for the 2 ^ 31
  ticks behind that one. A task that sleeps for more than 2 ^ 31 ticks is therefore due at once.

  Main declarations: `sleepLaw_iff`.
-/

namespace LiamOS.I386

open Word Transition

variable {s : Scheduler} {task task' : SchedulerTask} {slot tick wake : Nat}
variable {m m' : SchedulerMachine} {call : SchedulerCall}
variable {id : Nat} {dispatcher : Dispatcher}

----------
-- Asleep

/- A used task that sleeps until a tick. -/
structure SchedulerTask.Asleep (task : SchedulerTask) (id wake : Nat) : Prop where
  used : task.used = true
  id : task.id = id
  state : task.state = .sleeping
  wakeTick : task.wakeTick = wake

/- What still sleeps slept before, until the same tick. -/
def SchedulerTask.SleepsOn (task task' : SchedulerTask) : Prop :=
  task'.state = .sleeping → task.state = .sleeping ∧ task'.used = task.used ∧
    task'.id = task.id ∧ task'.wakeTick = task.wakeTick

theorem schedulerFreeKernelStack_sleepsOn (task : SchedulerTask) :
    task.SleepsOn (schedulerFreeKernelStack task) := by
  unfold schedulerFreeKernelStack
  split <;> exact fun hSleeping => ⟨hSleeping, rfl, rfl, rfl⟩

theorem TaskChange.sleepsOn (hChange : TaskChange call task task')
    (hCall : ∀ taskId sleepTicks, call ≠ .sleepTask taskId sleepTicks) :
    task.SleepsOn task' := by
  cases hChange with
  | dated => exact fun hSleeping => ⟨hSleeping, rfl, rfl, rfl⟩
  | ended => exact schedulerFreeKernelStack_sleepsOn _
  | slept taskId sleepTicks => exact absurd rfl (hCall taskId sleepTicks)
  | disabled =>
    intro hSleeping
    rw [(schedulerFreeKernelStack_same _).state] at hSleeping
    cases hSleeping
  | repaired =>
    unfold schedulerRepairTask
    split
    · exact schedulerFreeKernelStack_sleepsOn task
    · split
      · exact fun hSleeping => absurd
          ((schedulerFreeKernelStack_same _).state.symm.trans hSleeping) (by simp)
      · split
        · exact fun hSleeping => absurd
            ((schedulerFreeKernelStack_same _).state.symm.trans hSleeping) (by simp)
        · dsimp only
          split <;> split
          all_goals first
            | exact fun hSleeping => by cases hSleeping
            | exact schedulerFreeKernelStack_sleepsOn task
            | exact fun hSleeping => ⟨hSleeping, rfl, rfl, rfl⟩
            | simp_all [SchedulerTaskState.inactive]
  | left _ onTaskStack =>
    intro hSleeping
    unfold SchedulerTask.left at hSleeping
    dsimp only at hSleeping
    split at hSleeping
    · split at hSleeping
      · cases hSleeping
      · rw [(schedulerFreeKernelStack_same _).state] at hSleeping
        cases hSleeping
    · cases hSleeping
  | _ => exact fun hSleeping => by cases hSleeping

/- A task that is still asleep behind a step sleeps until the same tick. -/
theorem step_asleep (hStep : m.step call = some m') (hSlot : slot < schedulerMaxTasks)
    (hAsleep : (m.scheduler.tasks slot).Asleep id wake)
    (hStill : (m'.scheduler.tasks slot).state = .sleeping) :
    (m'.scheduler.tasks slot).Asleep id wake := by
  have hOn : (m.scheduler.tasks slot).SleepsOn (m'.scheduler.tasks slot) := by
    by_cases hCall : ∃ taskId sleepTicks, call = .sleepTask taskId sleepTicks
    · obtain ⟨taskId, sleepTicks, rfl⟩ := hCall
      cases hStep
      show (m.scheduler.tasks slot).SleepsOn
        ((schedulerSleepTask m.scheduler taskId sleepTicks).2.tasks slot)
      rcases schedulerSleepTask_cases m.scheduler taskId sleepTicks with hEq | ⟨other, -, hActive, hEq⟩
      · rw [hEq]
        exact fun hSleeping => ⟨hSleeping, rfl, rfl, rfl⟩
      · have hNe : slot ≠ other := by
          rintro rfl
          rw [hAsleep.state] at hActive
          cases hActive
        rw [hEq, setTask_of_ne _ hNe]
        exact fun hSleeping => ⟨hSleeping, rfl, rfl, rfl⟩
    · push Not at hCall
      refine Scheduler.Changes.related (fun _ hSleeping => ⟨hSleeping, rfl, rfl, rfl⟩) ?_
        (fun _ _ hChange => hChange.sleepsOn hCall) (SchedulerMachine.step_tasks hStep) hSlot
      intro first second third hFirst hSecond hSleeping
      obtain ⟨hState, hUsed, hId, hTick⟩ := hSecond hSleeping
      obtain ⟨hState', hUsed', hId', hTick'⟩ := hFirst hState
      exact ⟨hState', hUsed.trans hUsed', hId.trans hId', hTick.trans hTick'⟩
  obtain ⟨-, hUsed, hId, hTick⟩ := hOn hStill
  exact ⟨hUsed.trans hAsleep.used, hId.trans hAsleep.id, hStill, hTick.trans hAsleep.wakeTick⟩

----------
-- Calls That Wake Tasks

/- The tick at which a call wakes the tasks that are due. -/
def SchedulerMachine.wakingTick (m : SchedulerMachine) : SchedulerCall → Option Nat
| .runPending => some m.scheduler.timerTicks
| .onTimerTick currentTick =>
    if currentTick = m.scheduler.timerTicks then some currentTick else none
| .timerInterrupt => some m.tick.scheduler.timerTicks
| _ => none

/- What a call that wakes tasks at a tick makes of the task in a slot. -/
def SchedulerTask.WokenAt (tick : Nat) (task task' : SchedulerTask) : Prop :=
  ((schedulerWakeDue tick task).state ≠ .active → task' = schedulerWakeDue tick task) ∧
    ((schedulerWakeDue tick task).state = .active → task'.state = .active ∨ task'.state = .running)

theorem SchedulerTask.WokenAt.of_eq (hTask : task' = schedulerWakeDue tick task) :
    task.WokenAt tick task' :=
  ⟨fun _ => hTask, fun hActive => Or.inl (hTask ▸ hActive)⟩

theorem schedulerWakeDue_twice (tick : Nat) (task : SchedulerTask) :
    schedulerWakeDue tick (schedulerWakeDue tick task) = schedulerWakeDue tick task := by
  by_cases hSleeping : task.used = true ∧ task.state = .sleeping ∧
      sub32 tick task.wakeTick < 0x80000000
  · simp [schedulerWakeDue, hSleeping]
  · have hSame : schedulerWakeDue tick task = task := by
      unfold schedulerWakeDue
      split
      · rfl
      · next hOn =>
          simp only [Bool.or_eq_true, not_or, Bool.not_eq_true', Bool.not_eq_false, bne_iff_ne,
            ne_eq, not_not] at hOn
          exact if_neg fun hDue => hSleeping ⟨hOn.1, hOn.2, hDue⟩
    rw [hSame, hSame]

/- A dispatch leaves the tasks of the other slots as they are. -/
theorem trampoline_of_ne {other : Nat}
    (hDirect : ∀ s : Scheduler, (dispatcher.resume s).tasks = s.tasks) (hNe : slot ≠ other) :
    (m.trampoline dispatcher other).scheduler.tasks slot = m.scheduler.tasks slot := by
  unfold SchedulerMachine.trampoline
  split
  · exact congrFun (hDirect _) slot
  · exact setTask_of_ne _ hNe _

theorem trampoline_self (hDirect : ∀ s : Scheduler, (dispatcher.resume s).tasks = s.tasks)
    (hActive : (m.scheduler.tasks slot).state = .active) :
    ((m.trampoline dispatcher slot).scheduler.tasks slot).state = .active ∨
      ((m.trampoline dispatcher slot).scheduler.tasks slot).state = .running := by
  unfold SchedulerMachine.trampoline
  split
  · left
    show ((dispatcher.resume m.scheduler).tasks slot).state = .active
    rw [hDirect]
    exact hActive
  · right
    exact congrArg SchedulerTask.state (setTask_self _ _ _)

section

variable (hSlot : slot < schedulerMaxTasks) (hInit : m.scheduler.initialized = true)
include hSlot hInit

/- The task of a slot behind a pending run. -/
theorem runPending_slot (hDirect : ∀ s : Scheduler, (dispatcher.resume s).tasks = s.tasks) :
    (m.scheduler.tasks slot).WokenAt m.scheduler.timerTicks
      ((m.runPending dispatcher).scheduler.tasks slot) := by
  have hWoken : m.scheduler.selected.tasks slot =
      schedulerWakeDue m.scheduler.timerTicks (m.scheduler.tasks slot) := by
    rw [Scheduler.selected_tasks]
    exact mapTasks_tasks _ _ hSlot
  rcases m.runPending_cases dispatcher with
    ⟨hOff, -⟩ | ⟨-, hEq | ⟨other, -, -, hActive, hEq⟩⟩
  · rw [hInit] at hOff
    cases hOff
  · refine .of_eq (Eq.trans ?_ hWoken)
    rw [hEq]
    exact congrFun (hDirect _) slot
  · rw [hEq]
    by_cases hNe : slot = other
    · subst hNe
      rw [hWoken] at hActive
      refine ⟨fun hNot => absurd hActive hNot, fun _ => trampoline_self hDirect ?_⟩
      show ((m.scheduler.selected.setTask slot _).tasks slot).state = .active
      rw [setTask_self, hWoken]
      exact hActive
    · exact .of_eq ((trampoline_of_ne hDirect hNe).trans ((setTask_of_ne _ hNe _).trans hWoken))

/- The task of a slot behind a timer tick. -/
theorem onTimerTick_slot :
    (m.scheduler.tasks slot).WokenAt m.scheduler.timerTicks
      ((m.onTimerTick m.scheduler.timerTicks).scheduler.tasks slot) := by
  have hWoken : (schedulerWakeSleepingTasks m.scheduler m.scheduler.timerTicks).tasks slot =
      schedulerWakeDue m.scheduler.timerTicks (m.scheduler.tasks slot) :=
    mapTasks_tasks _ _ hSlot
  unfold SchedulerMachine.onTimerTick
  rcases schedulerTimerTick_cases m.scheduler m.scheduler.timerTicks with
    ⟨hOff, -⟩ | hEq | ⟨-, preemptTest, hEq⟩
  · rw [hInit] at hOff
    cases hOff
  · rw [hEq]
    exact .of_eq hWoken
  · -- the pending run wakes tasks again, at the same tick
    rw [hEq]
    generalize hWith : ({ schedulerWakeSleepingTasks m.scheduler m.scheduler.timerTicks with
        preemptTest := preemptTest } : Scheduler) = t
    have hTask : t.tasks slot =
        schedulerWakeDue m.scheduler.timerTicks (m.scheduler.tasks slot) := by
      rw [← hWith]
      exact hWoken
    have hOn : (m.withScheduler t).scheduler.initialized = true := by
      show t.initialized = true
      rw [← hWith]
      exact hInit
    have hRun : (t.tasks slot).WokenAt t.timerTicks
        (((m.withScheduler t).runPending .onTimerTick).scheduler.tasks slot) :=
      runPending_slot hSlot hOn fun _ => rfl
    have hTicks : t.timerTicks = m.scheduler.timerTicks := by
      rw [← hWith]
      rfl
    rw [SchedulerTask.WokenAt, hTask, hTicks, schedulerWakeDue_twice] at hRun
    exact hRun

/- The task of a slot behind any call that wakes tasks. -/
theorem wakingCall_slot (hTick : m.wakingTick call = some tick) (hStep : m.step call = some m') :
    (m.scheduler.tasks slot).WokenAt tick (m'.scheduler.tasks slot) := by
  cases call with
  | runPending =>
    cases hTick
    cases hStep
    exact runPending_slot hSlot hInit fun _ => rfl
  | onTimerTick currentTick =>
    unfold SchedulerMachine.wakingTick at hTick
    dsimp only at hTick
    split at hTick
    · next hNow =>
        cases hTick
        cases hStep
        rw [hNow]
        exact onTimerTick_slot hSlot hInit
    · cases hTick
  | timerInterrupt =>
    cases hTick
    cases hStep
    have hTicked : m.tick.scheduler.initialized = true := hInit
    exact onTimerTick_slot hSlot hTicked
  | _ => cases hTick

end

----------
-- The Law of Sleeping

/- Whether a task that sleeps is due is decided by the ticks since it fell asleep. -/
theorem SchedulerTask.Asleep.wakeDue {start ticks : Nat}
    (hAsleep : task.Asleep id (u32 (start + ticks))) (since : Nat) :
    (schedulerWakeDue (u32 (start + since)) task = task ∧
        ¬ sub32 (u32 (start + since)) (u32 (start + ticks)) < 2147483648) ∨
      ((schedulerWakeDue (u32 (start + since)) task).state = .active ∧
        sub32 (u32 (start + since)) (u32 (start + ticks)) < 2147483648) := by
  unfold schedulerWakeDue
  rw [hAsleep.used, hAsleep.state, hAsleep.wakeTick]
  by_cases hDue : sub32 (u32 (start + since)) (u32 (start + ticks)) < 2147483648
  · exact Or.inr ⟨by simp [hDue], hDue⟩
  · exact Or.inl ⟨by simp [hDue], hDue⟩

/-
  What is expected of a task that fell asleep for a number of ticks: as long as it has not been
  woken, a call that wakes tasks leaves it asleep before the ticks are over and makes it active
  behind them. It may be started by the same call.
-/
def SleepLaw (start : SchedulerMachine) (slot sleepTicks : Nat) : Prop :=
  ∀ calls m call m' since, run SchedulerMachine.step start calls = some m →
    (∀ t ∈ steps SchedulerMachine.step start calls,
      (t.after.scheduler.tasks slot).state = .sleeping) →
    m.wakingTick call = some (u32 (start.scheduler.timerTicks + since)) →
    m.step call = some m' →
    (since < sleepTicks → (m'.scheduler.tasks slot).state = .sleeping) ∧
      (sleepTicks ≤ since → since < sleepTicks + 2147483648 →
        (m'.scheduler.tasks slot).state = .active ∨ (m'.scheduler.tasks slot).state = .running)

/- A task keeps its wake tick over every run in which it stays asleep. -/
theorem run_asleep {start : SchedulerMachine} {calls : List SchedulerCall}
    (hSlot : slot < schedulerMaxTasks) (hInit : start.scheduler.initialized = true)
    (hAsleep : (start.scheduler.tasks slot).Asleep id wake)
    (hRun : run SchedulerMachine.step start calls = some m)
    (hStill : ∀ t ∈ steps SchedulerMachine.step start calls,
      (t.after.scheduler.tasks slot).state = .sleeping) :
    m.scheduler.initialized = true ∧ (m.scheduler.tasks slot).Asleep id wake := by
  refine @run_forall _ _ SchedulerMachine.step
    (fun m => m.scheduler.initialized = true ∧ (m.scheduler.tasks slot).Asleep id wake)
    (fun t => (t.after.scheduler.tasks slot).state = .sleeping) ?_ _ _ ⟨hInit, hAsleep⟩ _ hRun hStill
  rintro t ⟨hOn, hBefore⟩ hStep hAfter
  exact ⟨(SchedulerMachine.step_tasks hStep).initialized hOn,
    step_asleep hStep hSlot hBefore hAfter⟩

theorem schedulerSleepTask_asleep {s' : Scheduler} {taskId sleepTicks : Nat}
    (hFound : schedulerFindTaskById s taskId = some slot)
    (hSleep : schedulerSleepTask s taskId sleepTicks = (true, s')) :
    (s'.tasks slot).Asleep (s.tasks slot).id (u32 (s.timerTicks + sleepTicks)) ∧
      s'.initialized = s.initialized ∧ s'.timerTicks = s.timerTicks := by
  rcases schedulerSleepTask_cases s taskId sleepTicks with hEq | ⟨found, hFound', -, hEq⟩
  · rw [hSleep] at hEq
    cases hEq
  · rw [hFound] at hFound'
    cases hFound'
    rw [hSleep] at hEq
    rw [(Prod.mk.inj hEq).2, setTask_self]
    exact ⟨⟨(schedulerFindTaskById_spec hFound).2.1, rfl, rfl, rfl⟩, rfl, rfl⟩

/-
  A task that `scheduler_sleep_task` puts to sleep wakes when its ticks are over, and not before,
  exactly if they are at most 2 ^ 31.
-/
theorem sleepLaw_iff {m : SchedulerMachine} {s : Scheduler} {taskId slot : Nat}
    {sleepTicks : UInt32} (hInit : m.scheduler.initialized = true)
    (hNow : m.scheduler.timerTicks < 4294967296)
    (hFound : schedulerFindTaskById m.scheduler taskId = some slot)
    (hSleep : schedulerSleepTask m.scheduler taskId sleepTicks.toNat = (true, s)) :
    SleepLaw (m.withScheduler s) slot sleepTicks.toNat ↔ sleepTicks.toNat ≤ 2147483648 := by
  have hLength := sleepTicks.toNat_lt
  have hSlot := (schedulerFindTaskById_spec hFound).1
  obtain ⟨hAsleep, hSame, hTicks⟩ := schedulerSleepTask_asleep hFound hSleep
  rw [← hTicks] at hNow hAsleep
  have hOn : (m.withScheduler s).scheduler.initialized = true := hSame.trans hInit
  constructor
  · intro hLaw
    by_contra hLong
    -- a pending run at the same tick takes the task for due
    have hTick : (m.withScheduler s).wakingTick .runPending = some (u32 (s.timerTicks + 0)) :=
      congrArg some (u32_of_lt hNow).symm
    have hStep : (m.withScheduler s).step .runPending =
        some ((m.withScheduler s).runPending .runPending) := rfl
    have hStill := (hLaw [] (m.withScheduler s) .runPending _ 0 rfl (by simp [steps]) hTick
      hStep).1 (by omega)
    have hWoken := wakingCall_slot hSlot hOn hTick hStep
    rcases hAsleep.wakeDue 0 with ⟨-, hNot⟩ | ⟨hActive, -⟩
    · unfold sub32 u32 at hNot
      omega
    · rcases hWoken.2 hActive with hAfter | hAfter <;> rw [hAfter] at hStill <;> cases hStill
  · intro hShort calls m₁ call m' since hRun hStill hTick hStep
    obtain ⟨hOn', hStays⟩ := run_asleep hSlot hOn hAsleep hRun hStill
    have hWoken : (m₁.scheduler.tasks slot).WokenAt (u32 (s.timerTicks + since))
        (m'.scheduler.tasks slot) :=
      wakingCall_slot hSlot hOn' hTick hStep
    rcases hStays.wakeDue since with ⟨hSame', hNot⟩ | ⟨hActive, hDue⟩
    · refine ⟨fun _ => ?_, fun hOver hWithin => ?_⟩
      · rw [hWoken.1 (by rw [hSame', hStays.state]; decide), hSame']
        exact hStays.state
      · unfold sub32 u32 at hNot
        omega
    · refine ⟨fun hEarly => ?_, fun _ _ => hWoken.2 hActive⟩
      unfold sub32 u32 at hDue
      omega

theorem sleepLaw_iff_three_ticks :
    SleepLaw (taskBeforeWrap.withScheduler (schedulerSleepTask taskBeforeWrap.scheduler 1 3).2)
      0 3 :=
  (@sleepLaw_iff taskBeforeWrap _ 1 0 3 rfl (by decide) rfl rfl).mpr (by decide)

/- A task put to sleep for 2 ^ 31 + 1 ticks is active behind a pending run at the same tick. -/
theorem long_sleep_wakes_at_once : ∃ m m', run SchedulerMachine.step (SchedulerMachine.booted 0)
          [.createKernelTask 1 0x101000 (stackAt 0), .sleepTask 1 2147483649] = some m ∧
        (m.scheduler.tasks 0).state = .sleeping ∧
        m.step .runPending = some m' ∧
        m'.scheduler.timerTicks = 0 ∧
        (m'.scheduler.tasks 0).state = .active := by
  refine ⟨_, _, rfl, ?_, rfl, ?_, ?_⟩
  all_goals decide +kernel

end LiamOS.I386
