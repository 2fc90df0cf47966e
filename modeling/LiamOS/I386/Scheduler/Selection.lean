import LiamOS.I386.Scheduler.Operations
import LiamOS.Lib.RoundRobin

/-
  Selections of the scheduler in whole runs.

  The snapshot lists the ready slots in the order of a scan from the cursor, a selection takes the
  first of them and moves the cursor behind it, and nothing but a selection or
  `scheduler_initialize` moves the cursor. A slot that is ready at every selection therefore comes
  closer to the cursor until it is selected itself.

  Main declarations: `selections_roundRobin`.
-/

namespace LiamOS.I386

open Word RoundRobin Transition

variable {s : Scheduler} {other slot : Nat} {m m' : SchedulerMachine} {call : SchedulerCall}
variable {tick : Nat} {calls : List SchedulerCall}

----------
-- The Snapshot

/- The slots that are ready, as a scan asks for them. -/
def Scheduler.readyAt (s : Scheduler) (currentTick slot : Nat) : Bool :=
  schedulerTaskIsReadyToRun (s.tasks slot) currentTick

/- The place recorded for a slot. -/
def Scheduler.place (s : Scheduler) (slot : Nat) : ReadyPlace := ⟨slot, (s.tasks slot).id⟩

/- The loop appends the ready slots while there is room. -/
theorem foldl_schedulerQueueAttempt (s : Scheduler) (currentTick : Nat) (attempts : List Nat)
    (queue : List ReadyPlace) (hRoom : queue.length + attempts.length ≤ schedulerMaxTasks) :
    attempts.foldl (schedulerQueueAttempt s currentTick) queue = queue ++
        ((attempts.map fun a =>
            (s.currentTaskIndex % schedulerMaxTasks + a) % schedulerMaxTasks).filter
          (s.readyAt currentTick)).map s.place := by
  induction attempts generalizing queue with
  | nil => simp
  | cons a attempts ih =>
    simp only [List.length_cons] at hRoom
    simp only [List.foldl_cons, List.map_cons]
    cases hReady : s.readyAt currentTick
          ((s.currentTaskIndex % schedulerMaxTasks + a) % schedulerMaxTasks) with
    | false =>
      have hSkip : schedulerQueueAttempt s currentTick queue a = queue := by
        unfold schedulerQueueAttempt
        exact if_pos (by
          simpa [Scheduler.readyAt] using hReady)
      rw [hSkip, ih queue (by omega), List.filter_cons_of_neg (by rw [hReady]; decide)]
    | true =>
      have hTake : schedulerQueueAttempt s currentTick queue a = queue ++
              [s.place ((s.currentTaskIndex % schedulerMaxTasks + a) % schedulerMaxTasks)] := by
        unfold schedulerQueueAttempt
        dsimp only
        rw [if_neg (by
            simpa [Scheduler.readyAt] using hReady),
          if_neg (by omega), Scheduler.place]
      rw [hTake, ih _ (by simp; omega), List.filter_cons_of_pos hReady]
      simp

/- The snapshot lists the ready slots in scanning order. -/
theorem schedulerRebuildReadyQueue_eq (s : Scheduler) (currentTick : Nat) :
    (schedulerRebuildReadyQueue s currentTick).readyQueue =
      ((scan schedulerMaxTasks s.currentTaskIndex).filter (s.readyAt currentTick)).map s.place := by
  have hFold :=
    foldl_schedulerQueueAttempt s currentTick (List.range schedulerMaxTasks) [] (by simp)
  rw [List.nil_append] at hFold
  exact hFold

/- A selection takes the first ready slot of the scan. -/
theorem selected_eq (s : Scheduler) (currentTick : Nat) :
    (schedulerSelectNextReadyTask s currentTick).1 =
      ((scan schedulerMaxTasks s.currentTaskIndex).filter (s.readyAt currentTick)).head? := by
  have hQueue := schedulerRebuildReadyQueue_eq s currentTick
  unfold schedulerSelectNextReadyTask
  dsimp only
  rw [hQueue]
  cases hSlots : (scan schedulerMaxTasks s.currentTaskIndex).filter (s.readyAt currentTick) with
  | nil => rfl
  | cons slot slots =>
    have hSlot : slot < schedulerMaxTasks := (first_spec (by rw [hSlots]; rfl)).1
    simp only [List.map_cons, Scheduler.place, List.head?_cons]
    rw [if_neg (Nat.not_le_of_lt hSlot)]

/- What a selection leaves. -/
theorem schedulerSelectNextReadyTask_snd (s : Scheduler) (currentTick : Nat) :
    (schedulerSelectNextReadyTask s currentTick).2 =
      { schedulerRebuildReadyQueue s currentTick with
        currentTaskIndex :=
          match (schedulerSelectNextReadyTask s currentTick).1
          with
          | none => s.currentTaskIndex
          | some slot => (slot + 1) % schedulerMaxTasks } := by
  unfold schedulerSelectNextReadyTask
  dsimp only
  split
  · rfl
  · split <;> rfl

/- What is selected is used and active. -/
theorem selected_active {currentTick : Nat}
    (hSelected : (schedulerSelectNextReadyTask s currentTick).1 = some slot) :
    (s.tasks slot).used = true ∧ (s.tasks slot).state = .active := by
  rw [selected_eq] at hSelected
  have hReady := (first_spec hSelected).2
  unfold Scheduler.readyAt schedulerTaskIsReadyToRun at hReady
  split at hReady
  · cases hReady
  · next hNot =>
      simp only [Bool.or_eq_true, not_or] at hNot
      exact ⟨by simpa using hNot.1, by simpa using hNot.2⟩

theorem schedulerSelectNextReadyTask_tasks (s : Scheduler) (currentTick : Nat) :
    (schedulerSelectNextReadyTask s currentTick).2.tasks = s.tasks := by
  rw [schedulerSelectNextReadyTask_snd]
  rfl

/- The scheduler behind the selection of a pending run. -/
def Scheduler.selected (s : Scheduler) : Scheduler :=
  (schedulerSelectNextReadyTask (schedulerPendingSelection s) s.timerTicks).2

theorem Scheduler.selected_tasks (s : Scheduler) :
    s.selected.tasks = (schedulerPendingSelection s).tasks :=
  schedulerSelectNextReadyTask_tasks _ _

/- A pending run ends without a task, or dispatches an active one. -/
theorem SchedulerMachine.runPending_cases (m : SchedulerMachine) (dispatcher : Dispatcher) :
    (m.scheduler.initialized = false ∧
        m.runPending dispatcher = m.withScheduler (dispatcher.resume m.scheduler)) ∨
      (m.scheduler.initialized = true ∧
        (m.runPending dispatcher = m.withScheduler (dispatcher.resume m.scheduler.selected) ∨
          ∃ slot, slot < schedulerMaxTasks ∧ (m.scheduler.selected.tasks slot).used = true ∧
              (m.scheduler.selected.tasks slot).state = .active ∧
              m.runPending dispatcher =
                (m.withScheduler (m.scheduler.selected.setLastRunTick slot)).trampoline
                  dispatcher slot)) := by
  unfold SchedulerMachine.runPending
  cases hInit : m.scheduler.initialized with
  | false => exact Or.inl ⟨rfl, rfl⟩
  | true =>
    refine Or.inr ⟨rfl, ?_⟩
    have hSelected : m.scheduler.selected =
        (schedulerSelectNextReadyTask (schedulerPendingSelection m.scheduler)
          m.scheduler.timerTicks).2 := rfl
    have hTasks := m.scheduler.selected_tasks
    cases hPair : schedulerSelectNextReadyTask (schedulerPendingSelection m.scheduler)
          m.scheduler.timerTicks with
    | mk selected s =>
      rw [hPair] at hSelected
      rw [hSelected] at hTasks ⊢
      cases selected with
      | none => exact Or.inl rfl
      | some slot =>
        have hFirst := congrArg Prod.fst hPair
        have hActive := selected_active hFirst
        rw [selected_eq] at hFirst
        rw [← hTasks] at hActive
        exact Or.inr ⟨slot, (first_spec hFirst).1, hActive.1, hActive.2, rfl⟩

----------
-- Where a Step Selects

/- The selection of a pending run: its state and its tick. -/
def Scheduler.pendingSelection (s : Scheduler) : Option (Scheduler × Nat) := if s.initialized then
    some (schedulerPendingSelection s, s.timerTicks)
  else none

def Scheduler.timerSelection (s : Scheduler) (currentTick : Nat) : Option (Scheduler × Nat) :=
  match schedulerTimerTick s currentTick with
  | (false, _) => none
  | (true, due) => due.pendingSelection

/-
  The scheduler and the tick with which a step calls `scheduler_select_next_ready_task`, if it
  does.
-/
def SchedulerMachine.selection (m : SchedulerMachine) : SchedulerCall → Option (Scheduler × Nat)
| .runPending => m.scheduler.pendingSelection
| .onTimerTick currentTick => m.scheduler.timerSelection currentTick
| .timerInterrupt => m.tick.scheduler.timerSelection m.tick.scheduler.timerTicks
| _ => none

/- A step that selects a slot. -/
def SchedulerMachine.Selects (m : SchedulerMachine) (call : SchedulerCall) (slot : Nat) : Prop :=
  ∃ s tick, m.selection call = some (s, tick) ∧ (schedulerSelectNextReadyTask s tick).1 = some slot

/- A step at whose selection the task of a slot is ready. -/
def SchedulerMachine.ReadyAt (m : SchedulerMachine) (call : SchedulerCall) (slot : Nat) : Prop :=
  ∃ s tick, m.selection call = some (s, tick) ∧ schedulerTaskIsReadyToRun (s.tasks slot) tick = true

instance (m : SchedulerMachine) (call : SchedulerCall) (slot : Nat) :
    Decidable (m.Selects call slot) :=
  match hSelection : m.selection call with
  | none =>
    .isFalse (by
      rintro ⟨s, tick, hSome, -⟩
      rw [hSelection] at hSome
      cases hSome)
  | some (s, tick) =>
    decidable_of_iff ((schedulerSelectNextReadyTask s tick).1 = some slot)
      (by
        constructor
        · intro hSelected
          exact ⟨s, tick, hSelection, hSelected⟩
        · rintro ⟨s', tick', hSome, hSelected⟩
          rw [hSelection] at hSome
          cases hSome
          exact hSelected)

instance (m : SchedulerMachine) (call : SchedulerCall) (slot : Nat) :
    Decidable (m.ReadyAt call slot) :=
  match hSelection : m.selection call with
  | none =>
    .isFalse (by
      rintro ⟨s, tick, hSome, -⟩
      rw [hSelection] at hSome
      cases hSome)
  | some (s, tick) =>
    decidable_of_iff (schedulerTaskIsReadyToRun (s.tasks slot) tick = true)
      (by
        constructor
        · intro hReady
          exact ⟨s, tick, hSelection, hReady⟩
        · rintro ⟨s', tick', hSome, hReady⟩
          rw [hSelection] at hSome
          cases hSome
          exact hReady)

----------
-- The Cursor

def SchedulerMachine.cursor (m : SchedulerMachine) : Nat := m.scheduler.currentTaskIndex

@[simp] theorem resume_currentTaskIndex (s : Scheduler) (dispatcher : Dispatcher) :
    (dispatcher.resume s).currentTaskIndex = s.currentTaskIndex := by
  cases dispatcher <;> rfl

@[simp] theorem trampoline_cursor (m : SchedulerMachine) (dispatcher : Dispatcher) (slot : Nat) :
    (m.trampoline dispatcher slot).cursor = m.cursor := by
  unfold SchedulerMachine.trampoline
  split
  · exact resume_currentTaskIndex _ _
  · rfl

theorem schedulerCreateTaskInternal_cursor (s : Scheduler) (intervalTicks entry : Nat)
    (mode : SchedulerTaskMode) (stack : Option StackBase) :
    (schedulerCreateTaskInternal s intervalTicks entry mode
      stack).2.currentTaskIndex = s.currentTaskIndex := by
  rcases schedulerCreateTaskInternal_cases s intervalTicks entry mode stack with
    ⟨-, hEq⟩ | ⟨slot, -, ⟨-, hEq⟩ | ⟨base, -, hEq⟩⟩
  · rw [hEq]
  · rw [hEq]
    rfl
  · rw [hEq]
    rfl

theorem schedulerYieldTask_cursor (s : Scheduler) (taskId : Nat) :
    (schedulerYieldTask s taskId).2.currentTaskIndex = s.currentTaskIndex := by
  rcases schedulerYieldTask_cases s taskId with hEq | ⟨slot, -, hEq⟩
  · rw [hEq]
  · rw [hEq]
    rfl

theorem schedulerTimerTick_cursor (s : Scheduler) (currentTick : Nat) :
    (schedulerTimerTick s currentTick).2.currentTaskIndex = s.currentTaskIndex := by
  rcases schedulerTimerTick_cases s currentTick with ⟨-, hEq⟩ | hEq | ⟨-, preemptTest, hEq⟩
  · rw [hEq]
  · rw [hEq]
    rfl
  · rw [hEq]
    rfl

/- The cursor behind a selection, or the old one. -/
def cursorAfter (cursor : Nat) : Option (Scheduler × Nat) → Nat
| none => cursor
| some (s, tick) => (schedulerSelectNextReadyTask s tick).2.currentTaskIndex

theorem runPending_cursor (m : SchedulerMachine) (dispatcher : Dispatcher) :
    (m.runPending dispatcher).cursor = cursorAfter m.cursor m.scheduler.pendingSelection := by
  unfold SchedulerMachine.runPending Scheduler.pendingSelection
  cases hInitialized : m.scheduler.initialized with
  | false => exact resume_currentTaskIndex _ _
  | true =>
    simp only [Bool.not_true, Bool.false_eq_true, if_false, if_true, cursorAfter]
    cases hSelect : schedulerSelectNextReadyTask (schedulerPendingSelection m.scheduler)
          m.scheduler.timerTicks with
    | mk selected s =>
      cases selected with
      | none => exact resume_currentTaskIndex _ _
      | some slot => exact trampoline_cursor _ _ _

theorem onTimerTick_cursor (m : SchedulerMachine) (currentTick : Nat) :
    (m.onTimerTick currentTick).cursor =
      cursorAfter m.cursor (m.scheduler.timerSelection currentTick) := by
  have hKept := schedulerTimerTick_cursor m.scheduler currentTick
  unfold SchedulerMachine.onTimerTick Scheduler.timerSelection
  cases hTick : schedulerTimerTick m.scheduler currentTick with
  | mk due s =>
    rw [hTick] at hKept
    cases due with
    | false => exact hKept
    | true =>
      have hRun := runPending_cursor (m.withScheduler s) .onTimerTick
      refine hRun.trans ?_
      show cursorAfter s.currentTaskIndex _ = _
      rw [hKept]
      rfl

theorem leaveFrame_cursor {dispatcher : Dispatcher} {rest : List DispatchFrame}
    (hLeave : m.leaveFrame dispatcher rest = some m') :
    m'.cursor = m.cursor := by
  have hLeft := SchedulerMachine.leaveFrame_cases hLeave
  unfold SchedulerMachine.cursor
  rw [hLeft.1, resume_currentTaskIndex]

/-
  Only a selection moves the cursor: every step but a new initialization leaves it where the
  selection, if the step makes one, puts it.
-/
theorem step_cursor (hStep : m.step call = some m') (hCall : call ≠ .schedulerInitialize)
    (hCursor : call = .clearInactiveTasks → m.cursor < schedulerMaxTasks) :
    m'.cursor = cursorAfter m.cursor (m.selection call) := by
  cases call with
  | schedulerInitialize => exact absurd rfl hCall
  | createKernelTask intervalTicks entry stack =>
    cases hStep
    exact schedulerCreateTaskInternal_cursor _ _ _ _ _
  | createOneshotKernelTask entry stack =>
    cases hStep
    exact schedulerCreateTaskInternal_cursor _ _ _ _ _
  | disableTask taskId =>
    cases hStep
    rcases schedulerDisableTask_cases m.scheduler taskId with hEq | ⟨slot, -, -, hEq⟩
    · rw [hEq]
      rfl
    · rw [hEq]
      rfl
  | sleepTask taskId sleepTicks =>
    cases hStep
    rcases schedulerSleepTask_cases m.scheduler taskId sleepTicks with hEq | ⟨slot, -, -, hEq⟩
    · rw [hEq]
      rfl
    · rw [hEq]
      rfl
  | wakeTask taskId =>
    cases hStep
    rcases schedulerWakeTask_cases m.scheduler taskId with hEq | ⟨slot, -, -, hEq⟩
    · rw [hEq]
      rfl
    · rw [hEq]
      rfl
  | yieldTask taskId =>
    cases hStep
    exact schedulerYieldTask_cursor _ _
  | yieldCurrentTask =>
    cases hStep
    rcases schedulerYieldCurrentTask_cases m.scheduler with hEq | ⟨taskId, hEq⟩
    · rw [hEq]
      rfl
    · rw [hEq]
      exact schedulerYieldTask_cursor _ _
  | runTaskNow taskId =>
    cases hStep
    rcases m.runTaskNow_cases taskId with hEq | ⟨slot, -, -, hEq⟩
    · rw [hEq]
      rfl
    · rw [hEq]
      exact trampoline_cursor _ _ _
  | runTaskWithContextSwitch taskId =>
    cases hStep
    rcases m.runTaskWithContextSwitch_cases taskId with hEq | ⟨slot, -, -, hEq⟩
    · rw [hEq]
      rfl
    · rw [hEq]
      rfl
  | clearInactiveTasks =>
    cases hStep
    exact if_neg (Nat.not_le_of_lt (hCursor rfl))
  | repair =>
    cases hStep
    rfl
  | runPending =>
    cases hStep
    exact runPending_cursor _ _
  | onTimerTick currentTick =>
    cases hStep
    exact onTimerTick_cursor _ _
  | timerInterrupt =>
    cases hStep
    exact onTimerTick_cursor _ _
  | enablePreemptTest tickInterval =>
    cases hStep
    rfl
  | disablePreemptTest =>
    cases hStep
    rfl
  | resetPreemptTest =>
    cases hStep
    rfl
  | switchedTaskEntry =>
    change m.switchedTaskEntry = some m' at hStep
    unfold SchedulerMachine.switchedTaskEntry at hStep
    split at hStep
    · split at hStep
      · cases hStep
        rfl
      · split at hStep
        · exact leaveFrame_cursor hStep
        · cases hStep
          rfl
    · cases hStep
  | entryReturns =>
    change m.entryReturns = some m' at hStep
    unfold SchedulerMachine.entryReturns at hStep
    split at hStep
    · exact (leaveFrame_cursor hStep).trans rfl
    · cases hStep

/- A selection is made with the cursor of the machine. -/
theorem selection_cursor (hSelection : m.selection call = some (s, tick)) :
    s.currentTaskIndex = m.cursor := by
  have hPending : ∀ p : Scheduler,
        p.pendingSelection = some (s, tick) → s.currentTaskIndex = p.currentTaskIndex := by
    intro p hSome
    unfold Scheduler.pendingSelection at hSome
    split at hSome
    · cases hSome
      rfl
    · cases hSome
  have hTimer :
      ∀ (p : Scheduler) (currentTick : Nat), p.timerSelection currentTick = some (s, tick) →
          s.currentTaskIndex = p.currentTaskIndex := by
    intro p currentTick hSome
    rw [← schedulerTimerTick_cursor p currentTick]
    unfold Scheduler.timerSelection at hSome
    split at hSome
    · cases hSome
    · next hDue =>
        rw [hDue]
        exact hPending _ hSome
  cases call with
  | runPending => exact hPending _ hSelection
  | onTimerTick currentTick => exact hTimer _ _ hSelection
  | timerInterrupt => exact hTimer m.tick.scheduler _ hSelection
  | _ => cases hSelection

/- A selected slot is the first ready one of the scan. -/
theorem SchedulerMachine.Selects.first (hSelects : m.Selects call slot) :
    ∃ s tick, m.selection call = some (s, tick) ∧
        ((scan schedulerMaxTasks m.cursor).filter (s.readyAt tick)).head? = some slot := by
  rcases hSelects with ⟨s, tick, hSelection, hSelected⟩
  refine ⟨s, tick, hSelection, ?_⟩
  rw [← selection_cursor hSelection, ← selected_eq]
  exact hSelected

theorem SchedulerMachine.ReadyAt.ready (hReady : m.ReadyAt call slot)
    (hSelection : m.selection call = some (s, tick)) :
    s.readyAt tick slot = true := by
  rcases hReady with ⟨s', tick', hSome, hTask⟩
  rw [hSelection] at hSome
  cases hSome
  exact hTask

/- A step that selects is none of the other calls. -/
theorem SchedulerMachine.Selects.call_ne (hSelects : m.Selects call slot) :
    call ≠ .schedulerInitialize ∧ call ≠ .clearInactiveTasks := by
  rcases hSelects with ⟨s, tick, hSelection, -⟩
  constructor
  · rintro rfl
    cases hSelection
  · rintro rfl
    cases hSelection

/- The cursor moves behind the slot that is selected. -/
theorem SchedulerMachine.Selects.cursor (hSelects : m.Selects call slot)
    (hStep : m.step call = some m') :
    m'.cursor = (slot + 1) % schedulerMaxTasks := by
  have hCall := hSelects.call_ne
  rw [step_cursor hStep hCall.1 (fun hClear => absurd hClear hCall.2)]
  rcases hSelects with ⟨s, tick, hSelection, hSelected⟩
  rw [hSelection, cursorAfter, schedulerSelectNextReadyTask_snd, hSelected]

/- A step that selects nothing leaves the cursor. -/
theorem cursor_of_not_selects (hNone : ∀ slot, ¬ m.Selects call slot)
    (hStep : m.step call = some m') (hCall : call ≠ .schedulerInitialize)
    (hCursor : m.cursor < schedulerMaxTasks) :
    m'.cursor = m.cursor := by
  rw [step_cursor hStep hCall (fun _ => hCursor)]
  cases hSelection : m.selection call with
  | none => rfl
  | some selection =>
    rcases selection with ⟨s, tick⟩
    rw [cursorAfter, schedulerSelectNextReadyTask_snd]
    cases hSelected : (schedulerSelectNextReadyTask s tick).1 with
    | none =>
      have hSame := selection_cursor hSelection
      exact hSame
    | some slot => exact absurd ⟨s, tick, hSelection, hSelected⟩ (hNone slot)

----------
-- Round Robin

/- The slot `other` is ahead of `slot`: a scan from the cursor visits it first. -/
structure SchedulerMachine.Ahead (m : SchedulerMachine) (other slot : Nat) : Prop where
  cursor : m.cursor < schedulerMaxTasks
  closer : distance schedulerMaxTasks m.cursor other < distance schedulerMaxTasks m.cursor slot

/- A selected slot comes last in the next scan. -/
theorem SchedulerMachine.Selects.ahead (hSelects : m.Selects call slot)
    (hStep : m.step call = some m') (hOther : other < schedulerMaxTasks) (hNe : other ≠ slot) :
    m'.Ahead other slot := by
  rcases hSelects.first with ⟨s, tick, -, hFirst⟩
  have hSlot := (first_spec hFirst).1
  have hCursor := hSelects.cursor hStep
  refine ⟨?_, ?_⟩
  · rw [hCursor]
    exact Nat.mod_lt _ (by decide)
  · rw [hCursor]
    exact closer_after hSlot hOther hNe

/- A slot that is ready and not selected stays ahead. -/
theorem SchedulerMachine.Ahead.step (hAhead : m.Ahead other slot) (hSlot : slot < schedulerMaxTasks)
    (hOther : other < schedulerMaxTasks) (hStep : m.step call = some m')
    (hCall : call ≠ .schedulerInitialize)
    (hReady : ∀ selected, m.Selects call selected → m.ReadyAt call other)
    (hNot : ¬ m.Selects call other) :
    m'.Ahead other slot := by
  by_cases hSome : ∃ selected, m.Selects call selected
  · rcases hSome with ⟨selected, hSelects⟩
    rcases hSelects.first with ⟨s, tick, hSelection, hFirst⟩
    have hWanted := (hReady selected hSelects).ready hSelection
    have hNe : selected ≠ other := by
      rintro rfl
      exact hNot hSelects
    have hCursor := hSelects.cursor hStep
    refine ⟨?_, ?_⟩
    · rw [hCursor]
      exact Nat.mod_lt _ (by decide)
    · rw [hCursor]
      exact closer_of_first hFirst hOther hSlot hWanted hNe hAhead.closer
  · have hCursor := cursor_of_not_selects (fun selected hSelects => hSome ⟨selected, hSelects⟩)
        hStep hCall hAhead.cursor
    exact ⟨hCursor ▸ hAhead.cursor, hCursor ▸ hAhead.closer⟩

/- The task of a slot is ready at each selection of a run. -/
def SchedulerMachine.ReadyAlong (m : SchedulerMachine) (calls : List SchedulerCall)
    (slot : Nat) : Prop :=
  ∀ t ∈ steps SchedulerMachine.step m calls,
    ∀ selected, t.before.Selects t.label selected → t.before.ReadyAt t.label slot

/- A slot is selected in a run. -/
def SchedulerMachine.SelectedAlong (m : SchedulerMachine) (calls : List SchedulerCall)
    (slot : Nat) : Prop :=
  ∃ t ∈ steps SchedulerMachine.step m calls, t.before.Selects t.label slot

/- Being ahead lasts as long as the slot is not selected. -/
theorem SchedulerMachine.Ahead.run (hAhead : m.Ahead other slot) (hSlot : slot < schedulerMaxTasks)
    (hOther : other < schedulerMaxTasks) (hRun : run SchedulerMachine.step m calls = some m')
    (hCalls : SchedulerCall.schedulerInitialize ∉ calls) (hReady : m.ReadyAlong calls other)
    (hNot : ∀ t ∈ steps SchedulerMachine.step m calls, ¬ t.before.Selects t.label other) :
    m'.Ahead other slot := by
  unfold SchedulerMachine.ReadyAlong at hReady
  induction calls generalizing m with
  | nil =>
    cases hRun
    exact hAhead
  | cons call calls ih =>
    cases hStep : m.step call with
    | none => simp [Transition.run, hStep] at hRun
    | some next =>
      rw [run_cons_some hStep] at hRun
      rw [steps_cons_some hStep] at hReady hNot
      rw [List.forall_mem_cons] at hReady hNot
      rw [List.mem_cons, not_or] at hCalls
      have hNext := hAhead.step hSlot hOther hStep (Ne.symm hCalls.1) hReady.1 hNot.1
      exact ih hNext hRun hCalls.2 hReady.2 hNot.2

/- Stacks for the three tasks of the runs below. -/
def stackAt (i : Fin 3) : Option StackBase := some
    ⟨0xC1000010 + 4112 * i.val, by omega, by
      unfold schedulerKernelStackSize
      omega⟩

/- Three recurring tasks that are due at tick 1. -/
def threeTasksDue : List SchedulerCall :=
  [.createKernelTask 1 0x101000 (stackAt 0), .createKernelTask 1 0x102000 (stackAt 1),
    .createKernelTask 1 0x103000 (stackAt 2),
    .timerInterrupt]

/- The machine after a run that finishes. -/
def SchedulerMachine.after (m : SchedulerMachine) (calls : List SchedulerCall) : SchedulerMachine :=
  (run SchedulerMachine.step m calls).getD m

/- A task at the last tick before the counter wraps. -/
def taskBeforeWrap : SchedulerMachine :=
  (SchedulerMachine.booted 4294967295).after [.createKernelTask 1 0x101000 (stackAt 0)]

theorem readyAlong_of_selection
    (hReady : ∀ t ∈ steps SchedulerMachine.step m calls,
        (t.before.selection t.label).isSome = true → t.before.ReadyAt t.label slot) :
    m.ReadyAlong calls slot := by
  rintro t ht selected ⟨s, tick, hSelection, -⟩
  exact hReady t ht (by rw [hSelection]; rfl)

/- Three tasks are due; the pending run starts slot 0. -/
def dueMachine : SchedulerMachine := (SchedulerMachine.booted 0).after threeTasksDue

def slotZeroStarted : SchedulerMachine := dueMachine.after [.runPending]

/- The other two slots run, with a tick between them. -/
def otherSlotsRun : List SchedulerCall :=
  [.entryReturns, .runPending, .entryReturns, .timerInterrupt, .runPending, .entryReturns]

/- Slot 1 runs, and then the task in slot 2 goes to sleep. -/
def slotTwoSleeps : List SchedulerCall :=
  [.entryReturns, .runPending, .entryReturns, .sleepTask 3 100, .timerInterrupt]

/-
  Between two selections of a slot, every other slot whose task is ready at each selection behind
  the first one, up to and with the second one, is selected itself.
-/
theorem selections_roundRobin {start next final : SchedulerMachine} {first last : SchedulerCall}
    {calls : List SchedulerCall} {slot other : Nat} (hFirst : start.Selects first slot)
    (hStep : start.step first = some next)
    (hRun : run SchedulerMachine.step next calls = some final)
    (hCalls : SchedulerCall.schedulerInitialize ∉ calls) (hLast : final.Selects last slot)
    (hOther : other < schedulerMaxTasks) (hNe : other ≠ slot) (hReady : next.ReadyAlong calls other)
    (hReadyLast : final.ReadyAt last other) :
    next.SelectedAlong calls other := by
  by_contra hNot
  have hNever : ∀ t ∈ steps SchedulerMachine.step next calls, ¬ t.before.Selects t.label other := by
    intro t ht hSelects
    exact hNot ⟨t, ht, hSelects⟩
  rcases hLast.first with ⟨s, tick, hSelection, hFound⟩
  have hSlot := (first_spec hFound).1
  have hAhead := (hFirst.ahead hStep hOther hNe).run hSlot hOther hRun hCalls hReady hNever
  exact not_first_of_closer hOther (hReadyLast.ready hSelection) hAhead.closer hFound

theorem selections_roundRobin_three_tasks : slotZeroStarted.SelectedAlong otherSlotsRun 1 := by
  have hFirst : dueMachine.Selects .runPending 0 := by decide +kernel
  have hStep : dueMachine.step .runPending = some slotZeroStarted := rfl
  have hRun : run SchedulerMachine.step slotZeroStarted otherSlotsRun =
        some (slotZeroStarted.after otherSlotsRun) := rfl
  have hLast : (slotZeroStarted.after otherSlotsRun).Selects .runPending 0 := by decide +kernel
  have hReadyLast : (slotZeroStarted.after otherSlotsRun).ReadyAt .runPending 1 := by decide +kernel
  exact selections_roundRobin hFirst hStep hRun
    (by simp [otherSlotsRun]) hLast (by decide) (by decide)
    (readyAlong_of_selection (by decide +kernel)) hReadyLast

/-
  The second selection counts: a task that is ready at the only selection strictly between two
  selections of slot 0, and then sleeps, is not selected between them.
-/
theorem ready_slot_passed_over :
    dueMachine.Selects .runPending 0 ∧ dueMachine.step .runPending = some slotZeroStarted ∧
      slotZeroStarted.SelectedAlong slotTwoSleeps 1 ∧
      ¬ slotZeroStarted.SelectedAlong slotTwoSleeps 0 ∧
      slotZeroStarted.ReadyAlong slotTwoSleeps 2 ∧
      (slotZeroStarted.after slotTwoSleeps).Selects .runPending 0 ∧
      ¬ slotZeroStarted.SelectedAlong slotTwoSleeps 2 := by
  refine ⟨by decide +kernel, rfl, ?_, ?_, ?_, by decide +kernel, ?_⟩
  · unfold SchedulerMachine.SelectedAlong
    decide +kernel
  · unfold SchedulerMachine.SelectedAlong
    decide +kernel
  · exact readyAlong_of_selection (by decide +kernel)
  · unfold SchedulerMachine.SelectedAlong
    decide +kernel

end LiamOS.I386
