import LiamOS.I386.Scheduler.Selection
import LiamOS.I386.Heap.Request

/-
  The audit of the scheduler over runs of its public operations with entries that call no
  scheduler function.

  Two operations can make the audit complain. A creation may take over a slot that the ready-queue
  snapshot still lists under the id of the old task, and a sleep may compute the wake tick 0.
  Every other operation leaves a scheduler the audit accepts, so a run is accepted throughout
  exactly when none of its steps is one of the two.

  Main declarations: `healthyRun_audit_iff`.
-/

namespace LiamOS.I386

open Word RoundRobin Transition

variable {task task' : SchedulerTask} {s s' : Scheduler} {slot : Nat} {m : SchedulerMachine}
variable {s'' : Scheduler} {dispatcher : Dispatcher}

----------
-- Operations

/- The public operations of a healthy run. -/
inductive SchedulerOperation
| createKernelTask
    (intervalTicks entry : Nat)
    (stack : Option StackBase)
| createOneshotKernelTask
    (entry : Nat)
    (stack : Option StackBase)
| disableTask (taskId : Nat)
| sleepTask (taskId sleepTicks : Nat)
| wakeTask (taskId : Nat)
| yieldTask (taskId : Nat)
| yieldCurrentTask
| runTaskNow (taskId : Nat)
| clearInactiveTasks
| runPending
| onTimerTick (currentTick : Nat)
| timerInterrupt

def SchedulerOperation.call : SchedulerOperation → SchedulerCall
| .createKernelTask intervalTicks entry stack => .createKernelTask intervalTicks entry stack
| .createOneshotKernelTask entry stack => .createOneshotKernelTask entry stack
| .disableTask taskId => .disableTask taskId
| .sleepTask taskId sleepTicks => .sleepTask taskId sleepTicks
| .wakeTask taskId => .wakeTask taskId
| .yieldTask taskId => .yieldTask taskId
| .yieldCurrentTask => .yieldCurrentTask
| .runTaskNow taskId => .runTaskNow taskId
| .clearInactiveTasks => .clearInactiveTasks
| .runPending => .runPending
| .onTimerTick currentTick => .onTimerTick currentTick
| .timerInterrupt => .timerInterrupt

/- An entry that was called does nothing but return. -/
def SchedulerMachine.settle (m : SchedulerMachine) : Option SchedulerMachine :=
  match m.frames with
  | [] => some m
  | _ :: _ => m.entryReturns

/- An operation, with the entry it may call. -/
def SchedulerMachine.operate (m : SchedulerMachine) (operation : SchedulerOperation) :
    Option SchedulerMachine :=
  (m.step operation.call).bind SchedulerMachine.settle

----------
-- Stacks from the Heap

/- What the heap returns for a kernel stack is a stack base, behind every run. -/
theorem kmalloc_stackBase {σ : Type} (svc : PageServices σ) (h : Heap σ) (ops : List HeapOp) :
    ∃ h₀ h' p after, heapInitialize svc h = some h₀ ∧ run (heapStep svc) h₀ ops = some h' ∧
        kmalloc svc h' 4096 = some (p, after) ∧
        (p ≠ 0 → ∃ stack : StackBase, stack.address = p) := by
  rcases heapInitialize_ready svc h with ⟨h₀, hInit, hReady⟩
  rcases run_total (heapStep_ready svc) hReady ops with ⟨h', hRun, cs, hRep, -⟩
  rcases kmalloc_ends svc hRep 4096 with ⟨p, after, cs', hCall, hEnds⟩
  refine ⟨h₀, h', p, after, hInit, hRun, hCall, fun hSome => ?_⟩
  have hFit := (hEnds.rep hRep).fit.end_le
  rcases hEnds.designated hSome with ⟨o, cell, hPointer, hCell, -, hServes, -⟩
  have hEnd := hCell.end_le
  have hSize : alignUp (4096 : UInt32).toNat heapAlignment = 4096 := by decide
  rw [hSize] at hServes
  refine ⟨⟨p, ?_, ?_⟩, rfl⟩
  · omega
  · unfold schedulerKernelStackSize
    omega

----------
-- What the Audit Asks For

/- A task has a stack exactly while it may still run. -/
@[mk_iff] structure SchedulerTask.Sound (task : SchedulerTask) : Prop where
  unused : task.used = false → task.kernelStackBase = 0 ∧ task.kernelStackTop = 0
  live : task.used = true → task.state.live = true →
      task.kernelStackBase ≠ 0 ∧ task.kernelStackTop ≠ 0 ∧ task.entry ≠ 0
  inactive : task.used = true → task.state.inactive = true →
      task.kernelStackBase = 0 ∧ task.kernelStackTop = 0
  valid : task.used = true → schedulerTaskStateIsValid task.state = true

/- A sleeping task has a tick at which it wakes. -/
def SchedulerTask.Wakes (task : SchedulerTask) : Prop :=
  task.used = true → task.state = .sleeping → task.wakeTick ≠ 0

/- A place of the snapshot names the task in its slot. -/
def Scheduler.Names (s : Scheduler) (place : ReadyPlace) : Prop :=
  (s.tasks place.slot).used = true ∧ place.taskId = (s.tasks place.slot).id

/- What every operation of a healthy run keeps. -/
structure Scheduler.Sound (s : Scheduler) : Prop where
  tasks : ∀ slot, slot < schedulerMaxTasks → (s.tasks slot).Sound
  slots : ∀ place ∈ s.readyQueue, place.slot < schedulerMaxTasks
  capacity : s.readyQueue.length ≤ schedulerMaxTasks
  running : s.currentRunningTask = none
  switched : s.currentSwitchedTask = none
  stack : s.runningOnTaskStack = false
  preempt : s.preemptTest.enabled = false

/- A sound scheduler about which the audit says nothing. -/
structure Scheduler.Clean (s : Scheduler) : Prop extends s.Sound where
  wakes : ∀ slot, slot < schedulerMaxTasks → (s.tasks slot).Wakes
  names : ∀ place ∈ s.readyQueue, s.Names place

theorem when_eq_nil_iff (issue : AuditIssue) (condition : Bool) :
    issue.when condition = [] ↔ condition = false := by
  cases condition <;> simp [AuditIssue.when]

theorem schedulerAuditTask_eq_nil_iff (task : SchedulerTask) :
    schedulerAuditTask task = [] ↔ task.Sound ∧ task.Wakes := by
  rw [SchedulerTask.sound_iff]
  unfold schedulerAuditTask SchedulerTask.Wakes
  cases hUsed : task.used with
  | false => simp [AuditIssue.when]
  | true =>
    cases hState : task.state <;>
      simp [AuditIssue.when, schedulerTaskStateIsValid, SchedulerTaskState.live,
        SchedulerTaskState.inactive, and_assoc]

theorem schedulerAuditPlace_eq_nil_iff (s : Scheduler) (place : ReadyPlace) :
    schedulerAuditPlace s place = [] ↔ place.slot < schedulerMaxTasks ∧ s.Names place := by
  unfold schedulerAuditPlace Scheduler.Names
  by_cases hSlot : place.slot < schedulerMaxTasks
  · rw [if_neg (Nat.not_le_of_lt hSlot), when_eq_nil_iff]
    simp [hSlot]
  · simp [hSlot, Nat.le_of_not_lt hSlot]

/- What the audit asks of a scheduler. -/
theorem schedulerAudit_eq_zero_iff (s : Scheduler) : schedulerAudit s = 0 ↔
      (∀ slot, slot < schedulerMaxTasks → (s.tasks slot).Sound ∧ (s.tasks slot).Wakes) ∧
        s.readyQueue.length ≤ schedulerMaxTasks ∧
        (∀ place ∈ s.readyQueue, place.slot < schedulerMaxTasks ∧ s.Names place) ∧
        schedulerPointerPointsToTaskTable s.currentRunningTask = true ∧
        schedulerPointerPointsToTaskTable s.currentSwitchedTask = true := by
  unfold schedulerAudit schedulerAuditIssues schedulerAuditReadyQueue
  simp only [List.length_eq_zero_iff, List.append_eq_nil_iff, List.flatMap_eq_nil_iff,
    when_eq_nil_iff, List.mem_range, schedulerAuditTask_eq_nil_iff,
    schedulerAuditPlace_eq_nil_iff, decide_eq_false_iff_not, Nat.not_lt,
    Bool.not_eq_false', and_assoc]

/- On a sound scheduler only two of the conditions of the audit are left open. -/
theorem Scheduler.Sound.audit_iff (hSound : s.Sound) : schedulerAudit s = 0 ↔ s.Clean := by
  rw [schedulerAudit_eq_zero_iff]
  constructor
  · rintro ⟨hTasks, -, hPlaces, -⟩
    exact { hSound with
      wakes := fun slot hSlot => (hTasks slot hSlot).2
      names := fun place hMem => (hPlaces place hMem).2 }
  · intro hClean
    refine ⟨fun slot hSlot => ⟨hSound.tasks slot hSlot, hClean.wakes slot hSlot⟩, hSound.capacity,
      fun place hMem => ⟨hSound.slots place hMem, hClean.names place hMem⟩, ?_, ?_⟩
    · rw [hSound.running]
      rfl
    · rw [hSound.switched]
      rfl

----------
-- Changing the Table

/- A change of a task under which the audit stays content. -/
structure SchedulerTask.Steady (task task' : SchedulerTask) : Prop where
  sound : task.Sound → task'.Sound
  wakes : task.Wakes → task'.Wakes
  used : task'.used = task.used
  id : task'.id = task.id

theorem Scheduler.Names.of_steady {place : ReadyPlace} (hNames : s.Names place)
    (hSteady : (s.tasks place.slot).Steady (s'.tasks place.slot)) :
    s'.Names place := by
  refine ⟨?_, ?_⟩
  · rw [hSteady.used]
    exact hNames.1
  · rw [hSteady.id]
    exact hNames.2

/-
  A scheduler whose tasks change steadily and whose snapshot stays is as sound and as clean as
  before.
-/
structure Scheduler.Steady (s s' : Scheduler) : Prop where
  tasks : ∀ slot, slot < schedulerMaxTasks → (s.tasks slot).Steady (s'.tasks slot)
  queue : s'.readyQueue = s.readyQueue
  running : s'.currentRunningTask = s.currentRunningTask
  switched : s'.currentSwitchedTask = s.currentSwitchedTask
  stack : s'.runningOnTaskStack = s.runningOnTaskStack
  preempt : s'.preemptTest = s.preemptTest

theorem Scheduler.Steady.sound (hSteady : s.Steady s') (hSound : s.Sound) : s'.Sound where
  tasks slot hSlot := (hSteady.tasks slot hSlot).sound (hSound.tasks slot hSlot)
  slots := by
    rw [hSteady.queue]
    exact hSound.slots
  capacity := by
    rw [hSteady.queue]
    exact hSound.capacity
  running := hSteady.running.trans hSound.running
  switched := hSteady.switched.trans hSound.switched
  stack := hSteady.stack.trans hSound.stack
  preempt := by
    rw [hSteady.preempt]
    exact hSound.preempt

theorem Scheduler.Steady.clean (hSteady : s.Steady s') (hClean : s.Clean) : s'.Clean := by
  refine { hSteady.sound hClean.toSound with wakes := ?_, names := ?_ }
  · intro slot hSlot
    exact (hSteady.tasks slot hSlot).wakes (hClean.wakes slot hSlot)
  · intro place hMem
    rw [hSteady.queue] at hMem
    exact (hClean.names place hMem).of_steady (hSteady.tasks place.slot (hClean.slots place hMem))

theorem SchedulerTask.Steady.refl (task : SchedulerTask) : task.Steady task :=
  ⟨fun h => h, fun h => h, rfl, rfl⟩

theorem Scheduler.Steady.refl (s : Scheduler) : s.Steady s :=
  ⟨fun _ _ => .refl _, rfl, rfl, rfl, rfl, rfl⟩

theorem SchedulerTask.Steady.trans {first second third : SchedulerTask}
    (hLeft : first.Steady second) (hRight : second.Steady third) :
    first.Steady third :=
  ⟨fun h => hRight.sound (hLeft.sound h), fun h => hRight.wakes (hLeft.wakes h),
    hRight.used.trans hLeft.used, hRight.id.trans hLeft.id⟩

theorem Scheduler.Steady.trans {first second third : Scheduler} (hLeft : first.Steady second)
    (hRight : second.Steady third) :
    first.Steady third :=
  ⟨fun slot hSlot =>
      (hLeft.tasks slot hSlot).trans (hRight.tasks slot hSlot), hRight.queue.trans hLeft.queue,
    hRight.running.trans hLeft.running, hRight.switched.trans hLeft.switched,
    hRight.stack.trans hLeft.stack, hRight.preempt.trans hLeft.preempt⟩

theorem Scheduler.Steady.setTask (hTask : (s.tasks slot).Steady task) :
    s.Steady (s.setTask slot task) :=
  ⟨fun other _ =>
      @setTask_forall (fun other task => (s.tasks other).Steady task) _ _ _ hTask
        (fun _ _ => .refl _) other, rfl, rfl, rfl, rfl, rfl⟩

theorem Scheduler.Steady.mapTasks {f : SchedulerTask → SchedulerTask}
    (hTask : ∀ task : SchedulerTask, task.Steady (f task)) :
    s.Steady (s.mapTasks f) := by
  refine ⟨?_, rfl, rfl, rfl, rfl, rfl⟩
  intro slot hSlot
  rw [mapTasks_tasks s f hSlot]
  exact hTask _

----------
-- Steady Changes

/- A live task that stays live with its stack. -/
theorem SchedulerTask.Sound.of_live (hSound : task.Sound) (hLive : task.state.live = true)
    (hLive' : task'.state.live = true) (hUsed : task'.used = task.used)
    (hBase : task'.kernelStackBase = task.kernelStackBase)
    (hTop : task'.kernelStackTop = task.kernelStackTop) (hEntry : task'.entry = task.entry) :
    task'.Sound := by
  refine ⟨?_, ?_, ?_, ?_⟩
  · intro hNot
    rw [hBase, hTop]
    exact hSound.unused (hUsed ▸ hNot)
  · intro hIs _
    rw [hBase, hTop, hEntry]
    exact hSound.live (hUsed ▸ hIs) hLive
  · intro _ hInactive
    cases hState : task'.state <;>
      simp [hState, SchedulerTaskState.live, SchedulerTaskState.inactive] at hLive' hInactive
  · intro _
    cases hState : task'.state <;> simp [hState, SchedulerTaskState.live] at hLive' ⊢ <;> rfl

/- A live task that is active behind the change. -/
theorem SchedulerTask.Steady.of_active (hLive : task.state.live = true)
    (hActive : task'.state = .active) (hUsed : task'.used = task.used) (hId : task'.id = task.id)
    (hBase : task'.kernelStackBase = task.kernelStackBase)
    (hTop : task'.kernelStackTop = task.kernelStackTop) (hEntry : task'.entry = task.entry) :
    task.Steady task' := by
  refine ⟨?_, ?_, hUsed, hId⟩
  · intro hSound
    exact hSound.of_live hLive (by rw [hActive]; rfl) hUsed hBase hTop hEntry
  · intro _ _ hSleeping
    rw [hActive] at hSleeping
    cases hSleeping

/- A live task that is done and gives up its stack. -/
theorem SchedulerTask.Steady.of_freed (hUsed : task.used = true) (hLive : task.state.live = true)
    (hInactive : task'.state.inactive = true) (hUsed' : task'.used = task.used)
    (hId : task'.id = task.id) (hBase : task'.kernelStackBase = task.kernelStackBase) :
    task.Steady (schedulerFreeKernelStack task') := by
  have hSame := schedulerFreeKernelStack_same task'
  have hNotLive : (schedulerFreeKernelStack task').state.live = false := by
    rw [hSame.state]
    cases hState : task'.state <;>
      simp [hState, SchedulerTaskState.live, SchedulerTaskState.inactive] at hInactive ⊢
  refine ⟨?_, ?_, hSame.used.trans hUsed', hSame.id.trans hId⟩
  · intro hSound
    have hStack := (hSound.live hUsed hLive).1
    have hFreed : schedulerFreeKernelStack task' =
          { task' with
            kernelStackBase := 0
            kernelStackSize := 0
            kernelStackTop := 0 } :=
      if_neg (by rw [hBase]; exact hStack)
    refine ⟨?_, ?_, ?_, ?_⟩
    · intro _
      rw [hFreed]
      exact ⟨rfl, rfl⟩
    · intro _ hStill
      rw [hNotLive] at hStill
      cases hStill
    · intro _ _
      rw [hFreed]
      exact ⟨rfl, rfl⟩
    · intro _
      rw [hSame.state]
      cases hState : task'.state <;> simp [hState, SchedulerTaskState.inactive] at hInactive ⊢ <;>
        rfl
  · intro _ _ hSleeping
    rw [hSleeping] at hNotLive
    cases hNotLive

theorem schedulerWakeDue_steady (currentTick : Nat) (task : SchedulerTask) :
    task.Steady (schedulerWakeDue currentTick task) := by
  unfold schedulerWakeDue
  split
  · exact .refl _
  · next hSleeping =>
      split
      · have hState : task.state = .sleeping := by
          simp only [Bool.or_eq_true, not_or] at hSleeping
          simpa using hSleeping.2
        exact .of_active (by rw [hState]; rfl) rfl rfl rfl rfl rfl rfl
      · exact .refl _

theorem schedulerWakeSleepingTasks_steady (s : Scheduler) (currentTick : Nat) :
    s.Steady (schedulerWakeSleepingTasks s currentTick) :=
  .mapTasks (schedulerWakeDue_steady currentTick)

theorem setLastRunTick_steady (s : Scheduler) (slot : Nat) : s.Steady (s.setLastRunTick slot) :=
  .setTask
    ⟨fun hSound =>
        ⟨hSound.unused, hSound.live, hSound.inactive, hSound.valid⟩, fun hWakes => hWakes, rfl, rfl⟩

/- A whole run of an entry that calls nothing. -/
theorem left_steady (hUsed : task.used = true) (hLive : task.state.live = true) :
    task.Steady ({ task with state := .running }.left false) := by
  unfold SchedulerTask.left
  dsimp only
  split
  · exact .of_freed hUsed hLive rfl rfl rfl rfl
  · exact .of_active hLive rfl rfl rfl rfl rfl rfl

theorem trampoline_steady (hSound : s.Sound) (hUsed : (s.tasks slot).used = true)
    (hLive : (s.tasks slot).state.live = true) :
    s.Steady (schedulerTrampolineLeave (schedulerTrampolineEnter s slot) slot) := by
  have hTasks : (schedulerTrampolineLeave (schedulerTrampolineEnter s slot) slot).tasks =
        (s.setTask slot
          ({ s.tasks slot with state := .running }.left s.runningOnTaskStack)).tasks := by
    simp [schedulerTrampolineLeave, schedulerTrampolineEnter, Scheduler.setTask]
  have hSet : s.Steady (s.setTask slot ({ s.tasks slot with state := .running }.left false)) :=
    .setTask (left_steady hUsed hLive)
  refine ⟨?_, rfl, hSound.running.symm, rfl, rfl, rfl⟩
  intro other hOther
  rw [hTasks, hSound.stack]
  exact hSet.tasks other hOther

----------
-- Single Operations

/- The task of one slot is replaced by a sound one. -/
theorem Scheduler.Sound.setTask (hSound : s.Sound) (hTask : task.Sound) :
    (s.setTask slot task).Sound :=
  { hSound with
    tasks := @setTask_forall (fun other task => other < schedulerMaxTasks → task.Sound) _ _ _
        (fun _ => hTask) (fun other _ => hSound.tasks other) }

/-
  With a task that wakes in one slot, the scheduler is clean exactly if the snapshot does not name
  another one there.
-/
theorem clean_setTask_iff (hClean : s.Clean) (hSlot : slot < schedulerMaxTasks)
    (hTask : task.Sound) :
    (s.setTask slot task).Clean ↔ task.Wakes ∧
        ∀ place ∈ s.readyQueue, place.slot = slot → task.used = true ∧ place.taskId = task.id := by
  constructor
  · intro hAfter
    refine ⟨?_, ?_⟩
    · have hWakes := hAfter.wakes slot hSlot
      rw [setTask_self] at hWakes
      exact hWakes
    · intro place hMem hPlace
      have hNames := hAfter.names place hMem
      rw [Scheduler.Names, hPlace, setTask_self] at hNames
      exact hNames
  · rintro ⟨hWakes, hNames⟩
    refine { hClean.toSound.setTask hTask with wakes := ?_, names := ?_ }
    · exact @setTask_forall (fun other task => other < schedulerMaxTasks → task.Wakes) _ _ _
        (fun _ => hWakes) (fun other _ => hClean.wakes other)
    · intro place hMem
      rw [Scheduler.Names]
      by_cases hEq : place.slot = slot
      · rw [hEq, setTask_self]
        exact hNames place hMem hEq
      · rw [setTask_of_ne s hEq]
        exact hClean.names place hMem

theorem clearedTask_sound : clearedTask.Sound where
  unused _ := ⟨rfl, rfl⟩
  live hUsed := by cases hUsed
  inactive hUsed := by cases hUsed
  valid hUsed := by cases hUsed

theorem createdOn_sound (stack : StackBase) (id intervalTicks now : Nat) {entry : Nat}
    (mode : SchedulerTaskMode) (hEntry : entry ≠ 0) :
    (SchedulerTask.createdOn stack id intervalTicks entry now mode).Sound where
  unused hUsed := by cases hUsed
  live _ _ := by
    have hStart := stack.start_le
    have hEnd := stack.end_le
    have hTop :
        u32 (stack.address + schedulerKernelStackSize) = stack.address + schedulerKernelStackSize :=
      u32_of_lt (Nat.lt_of_le_of_lt hEnd (by decide))
    refine ⟨?_, ?_, hEntry⟩
    · show stack.address ≠ 0
      omega
    · show u32 (stack.address + schedulerKernelStackSize) ≠ 0
      rw [hTop]
      omega
  inactive _ hInactive := by cases hInactive
  valid _ := rfl

/- A creation takes no slot the snapshot lists under another id, unless it gets none. -/
def Scheduler.CreationKeepsNames (s : Scheduler) (intervalTicks entry : Nat)
    (mode : SchedulerTaskMode)
    (stack : Option StackBase) : Prop :=
  ∀ slot, schedulerCreateSlot s intervalTicks entry mode = some slot →
      ∀ place ∈ s.readyQueue, place.slot = slot → stack ≠ none ∧ place.taskId = s.nextTaskId

/- The operations that leave the audit content. -/
def SchedulerOperation.KeepsAudit (s : Scheduler) : SchedulerOperation → Prop
| .createKernelTask intervalTicks entry stack =>
    s.CreationKeepsNames intervalTicks entry .recurring stack
| .createOneshotKernelTask entry stack => s.CreationKeepsNames 0 entry .oneshot stack
| .sleepTask taskId sleepTicks =>
    (schedulerSleepTask s taskId sleepTicks).1 = true → u32 (s.timerTicks + sleepTicks) ≠ 0
| _ => True

/- What an operation that meets a condition exactly then keeps. -/
structure Scheduler.Keeps (s s' : Scheduler) (condition : Prop) : Prop where
  sound : s'.Sound
  clean : s.Clean → (s'.Clean ↔ condition)

theorem Scheduler.Steady.keeps (hSteady : s.Steady s') (hSound : s.Sound) : s.Keeps s' True :=
  ⟨hSteady.sound hSound, fun hClean => iff_true_intro (hSteady.clean hClean)⟩

theorem schedulerCreateTaskInternal_keeps (hSound : s.Sound) (intervalTicks entry : Nat)
    (mode : SchedulerTaskMode) (stack : Option StackBase) :
    s.Keeps (schedulerCreateTaskInternal s intervalTicks entry mode stack).2
      (s.CreationKeepsNames intervalTicks entry mode stack) := by
  unfold Scheduler.CreationKeepsNames
  rcases schedulerCreateTaskInternal_cases s intervalTicks entry mode stack with
    ⟨hNone, hEq⟩ | ⟨slot, hSlot, ⟨hStack, hEq⟩ | ⟨base, hStack, hEq⟩⟩
  · rw [hEq, hNone]
    refine ⟨hSound, fun hClean => iff_of_true hClean ?_⟩
    intro slot hSome
    cases hSome
  · rw [hEq, hSlot, hStack]
    have hRange := (schedulerFindAvailableSlot_spec (schedulerCreateSlot_spec hSlot).2).1
    refine ⟨hSound.setTask clearedTask_sound, ?_⟩
    intro hClean
    rw [clean_setTask_iff hClean hRange clearedTask_sound]
    constructor
    · rintro ⟨-, hNames⟩ other hOther place hMem hPlace
      cases hOther
      exact absurd (hNames place hMem hPlace).1 (by decide)
    · intro hNames
      refine ⟨fun hUsed => (by cases hUsed), ?_⟩
      intro place hMem hPlace
      exact absurd rfl (hNames slot rfl place hMem hPlace).1
  · rw [hEq, hSlot, hStack]
    have hSpec := schedulerCreateSlot_spec hSlot
    have hRange := (schedulerFindAvailableSlot_spec hSpec.2).1
    have hTask := createdOn_sound base s.nextTaskId intervalTicks s.timerTicks mode hSpec.1
    have hNumbered : ∀ t : Scheduler, t.Steady { t with nextTaskId := u32 (s.nextTaskId + 1) } :=
      fun t => ⟨fun _ _ => .refl _, rfl, rfl, rfl, rfl, rfl⟩
    have hBack :
        ∀ t : Scheduler, Scheduler.Steady { t with nextTaskId := u32 (s.nextTaskId + 1) } t :=
      fun t => ⟨fun _ _ => .refl _, rfl, rfl, rfl, rfl, rfl⟩
    refine ⟨(hNumbered _).sound (hSound.setTask hTask), ?_⟩
    intro hClean
    have hIff := clean_setTask_iff hClean hRange hTask
    constructor
    · intro hAfter other hOther place hMem hPlace
      cases hOther
      refine ⟨by simp, ?_⟩
      exact ((hIff.mp ((hBack _).clean hAfter)).2 place hMem hPlace).2
    · intro hNames
      refine (hNumbered _).clean (hIff.mpr ⟨?_, ?_⟩)
      · intro _ hSleeping
        cases hSleeping
      · intro place hMem hPlace
        exact ⟨rfl, (hNames slot rfl place hMem hPlace).2⟩

theorem schedulerSleepTask_keeps (hSound : s.Sound) (taskId sleepTicks : Nat) :
    s.Keeps (schedulerSleepTask s taskId sleepTicks).2
      ((schedulerSleepTask s taskId sleepTicks).1 = true →
        u32 (s.timerTicks + sleepTicks) ≠ 0) := by
  rcases schedulerSleepTask_cases s taskId sleepTicks with hEq | ⟨slot, hFound, hActive, hEq⟩
  · rw [hEq]
    refine ⟨hSound, fun hClean => iff_of_true hClean ?_⟩
    intro hTrue
    cases hTrue
  · rw [hEq]
    have hSpec := schedulerFindTaskById_spec hFound
    have hTask : SchedulerTask.Sound
          { s.tasks slot with
            state := .sleeping
            wakeTick := u32 (s.timerTicks + sleepTicks)
            sleepCount := u32 ((s.tasks slot).sleepCount + 1) } :=
      (hSound.tasks slot hSpec.1).of_live (by rw [hActive]; rfl) rfl rfl rfl rfl rfl
    refine ⟨hSound.setTask hTask, ?_⟩
    intro hClean
    rw [clean_setTask_iff hClean hSpec.1 hTask]
    constructor
    · rintro ⟨hWakes, -⟩ -
      exact hWakes hSpec.2.1 rfl
    · intro hTick
      refine ⟨fun _ _ => hTick rfl, ?_⟩
      intro place hMem hPlace
      have hNames := hClean.names place hMem
      rw [Scheduler.Names, hPlace] at hNames
      exact hNames

theorem schedulerDisableTask_steady (s : Scheduler) (taskId : Nat) :
    s.Steady (schedulerDisableTask s taskId).2 := by
  rcases schedulerDisableTask_cases s taskId with hEq | ⟨slot, hFound, hLive, hEq⟩
  · rw [hEq]
    exact .refl _
  · rw [hEq]
    have hSpec := schedulerFindTaskById_spec hFound
    exact .setTask (.of_freed hSpec.2.1 hLive rfl rfl rfl rfl)

theorem schedulerWakeTask_steady (s : Scheduler) (taskId : Nat) :
    s.Steady (schedulerWakeTask s taskId).2 := by
  rcases schedulerWakeTask_cases s taskId with hEq | ⟨slot, -, hSleeping, hEq⟩
  · rw [hEq]
    exact .refl _
  · rw [hEq]
    exact .setTask (.of_active (by rw [hSleeping]; rfl) rfl rfl rfl rfl rfl rfl)

theorem schedulerYieldTask_steady (s : Scheduler) (taskId : Nat) :
    s.Steady (schedulerYieldTask s taskId).2 := by
  rcases schedulerYieldTask_cases s taskId with hEq | ⟨slot, -, hEq⟩
  · rw [hEq]
    exact .refl _
  · rw [hEq]
    exact setLastRunTick_steady s slot

theorem schedulerYieldCurrentTask_steady (s : Scheduler) :
    s.Steady (schedulerYieldCurrentTask s).2 := by
  rcases schedulerYieldCurrentTask_cases s with hEq | ⟨taskId, hEq⟩
  · rw [hEq]
    exact .refl _
  · rw [hEq]
    exact schedulerYieldTask_steady s taskId

theorem schedulerClearInactiveTask_sound (hSound : task.Sound) :
    (schedulerClearInactiveTask task).Sound := by
  unfold schedulerClearInactiveTask
  split
  · exact clearedTask_sound
  · exact hSound

theorem schedulerClearInactiveTask_wakes (hWakes : task.Wakes) :
    (schedulerClearInactiveTask task).Wakes := by
  unfold schedulerClearInactiveTask
  split
  · intro hUsed
    cases hUsed
  · exact hWakes

/- Clearing empties the snapshot as well. -/
theorem schedulerClearInactiveTasks_keeps (hSound : s.Sound) :
    s.Keeps (schedulerClearInactiveTasks s) True := by
  have hAt : ∀ slot, slot < schedulerMaxTasks →
        (schedulerClearInactiveTasks s).tasks slot = schedulerClearInactiveTask (s.tasks slot) :=
    fun slot hSlot => mapTasks_tasks s _ hSlot
  have hAfter : (schedulerClearInactiveTasks s).Sound := by
    refine { hSound with tasks := ?_, slots := ?_, capacity := Nat.zero_le _ }
    · intro slot hSlot
      rw [hAt slot hSlot]
      exact schedulerClearInactiveTask_sound (hSound.tasks slot hSlot)
    · intro place hMem
      cases hMem
  refine ⟨hAfter, fun hClean => iff_true_intro ?_⟩
  refine { hAfter with wakes := ?_, names := ?_ }
  · intro slot hSlot
    rw [hAt slot hSlot]
    exact schedulerClearInactiveTask_wakes (hClean.wakes slot hSlot)
  · intro place hMem
    cases hMem

/- A rebuilt snapshot names the tasks in its slots. -/
theorem schedulerSelectNextReadyTask_keeps (hSound : s.Sound) (currentTick : Nat) :
    s.Keeps (schedulerSelectNextReadyTask s currentTick).2 True := by
  have hQueue := schedulerRebuildReadyQueue_eq s currentTick
  have hPlace : ∀ place ∈ (schedulerRebuildReadyQueue s currentTick).readyQueue,
        place.slot < schedulerMaxTasks ∧ s.Names place := by
    intro place hMem
    rw [hQueue] at hMem
    rcases List.mem_map.mp hMem with ⟨slot, hSlot, rfl⟩
    rcases List.mem_filter.mp hSlot with ⟨hScan, hReady⟩
    rcases List.mem_map.mp hScan with ⟨attempts, hRange, hEq⟩
    have hLess : slot < schedulerMaxTasks := by
      rw [← hEq]
      exact (visited_distance (List.mem_range.mp hRange)).1
    refine ⟨hLess, ?_, rfl⟩
    show (s.tasks slot).used = true
    unfold Scheduler.readyAt schedulerTaskIsReadyToRun at hReady
    by_contra hUnused
    simp [hUnused] at hReady
  have hLength :
      (schedulerRebuildReadyQueue s currentTick).readyQueue.length ≤ schedulerMaxTasks := by
    rw [hQueue, List.length_map]
    refine Nat.le_trans (List.length_filter_le _ _) ?_
    simp [scan]
  rw [schedulerSelectNextReadyTask_snd]
  have hAfter : ∀ index, Scheduler.Sound
        { schedulerRebuildReadyQueue s currentTick with currentTaskIndex := index } := fun _ =>
    ⟨hSound.tasks, fun place hMem => (hPlace place hMem).1,
      hLength, hSound.running, hSound.switched, hSound.stack, hSound.preempt⟩
  refine ⟨hAfter _, fun hClean => iff_true_intro ?_⟩
  exact { hAfter _ with
    wakes := hClean.wakes
    names := fun place hMem => (hPlace place hMem).2 }

----------
-- Whole Operations

theorem Scheduler.Keeps.steady (hKeeps : s.Keeps s' True) (hSteady : s'.Steady s'') :
    s.Keeps s'' True :=
  ⟨hSteady.sound hKeeps.sound, fun hClean =>
      iff_true_intro (hSteady.clean ((hKeeps.clean hClean).mpr trivial))⟩

theorem Scheduler.Steady.keeps_trans (hSteady : s.Steady s') (hKeeps : s'.Keeps s'' True) :
    s.Keeps s'' True :=
  ⟨hKeeps.sound, fun hClean => hKeeps.clean (hSteady.clean hClean)⟩

/- A machine between two operations of a healthy run. -/
structure SchedulerMachine.Healthy (m : SchedulerMachine) : Prop where
  frames : m.frames = []
  sound : m.scheduler.Sound

/- An operation that ends, and what it keeps. -/
def SchedulerMachine.OperateKeeps (m : SchedulerMachine) (operation : SchedulerOperation) : Prop :=
  ∃ m', m.operate operation = some m' ∧ m'.frames = [] ∧
      m.scheduler.Keeps m'.scheduler (operation.KeepsAudit m.scheduler)

/- An operation that calls no entry. -/
theorem operateKeeps_of_withScheduler {operation : SchedulerOperation} (hFrames : m.frames = [])
    (hStep : m.step operation.call = some (m.withScheduler s))
    (hKeeps : m.scheduler.Keeps s (operation.KeepsAudit m.scheduler)) :
    m.OperateKeeps operation := by
  refine ⟨m.withScheduler s, ?_, hFrames, hKeeps⟩
  rw [SchedulerMachine.operate, hStep, Option.bind_some, SchedulerMachine.settle]
  show (match m.frames with
    | [] => some (m.withScheduler s)
    | _ :: _ => (m.withScheduler s).entryReturns) = _
  rw [hFrames]

/- A dispatch from a healthy machine, with its entry. -/
theorem trampoline_settle (hHealthy : m.Healthy) (hUsed : (m.scheduler.tasks slot).used = true)
    (hLive : (m.scheduler.tasks slot).state.live = true)
    (hDirect : dispatcher = .runTaskNow ∨ dispatcher = .runPending) :
    ∃ m', (m.trampoline dispatcher slot).settle = some m' ∧ m'.frames = [] ∧
        m.scheduler.Steady m'.scheduler := by
  have hResume : ∀ s : Scheduler, dispatcher.resume s = s := by
    intro s
    rcases hDirect with rfl | rfl <;> rfl
  unfold SchedulerMachine.trampoline
  split
  · refine ⟨m, ?_, hHealthy.frames, .refl _⟩
    rw [hResume, SchedulerMachine.settle]
    show (match m.frames with
      | [] => some m
      | _ :: _ => m.entryReturns) = _
    rw [hHealthy.frames]
  · refine ⟨{ m with
        scheduler := schedulerTrampolineLeave (schedulerTrampolineEnter m.scheduler slot) slot
        frames := []
        entryCalls := (m.scheduler.tasks slot).id :: m.entryCalls },
      ?_, rfl, trampoline_steady hHealthy.sound hUsed hLive⟩
    rw [hHealthy.frames]
    rcases hDirect with rfl | rfl <;> rfl

/- The same behind the date of the last run. -/
theorem dispatch_settle (hFrames : m.frames = []) (hSound : s.Sound)
    (hUsed : (s.tasks slot).used = true) (hActive : (s.tasks slot).state = .active)
    (hDirect : dispatcher = .runTaskNow ∨ dispatcher = .runPending) :
    ∃ m', ((m.withScheduler (s.setLastRunTick slot)).trampoline dispatcher slot).settle = some m' ∧
        m'.frames = [] ∧
        s.Steady m'.scheduler := by
  have hDated := setLastRunTick_steady s slot
  have hSelf :
      (s.setLastRunTick slot).tasks slot = { s.tasks slot with lastRunTick := s.timerTicks } :=
    setTask_self _ _ _
  have hHealthy : (m.withScheduler (s.setLastRunTick slot)).Healthy :=
    ⟨hFrames, hDated.sound hSound⟩
  have hStill : ((m.withScheduler (s.setLastRunTick slot)).scheduler.tasks slot).used = true := by
    show ((s.setLastRunTick slot).tasks slot).used = true
    rw [hSelf]
    exact hUsed
  have hLive :
      ((m.withScheduler (s.setLastRunTick slot)).scheduler.tasks slot).state.live = true := by
    show ((s.setLastRunTick slot).tasks slot).state.live = true
    rw [hSelf]
    show (s.tasks slot).state.live = true
    rw [hActive]
    rfl
  rcases trampoline_settle hHealthy hStill hLive hDirect with ⟨m', hSettle, hEmpty, hSteady⟩
  exact ⟨m', hSettle, hEmpty, hDated.trans hSteady⟩

theorem runTaskNow_keeps (hHealthy : m.Healthy) (taskId : Nat) :
    m.OperateKeeps (.runTaskNow taskId) := by
  rcases m.runTaskNow_cases taskId with hEq | ⟨slot, hFound, hActive, hEq⟩
  · exact operateKeeps_of_withScheduler hHealthy.frames (congrArg some hEq)
      ((Scheduler.Steady.refl _).keeps hHealthy.sound)
  · have hSpec := schedulerFindTaskById_spec hFound
    rcases dispatch_settle hHealthy.frames hHealthy.sound hSpec.2.1 hActive (Or.inl rfl) with
      ⟨m', hSettle, hFrames, hSteady⟩
    refine ⟨m', ?_, hFrames, hSteady.keeps hHealthy.sound⟩
    show (some (m.runTaskNow taskId)).bind SchedulerMachine.settle = some m'
    rw [hEq]
    exact hSettle

theorem runPending_keeps (hHealthy : m.Healthy) : m.OperateKeeps .runPending := by
  have hWoken := schedulerWakeSleepingTasks_steady m.scheduler m.scheduler.timerTicks
  have hSelect : m.scheduler.Keeps m.scheduler.selected True := hWoken.keeps_trans
      (schedulerSelectNextReadyTask_keeps (hWoken.sound hHealthy.sound) m.scheduler.timerTicks)
  rcases m.runPending_cases .runPending with
    ⟨-, hEq⟩ | ⟨-, hEq | ⟨slot, -, hUsed, hActive, hEq⟩⟩
  · exact operateKeeps_of_withScheduler hHealthy.frames (congrArg some hEq)
      ((Scheduler.Steady.refl _).keeps hHealthy.sound)
  · exact operateKeeps_of_withScheduler hHealthy.frames (congrArg some hEq) hSelect
  · rcases dispatch_settle hHealthy.frames hSelect.sound hUsed hActive (Or.inr rfl) with
      ⟨m', hSettle, hFrames, hSteady⟩
    refine ⟨m', ?_, hFrames, hSelect.steady hSteady⟩
    show (some (m.runPending .runPending)).bind SchedulerMachine.settle = some m'
    rw [hEq]
    exact hSettle

/- Without the preemption test a tick only wakes tasks. -/
theorem onTimerTick_keeps (hHealthy : m.Healthy) (currentTick : Nat) :
    ∃ s, m.onTimerTick currentTick = m.withScheduler s ∧ m.scheduler.Steady s := by
  unfold SchedulerMachine.onTimerTick
  rcases schedulerTimerTick_cases m.scheduler currentTick with ⟨-, hEq⟩ | hEq | ⟨hEnabled, -⟩
  · rw [hEq]
    exact ⟨_, rfl, .refl _⟩
  · rw [hEq]
    exact ⟨_, rfl, schedulerWakeSleepingTasks_steady _ currentTick⟩
  · rw [hHealthy.sound.preempt] at hEnabled
    cases hEnabled

theorem tick_healthy (hHealthy : m.Healthy) :
    m.scheduler.Steady m.tick.scheduler ∧ m.tick.Healthy := by
  have hSteady : m.scheduler.Steady m.tick.scheduler :=
    ⟨fun _ _ => .refl _, rfl, rfl, rfl, rfl, rfl⟩
  exact ⟨hSteady, hHealthy.frames, hSteady.sound hHealthy.sound⟩

/- Every operation of a healthy machine ends. -/
theorem operate_keeps (hHealthy : m.Healthy) (operation : SchedulerOperation) :
    m.OperateKeeps operation := by
  have hFrames := hHealthy.frames
  have hSound := hHealthy.sound
  cases operation with
  | createKernelTask intervalTicks entry stack =>
    exact operateKeeps_of_withScheduler hFrames rfl
      (schedulerCreateTaskInternal_keeps hSound _ _ _ _)
  | createOneshotKernelTask entry stack =>
    exact operateKeeps_of_withScheduler hFrames rfl
      (schedulerCreateTaskInternal_keeps hSound _ _ _ _)
  | disableTask taskId =>
    exact operateKeeps_of_withScheduler hFrames rfl ((schedulerDisableTask_steady _ _).keeps hSound)
  | sleepTask taskId sleepTicks =>
    exact operateKeeps_of_withScheduler hFrames rfl (schedulerSleepTask_keeps hSound _ _)
  | wakeTask taskId =>
    exact operateKeeps_of_withScheduler hFrames rfl ((schedulerWakeTask_steady _ _).keeps hSound)
  | yieldTask taskId =>
    exact operateKeeps_of_withScheduler hFrames rfl ((schedulerYieldTask_steady _ _).keeps hSound)
  | yieldCurrentTask =>
    exact operateKeeps_of_withScheduler hFrames rfl
      ((schedulerYieldCurrentTask_steady _).keeps hSound)
  | runTaskNow taskId => exact runTaskNow_keeps hHealthy taskId
  | clearInactiveTasks =>
    exact operateKeeps_of_withScheduler hFrames rfl (schedulerClearInactiveTasks_keeps hSound)
  | runPending => exact runPending_keeps hHealthy
  | onTimerTick currentTick =>
    rcases onTimerTick_keeps hHealthy currentTick with ⟨s, hEq, hSteady⟩
    exact operateKeeps_of_withScheduler hFrames (congrArg some hEq) (hSteady.keeps hSound)
  | timerInterrupt =>
    rcases tick_healthy hHealthy with ⟨hTick, hTicked⟩
    rcases onTimerTick_keeps hTicked m.tick.scheduler.timerTicks with ⟨s, hEq, hSteady⟩
    exact operateKeeps_of_withScheduler hFrames
      (congrArg some hEq) ((hTick.trans hSteady).keeps hSound)

----------
-- Healthy Runs

theorem booted_healthy (timerTicks : Nat) : (SchedulerMachine.booted timerTicks).Healthy := by
  refine ⟨rfl, ?_, ?_, Nat.zero_le _, rfl, rfl, rfl, rfl⟩
  · intro slot hSlot
    have hCleared : (SchedulerMachine.booted timerTicks).scheduler.tasks slot = clearedTask :=
      if_pos hSlot
    rw [hCleared]
    exact clearedTask_sound
  · intro place hMem
    cases hMem

theorem booted_clean (timerTicks : Nat) : (SchedulerMachine.booted timerTicks).scheduler.Clean := by
  refine { (booted_healthy timerTicks).sound with wakes := ?_, names := ?_ }
  · intro slot hSlot hUsed
    have hCleared : (SchedulerMachine.booted timerTicks).scheduler.tasks slot = clearedTask :=
      if_pos hSlot
    rw [hCleared] at hUsed
    cases hUsed
  · intro place hMem
    cases hMem

/-
  Every run of the operations ends, and the audit returns 0 behind each of its operations exactly
  if none of them takes over a slot the snapshot lists under another id or sets the wake tick 0.
-/
theorem healthyRun_audit_iff (timerTicks : Nat) (operations : List SchedulerOperation) :
    schedulerAudit (SchedulerMachine.booted timerTicks).scheduler = 0 ∧
      (∃ m, run SchedulerMachine.operate (SchedulerMachine.booted timerTicks) operations = some m) ∧
      ((∀ t ∈ steps SchedulerMachine.operate (SchedulerMachine.booted timerTicks) operations,
          schedulerAudit t.after.scheduler = 0) ↔
        ∀ t ∈ steps SchedulerMachine.operate (SchedulerMachine.booted timerTicks) operations,
          t.label.KeepsAudit t.before.scheduler) := by
  have hHealthy := booted_healthy timerTicks
  have hClean := booted_clean timerTicks
  refine ⟨hHealthy.sound.audit_iff.mpr hClean, ?_, ?_⟩
  · have hEnds : ∀ (m : SchedulerMachine) (operation : SchedulerOperation),
          m.Healthy → ∃ m', m.operate operation = some m' ∧ m'.Healthy := by
      intro m operation hBefore
      rcases operate_keeps hBefore operation with ⟨m', hStep, hEmpty, hKeeps⟩
      exact ⟨m', hStep, hEmpty, hKeeps.sound⟩
    rcases run_total hEnds hHealthy operations with ⟨m, hRun, -⟩
    exact ⟨m, hRun⟩
  · refine @steps_iff _ _ SchedulerMachine.operate (fun m => m.Healthy ∧ m.scheduler.Clean) _ _ ?_ _
      ⟨hHealthy, hClean⟩ operations
    rintro ⟨m, operation, m'⟩ ⟨hBefore, hBeforeClean⟩ hStep
    rcases operate_keeps hBefore operation with ⟨m'', hStep', hEmpty, hKeeps⟩
    have hSame : m'' = m' := Option.some.inj (hStep'.symm.trans hStep)
    subst hSame
    have hAudit := hKeeps.sound.audit_iff
    refine ⟨hAudit.trans (hKeeps.clean hBeforeClean), ?_⟩
    intro hZero
    exact ⟨⟨hEmpty, hKeeps.sound⟩, hAudit.mp hZero⟩

/-
  A second one-shot task takes the slot of the first one, which the snapshot still lists; and a
  task that sleeps for all ticks but one at tick 1 gets the wake tick 0.
-/
theorem audit_complains :
    (∃ m, run SchedulerMachine.operate (SchedulerMachine.booted 0)
          [.createOneshotKernelTask 0x101000 (stackAt 0), .runPending,
            .createOneshotKernelTask 0x102000 (stackAt 1)] =
        some m ∧
        schedulerAuditIssues m.scheduler = [.readyQueueTaskIdMismatch] ∧
        schedulerAudit m.scheduler = 1) ∧
      ∃ m, run SchedulerMachine.operate (SchedulerMachine.booted 1)
            [.createKernelTask 1 0x101000 (stackAt 0), .sleepTask 1 0xFFFFFFFF] =
          some m ∧
          schedulerAuditIssues m.scheduler = [.sleepingTaskWithoutWakeTick] ∧
          schedulerAudit m.scheduler = 1 := by
  refine ⟨⟨_, rfl, ?_, ?_⟩, ⟨_, rfl, ?_, ?_⟩⟩
  all_goals decide +kernel

end LiamOS.I386
