import LiamOS.I386.Scheduler.Audit

/-
  Audits after a repair of the scheduler, for tables with any contents.

  A repair that finds anything to do cannot be told from one that does not: the audit at its end
  clears the count of repairs it has just recorded. A stack top without a stack is an issue for
  the audit and not for the repair of a task that is done.

  Main declarations: `repairLaw_iff`.
-/

namespace LiamOS.I386

open Word

variable {task : SchedulerTask} {s : Scheduler}

----------
-- Blocks of the Heap

/- The block that `scheduler_free_kernel_stack` hands to `kfree`. -/
def SchedulerTask.stackBlock (task : SchedulerTask) : List Nat :=
  if task.kernelStackBase = 0 then [] else [task.kernelStackBase]

/- Free blocks one after another. The assertion in front of `kfree` wants each of them in use. -/
def freeBlocks : List Nat → List Nat → Option (List Nat)
| live, [] => some live
| live, block :: blocks => if block ∈ live then freeBlocks (live.erase block) blocks else none

----------
-- The Repair

/- What audits and repairs record, with one entry of `found` for each issue counted. -/
structure SchedulerAuditInfo where
  auditsRun : Nat
  repairsRun : Nat
  issuesRepaired : Nat
  found : List AuditIssue
deriving DecidableEq, Repr

def schedulerClearAuditInfo (_ : SchedulerAuditInfo) : SchedulerAuditInfo where
  auditsRun := 0
  repairsRun := 0
  issuesRepaired := 0
  found := []

def schedulerAuditUnlocked (s : Scheduler) (info : SchedulerAuditInfo) : SchedulerAuditInfo :=
  { schedulerClearAuditInfo info with
    auditsRun := 1
    found := schedulerAuditIssues s }

/- The scheduler with its audit info and the heap blocks in use. -/
structure AuditedScheduler where
  scheduler : Scheduler
  info : SchedulerAuditInfo
  live : List Nat

/- A task that should run and cannot. -/
def SchedulerTask.broken (task : SchedulerTask) : Bool :=
  task.state.live && (task.entry == 0 || task.kernelStackBase == 0 || task.kernelStackTop == 0)

/- The repairs that the loop counts for a task. -/
def schedulerRepairCount (task : SchedulerTask) : Nat :=
  if !task.used then
    if task.kernelStackBase != 0 then 1 else 0
  else if !schedulerTaskStateIsValid task.state then 1
  else if task.broken then 1
  else
    (if task.state == .sleeping && task.wakeTick == 0 then 1 else 0) +
      if task.state.inactive && task.kernelStackBase != 0 then 1 else 0

/- The blocks that the loop frees for a task. -/
def schedulerRepairFreed (task : SchedulerTask) : List Nat :=
  if !task.used || !schedulerTaskStateIsValid task.state || task.broken || task.state.inactive then
    task.stackBlock
  else []

def schedulerRepairPointer (pointer : Option Nat) : Nat :=
  if schedulerPointerPointsToTaskTable pointer then 0 else 1

/- The number of repairs. There is no result if an assertion fails. -/
def schedulerRepairUnlocked (a : AuditedScheduler) : Option (Nat × AuditedScheduler) :=
  let tasks := (List.range schedulerMaxTasks).map a.scheduler.tasks
  let repaired := (tasks.map schedulerRepairCount).sum +
    schedulerRepairPointer a.scheduler.currentRunningTask +
    schedulerRepairPointer a.scheduler.currentSwitchedTask
  let info :=
    { a.info with
      repairsRun := u32 (a.info.repairsRun + 1)
      issuesRepaired := u32 (a.info.issuesRepaired + repaired) }
  match freeBlocks a.live (tasks.flatMap schedulerRepairFreed) with
  | none => none
  | some live =>
    some (repaired, ⟨schedulerRepair a.scheduler,
      schedulerAuditUnlocked (schedulerRepair a.scheduler) info, live⟩)

/-
  The repair ends, an audit behind it finds nothing, a second repair has nothing to do, and the
  audit info has the number of repairs.
-/
def RepairLaw (a : AuditedScheduler) : Prop :=
  ∃ repaired a', schedulerRepairUnlocked a = some (repaired, a') ∧
    schedulerAudit a'.scheduler = 0 ∧
    (∃ a'', schedulerRepairUnlocked a' = some (0, a'')) ∧
    a'.info.issuesRepaired = repaired

----------
-- Tasks in Order

/- A task that a repair has nothing to do about, and the audit nothing to say. -/
structure SchedulerTask.InOrder (task : SchedulerTask) : Prop where
  unused : task.used = false → task.kernelStackBase = 0
  used : task.used = true → task.Sound ∧ task.Wakes

theorem schedulerFreeKernelStack_of_none (hBase : task.kernelStackBase = 0) :
    schedulerFreeKernelStack task = task :=
  if_pos hBase

/- What a repair that counts nothing has seen. -/
theorem schedulerRepairCount_eq_zero_iff (hUsed : task.used = true) :
    schedulerRepairCount task = 0 ↔ schedulerTaskStateIsValid task.state = true ∧
        task.broken = false ∧ (task.state = .sleeping → task.wakeTick ≠ 0) ∧
        (task.state.inactive = true → task.kernelStackBase = 0) := by
  unfold schedulerRepairCount
  cases hValid : schedulerTaskStateIsValid task.state <;> cases hBroken : task.broken <;>
    simp [hUsed]

/- Such a repair leaves a used task as it is. -/
theorem schedulerRepairTask_of_count (hUsed : task.used = true)
    (hCount : schedulerRepairCount task = 0) :
    schedulerRepairTask task = task := by
  obtain ⟨hValid, hBroken, hWakes, hInactive⟩ := (schedulerRepairCount_eq_zero_iff hUsed).mp hCount
  have hAwake : (task.state == .sleeping && task.wakeTick == 0) = false := by
    simpa using hWakes
  unfold SchedulerTask.broken at hBroken
  unfold schedulerRepairTask
  simp only [hUsed, hValid, hBroken, hAwake, Bool.not_true, Bool.false_eq_true, if_false]
  split
  · next hDone => exact schedulerFreeKernelStack_of_none (hInactive hDone)
  · rfl

theorem schedulerRepairTask_unused (hUsed : task.used = false) (hBase : task.kernelStackBase = 0) :
    schedulerRepairTask task = { task with kernelStackTop := 0, kernelStackSize := 0 } := by
  have hNot : (!task.used) = true := by rw [hUsed]; rfl
  unfold schedulerRepairTask
  rw [if_pos hNot, schedulerFreeKernelStack_of_none hBase]

theorem SchedulerTask.InOrder.count (hOrder : task.InOrder) : schedulerRepairCount task = 0 := by
  cases hUsed : task.used with
  | false => simp [schedulerRepairCount, hUsed, hOrder.unused hUsed]
  | true =>
    obtain ⟨hSound, hWakes⟩ := hOrder.used hUsed
    refine (schedulerRepairCount_eq_zero_iff hUsed).mpr
      ⟨hSound.valid hUsed, ?_, hWakes hUsed, fun hDone => (hSound.inactive hUsed hDone).1⟩
    unfold SchedulerTask.broken
    cases hLive : task.state.live with
    | false => rfl
    | true =>
      obtain ⟨hBase, hTop, hEntry⟩ := hSound.live hUsed hLive
      simp [hBase, hTop, hEntry]

/- A task in order stays so under a repair, and the audit accepts it then. -/
theorem SchedulerTask.InOrder.repaired (hOrder : task.InOrder) :
    (schedulerRepairTask task).InOrder ∧ (schedulerRepairTask task).Sound ∧
      (schedulerRepairTask task).Wakes := by
  cases hUsed : task.used with
  | false =>
    have hBase := hOrder.unused hUsed
    rw [schedulerRepairTask_unused hUsed hBase]
    refine ⟨⟨fun _ => hBase, ?_⟩, ⟨fun _ => ⟨hBase, rfl⟩, ?_, ?_, ?_⟩, ?_⟩
    all_goals
      intro hIs
      rw [show task.used = true from hIs] at hUsed
      cases hUsed
  | true =>
    rw [schedulerRepairTask_of_count hUsed hOrder.count]
    exact ⟨hOrder, hOrder.used hUsed⟩

theorem SchedulerTask.InOrder.freed (hOrder : task.InOrder) : schedulerRepairFreed task = [] := by
  have hNone : task.kernelStackBase = 0 → schedulerRepairFreed task = [] := by
    intro hBase
    unfold schedulerRepairFreed SchedulerTask.stackBlock
    rw [if_pos hBase]
    split <;> rfl
  cases hUsed : task.used with
  | false => exact hNone (hOrder.unused hUsed)
  | true =>
    obtain ⟨hValid, hBroken, -, hInactive⟩ :=
      (schedulerRepairCount_eq_zero_iff hUsed).mp hOrder.count
    cases hDone : task.state.inactive with
    | false => simp [schedulerRepairFreed, hUsed, hValid, hBroken, hDone]
    | true => exact hNone (hInactive hDone)

/- A repair that counts nothing and satisfies the audit found the task in order. -/
theorem SchedulerTask.inOrder_of_repaired (hCount : schedulerRepairCount task = 0)
    (hSound : (schedulerRepairTask task).Sound) (hWakes : (schedulerRepairTask task).Wakes) :
    task.InOrder := by
  refine ⟨?_, ?_⟩
  · intro hUsed
    simpa [schedulerRepairCount, hUsed] using hCount
  · intro hUsed
    rw [schedulerRepairTask_of_count hUsed hCount] at hSound hWakes
    exact ⟨hSound, hWakes⟩

----------
-- Repairs

/- A scheduler whose tasks are in order and whose pointers point into the table. -/
structure Scheduler.InOrder (s : Scheduler) : Prop where
  tasks : ∀ slot, slot < schedulerMaxTasks → (s.tasks slot).InOrder
  running : schedulerPointerPointsToTaskTable s.currentRunningTask = true
  switched : schedulerPointerPointsToTaskTable s.currentSwitchedTask = true

theorem schedulerRepair_tasks {slot : Nat} (hSlot : slot < schedulerMaxTasks) :
    (schedulerRepair s).tasks slot = schedulerRepairTask (s.tasks slot) :=
  mapTasks_tasks s _ hSlot

theorem Scheduler.InOrder.repaired (hOrder : s.InOrder) :
    (schedulerRepair s).InOrder ∧ schedulerAudit (schedulerRepair s) = 0 := by
  have hRunning : (schedulerRepair s).currentRunningTask = s.currentRunningTask :=
    if_pos hOrder.running
  have hSwitched : (schedulerRepair s).currentSwitchedTask = s.currentSwitchedTask :=
    if_pos hOrder.switched
  refine ⟨⟨?_, by rw [hRunning]; exact hOrder.running, by rw [hSwitched]; exact hOrder.switched⟩, ?_⟩
  · intro slot hSlot
    rw [schedulerRepair_tasks hSlot]
    exact (hOrder.tasks slot hSlot).repaired.1
  · rw [schedulerAudit_eq_zero_iff, hRunning, hSwitched]
    refine ⟨?_, Nat.zero_le _, nofun, hOrder.running, hOrder.switched⟩
    intro slot hSlot
    rw [schedulerRepair_tasks hSlot]
    exact (hOrder.tasks slot hSlot).repaired.2

/- A scheduler in order gives a repair nothing to do. -/
theorem schedulerRepairUnlocked_of_inOrder {a : AuditedScheduler} (hOrder : a.scheduler.InOrder) :
    ∃ info, schedulerRepairUnlocked a =
        some (0, ⟨schedulerRepair a.scheduler, info, a.live⟩) ∧ info.issuesRepaired = 0 := by
  have hCounts : ((List.range schedulerMaxTasks).map a.scheduler.tasks).map schedulerRepairCount =
      List.replicate schedulerMaxTasks 0 := by
    rw [List.eq_replicate_iff]
    simp only [List.length_map, List.length_range, List.mem_map, List.mem_range, true_and]
    rintro _ ⟨_, ⟨slot, hSlot, rfl⟩, rfl⟩
    exact (hOrder.tasks slot hSlot).count
  have hFreed : ((List.range schedulerMaxTasks).map a.scheduler.tasks).flatMap
      schedulerRepairFreed = [] := by
    simp only [List.flatMap_eq_nil_iff, List.mem_map, List.mem_range]
    rintro _ ⟨slot, hSlot, rfl⟩
    exact (hOrder.tasks slot hSlot).freed
  unfold schedulerRepairUnlocked schedulerRepairPointer
  dsimp only
  rw [hCounts, hFreed, hOrder.running, hOrder.switched]
  exact ⟨_, rfl, rfl⟩

/-
  A repair does what it should exactly if there is nothing to repair: every task is in order and
  both task pointers point into the table.
-/
theorem repairLaw_iff (a : AuditedScheduler) : RepairLaw a ↔ a.scheduler.InOrder := by
  constructor
  · rintro ⟨repaired, a', hRepair, hAudit, -, hInfo⟩
    unfold schedulerRepairUnlocked at hRepair
    dsimp only at hRepair
    split at hRepair
    · cases hRepair
    · cases hRepair
      -- the audit at the end of the repair has cleared the count
      have hZero := hInfo.symm
      change _ = 0 at hZero
      rw [Nat.add_eq_zero_iff, Nat.add_eq_zero_iff, List.sum_eq_zero_iff] at hZero
      obtain ⟨⟨hCounts, hRunning⟩, hSwitched⟩ := hZero
      have hTasks := ((schedulerAudit_eq_zero_iff _).mp hAudit).1
      refine ⟨?_, by simpa [schedulerRepairPointer] using hRunning,
        by simpa [schedulerRepairPointer] using hSwitched⟩
      intro slot hSlot
      have hAfter := hTasks slot hSlot
      rw [schedulerRepair_tasks hSlot] at hAfter
      refine SchedulerTask.inOrder_of_repaired (hCounts _ ?_) hAfter.1 hAfter.2
      exact List.mem_map_of_mem (List.mem_map_of_mem (List.mem_range.mpr hSlot))
  · intro hOrder
    obtain ⟨info, hRepair, hInfo⟩ := schedulerRepairUnlocked_of_inOrder hOrder
    obtain ⟨hAgain, hAudit⟩ := hOrder.repaired
    obtain ⟨info', hSecond, -⟩ := @schedulerRepairUnlocked_of_inOrder
      ⟨schedulerRepair a.scheduler, info, a.live⟩ hAgain
    exact ⟨0, _, hRepair, hAudit, ⟨_, hSecond⟩, hInfo⟩

/- A table with one task in slot 0, whose stack is a block in use. -/
def oneTaskTable (task : SchedulerTask) : AuditedScheduler where
  scheduler := (SchedulerMachine.booted 0).scheduler.setTask 0 task
  info := ⟨0, 0, 0, []⟩
  live := [0xC1000010]

/-
  A repair that disables a task without an entry returns 1, and the audit info has no repair. A
  disabled task with a stack top and no stack is repaired by nobody.
-/
theorem repair_not_recorded :
    (∃ a, schedulerRepairUnlocked
          (oneTaskTable
            { clearedTask with
              used := true
              id := 1
              state := .active
              kernelStackBase := 0xC1000010
              kernelStackTop := 0xC1001010 }) =
        some (1, a) ∧
        schedulerAudit a.scheduler = 0 ∧
        a.info.issuesRepaired = 0) ∧
      ∃ a, schedulerRepairUnlocked
            (oneTaskTable
              { clearedTask with
                used := true
                id := 1
                state := .disabled
                kernelStackTop := 0xC1001010 }) =
          some (0, a) ∧
          schedulerAuditIssues a.scheduler = [.inactiveTaskWithStack] := by
  refine ⟨⟨_, rfl, ?_, ?_⟩, ⟨_, rfl, ?_⟩⟩
  all_goals decide +kernel

end LiamOS.I386
