import LiamOS.I386.Process.Model

/-
  What the single steps of `process_run` and of user code do.

  Each lemma says everything its step can do: which slot of the process table changes and how, and
  at which place the innermost call goes on.
-/

namespace LiamOS.I386

open Word

variable {slot : Fin 16} {k k' : ProcessKernel}

def ProcessKernel.Running (k : ProcessKernel) (slot : Fin 16) : Prop :=
  (k.table slot).state = .running

----------
-- The Process Table

@[simp] theorem setProcess_table_self (k : ProcessKernel) (slot : Fin 16) (process : UserProcess) :
    (k.setProcess slot process).table slot = process := by
  simp [ProcessKernel.setProcess]

@[simp] theorem setProcess_table_ne {other : Fin 16} (hOther : other ≠ slot) (k : ProcessKernel)
    (process : UserProcess) :
    (k.setProcess slot process).table other = k.table other := by
  simp [ProcessKernel.setProcess, hOther]

theorem UserProcess.image_congr {files : ImageFiles} {p q : UserProcess}
    (hPath : p.imagePath = q.imagePath) :
    p.image files = q.image files := by
  simp [UserProcess.image, hPath]

theorem running_setProcess (k : ProcessKernel) (slot other : Fin 16) (process : UserProcess) :
    (k.setProcess slot process).Running other ↔
      (other = slot ∧ process.state = .running) ∨ (other ≠ slot ∧ k.Running other) := by
  by_cases hSlot : other = slot
  · subst hSlot
    simp [ProcessKernel.Running]
  · simp [ProcessKernel.Running, hSlot]

/- Another state that is not RUNNING either. -/
theorem running_setProcess_idle {k : ProcessKernel} {slot : Fin 16} {process : UserProcess}
    (hBefore : ¬ k.Running slot) (hAfter : process.state ≠ .running) (other : Fin 16) :
    (k.setProcess slot process).Running other ↔ k.Running other := by
  rw [running_setProcess]
  constructor
  · rintro (⟨-, hRunning⟩ | ⟨-, hRunning⟩)
    · exact absurd hRunning hAfter
    · exact hRunning
  · intro hRunning
    refine Or.inr ⟨?_, hRunning⟩
    rintro rfl
    exact hBefore hRunning

/- The process keeps its state. -/
theorem running_setProcess_same {process : UserProcess}
    (hState : process.state = (k.table slot).state) (other : Fin 16) :
    (k.setProcess slot process).Running other ↔ k.Running other := by
  rw [running_setProcess]
  by_cases hSlot : other = slot
  · subst hSlot
    simp [ProcessKernel.Running, hState]
  · simp [hSlot]

theorem running_clearExited (k : ProcessKernel) (slot : Fin 16) :
    (processClearExited k).2.Running slot ↔ k.Running slot := by
  have hTable :
      (processClearExited k).2.table slot = if (k.table slot).state.ended then resetProcess
        else k.table slot := rfl
  unfold ProcessKernel.Running
  rw [hTable]
  cases hState : (k.table slot).state <;>
    simp [UserProcessState.ended, resetProcess, hState]

theorem executing_eq_some {frame : RunFrame} {rest : List RunFrame} {page : UserPage} :
    k.executing = some (frame, rest, page) ↔
      k.frames = frame :: rest ∧ frame.phase = .user page := by
  unfold ProcessKernel.executing
  constructor
  · intro hSome
    split at hSome
    next => cases hSome
    next frame' rest' hFrames =>
        split at hSome
        next page' hPhase =>
            cases hSome
            exact ⟨hFrames, hPhase⟩
        next => cases hSome
  · rintro ⟨hFrames, hPhase⟩
    simp only [hFrames, hPhase]

/- A new process takes an unused slot and is ready. -/
theorem processCreate_cases (k : ProcessKernel) (entry userStack : Nat) :
    (processCreate k entry userStack).2 = k ∨
      ∃ slot process nextPid count, (k.table slot).state = .unused ∧ process.state = .ready ∧
          (processCreate k entry userStack).2 =
            { k.setProcess slot process with
              nextPid := nextPid
              processCount := count } := by
  unfold processCreate
  by_cases hNull : entry = 0 ∨ userStack = 0
  · rw [if_pos hNull]
    exact Or.inl rfl
  · rw [if_neg hNull]
    cases hFree : processFindFreeSlot k with
    | none => exact Or.inl rfl
    | some slot =>
      have hUnused := List.find?_some hFree
      simp only [beq_iff_eq] at hUnused
      exact Or.inr ⟨slot, _, _, _, hUnused, rfl, rfl⟩

theorem length_le_of_ring3LoadCheck {r : Ring3} {size : Nat}
    (hCheck : (ring3LoadCheck r size).1 = .ok) :
    size ≤ 4096 := by
  unfold ring3LoadCheck at hCheck
  split at hCheck
  next hLast => exact absurd hCheck hLast
  next =>
    split at hCheck
    next => cases hCheck
    next =>
      split at hCheck
      next => cases hCheck
      next hSize => exact Nat.le_of_not_lt (not_or.mp hSize).2

/-
  A call returns at once, with its process perhaps failed, or its process has no image to load, or
  it begins to load.
-/
theorem begin_cases (files : ImageFiles) (k : ProcessKernel) (frame : RunFrame)
    (rest : List RunFrame) :
    (∃ table ring3,
      (∀ slot, (table slot).state = .running ↔ k.Running slot) ∧ k.begin files frame rest =
          { k with
            table := table
            ring3 := ring3
            frames := rest }) ∨
    (((k.table frame.slot).state = .ready ∨ (k.table frame.slot).state = .exited) ∧
      (((k.table frame.slot).image files = none ∧
        k.begin files frame rest = k.goto frame rest .prepared) ∨
      ∃ file, (k.table frame.slot).image files = some file ∧ file.data.length ≤ 4096 ∧
          k.begin files frame rest =
            { k with
              frames :=
                { frame with
                  image := some file
                  phase := .zeroing 0 } :: rest })) := by
  have hFailed : ∀ status ring3, (k.table frame.slot).state ≠ .running →
        ∃ table ring3', (∀ slot, (table slot).state = .running ↔ k.Running slot) ∧
          { k with ring3 := ring3 }.loadFailed frame.slot status rest =
            { k with
              table := table
              ring3 := ring3'
              frames := rest } := by
    intro status ring3 hIdle
    have hAfter := @running_setProcess_idle k frame.slot
        { k.table frame.slot with
          lastStatus := status
          state := .failed } hIdle (by simp)
    exact ⟨_, _, hAfter, rfl⟩
  unfold ProcessKernel.begin
  by_cases hState : (k.table frame.slot).state ≠ .ready ∧ (k.table frame.slot).state ≠ .exited
  · simp only [if_pos hState]
    exact Or.inl ⟨k.table, k.ring3, fun _ => Iff.rfl, rfl⟩
  simp only [if_neg hState]
  have hStartable : (k.table frame.slot).state = .ready ∨ (k.table frame.slot).state = .exited := by
    by_contra hNot
    exact hState (not_or.mp hNot)
  have hIdle : (k.table frame.slot).state ≠ .running := by rcases hStartable with h | h <;> simp [h]
  by_cases hPath : (k.table frame.slot).imagePath = []
  · rw [if_pos hPath]
    exact Or.inr ⟨hStartable, Or.inl ⟨by simp [UserProcess.image, hPath], rfl⟩⟩
  rw [if_neg hPath]
  cases hFile : files (k.table frame.slot).imagePath with
  | error status => exact Or.inl (hFailed status k.ring3 hIdle)
  | ok file =>
    have hImage : (k.table frame.slot).image files = some file := by
      simp [UserProcess.image, hPath, hFile, Except.toOption]
    dsimp only
    rcases hCheck : ring3LoadCheck k.ring3 file.data.length with ⟨status, ring3⟩
    by_cases hOk : status = .ok
    · subst hOk
      have hSize : file.data.length ≤ 4096 := length_le_of_ring3LoadCheck (by rw [hCheck])
      exact Or.inr ⟨hStartable, Or.inr ⟨file, hImage, hSize, rfl⟩⟩
    · have hDropped := hFailed status ring3 hIdle
      refine Or.inl ?_
      cases status
      case ok => exact absurd rfl hOk
      all_goals exact hDropped

/- Behind its last byte the image has its entry set. -/
theorem copyByte_done {file : ImageFile} {i : Nat} (hDone : ¬ i < file.data.length)
    (frame : RunFrame) (rest : List RunFrame) :
    ∃ process ring3, process.state = (k.table frame.slot).state ∧
        process.imagePath = (k.table frame.slot).imagePath ∧
        k.copyByte frame rest file i =
          { k.setProcess frame.slot process with
            ring3 := ring3 }.goto frame rest .prepared := by
  unfold ProcessKernel.copyByte
  rw [if_neg hDone]
  refine ⟨_, _, ?_, ?_, rfl⟩
  · rfl
  · rfl

theorem enterUserMode_cases (files : ImageFiles) (k : ProcessKernel) (frame : RunFrame)
    (rest : List RunFrame) :
    (∃ ring3, k.enterUserMode files frame rest =
        { k with
          ring3 := ring3
          savedKernel := some rest.length }.goto frame rest
            (.user ((k.table frame.slot).expected files k.codePage))) ∨
    ∃ status ring3, k.enterUserMode files frame rest = { k with ring3 := ring3 }.goto frame rest
          (.returned status) := by
  unfold ProcessKernel.enterUserMode
  rcases ring3RunCheck k.ring3 (k.table frame.slot).entry
    (k.table frame.slot).userStack with ⟨status, ring3⟩
  cases status
  case ok => exact Or.inl ⟨_, rfl⟩
  all_goals exact Or.inr ⟨_, _, rfl⟩

theorem leaveUserMode_cases (k : ProcessKernel) (frame : RunFrame) (rest : List RunFrame) :
    ∃ status ring3, k.leaveUserMode frame rest = { k with ring3 := ring3 }.goto frame rest
          (.returned status) := by
  unfold ProcessKernel.leaveUserMode
  split <;> exact ⟨_, _, rfl⟩

theorem not_running_ended (process : UserProcess) (status : KernelStatus) :
    (process.ended status).state ≠ .running := by
  unfold UserProcess.ended
  split
  next => split <;> simp
  next hIdle => exact hIdle

/- The EXIT system call ends the current process. -/
theorem exit_cases {code : Int} (hExit : k.exit code = some k') :
    ∃ frame rest page ring3, k.frames = frame :: rest ∧ frame.phase = .user page ∧
        k' = { processMarkExit k code with ring3 := ring3 }.goto frame rest .left := by
  unfold ProcessKernel.exit at hExit
  cases hExecuting : k.executing with
  | none => simp [hExecuting] at hExit
  | some found =>
    rcases found with ⟨frame, rest, page⟩
    rw [executing_eq_some] at hExecuting
    simp only [executing_eq_some.mpr hExecuting] at hExit
    split at hExit
    next => cases hExit
    next =>
      split at hExit
      next => cases hExit
      next =>
        exact ⟨frame, rest, page, _, hExecuting.1, hExecuting.2, (Option.some.inj hExit).symm⟩

theorem write_cases {inCode : Bool} {offset : Fin 4096} {byte : UInt8}
    (hWrite : k.write inCode offset byte = some k') :
    ∃ frame rest page, k.frames = frame :: rest ∧ frame.phase = .user page ∧
        ((inCode = true ∧ k' = { k with codePage := k.codePage.set offset.val byte }.goto frame rest
                  (.user (page.set offset.val byte))) ∨
        (inCode = false ∧ k' = { k with stackPage := k.stackPage.set offset.val byte })) := by
  unfold ProcessKernel.write at hWrite
  cases hExecuting : k.executing with
  | none => simp [hExecuting] at hWrite
  | some found =>
    rcases found with ⟨frame, rest, page⟩
    rw [executing_eq_some] at hExecuting
    simp only [executing_eq_some.mpr hExecuting] at hWrite
    refine ⟨frame, rest, page, hExecuting.1, hExecuting.2, ?_⟩
    cases inCode with
    | true => exact Or.inl ⟨rfl, (Option.some.inj hWrite).symm⟩
    | false => exact Or.inr ⟨rfl, (Option.some.inj hWrite).symm⟩

----------
-- Steps Of The Innermost Call

/- What the innermost call does next, one case for each phase. -/
inductive Advance (files : ImageFiles) (k : ProcessKernel) (frame : RunFrame)
    (rest : List RunFrame) : RunPhase → ProcessKernel → Prop
| called : Advance files k frame rest .called (k.begin files frame rest)
| zeroing (i : Nat) : Advance files k frame rest (.zeroing i) (k.zeroByte frame rest i)
| copying (i : Nat) :
    Advance files k frame rest (.copying i) (k.copyByte frame rest (frame.image.getD ⟨[], 0⟩) i)
| prepared : Advance files k frame rest .prepared (k.markRunning frame rest)
| marked : Advance files k frame rest .marked
    ({ k with currentProcess := some frame.slot }.goto frame rest .current)
| current : Advance files k frame rest .current (k.enterUserMode files frame rest)
| left : Advance files k frame rest .left (k.leaveUserMode frame rest)
| returned (status : KernelStatus) : Advance files k frame rest (.returned status)
    ((k.setProcess frame.slot ((k.table frame.slot).ended status)).goto frame rest .settled)
| settled : Advance files k frame rest .settled { k with currentProcess := none, frames := rest }

theorem advance_cases {files : ImageFiles} (hStep : k.advance files = some k') :
    ∃ frame rest, k.frames = frame :: rest ∧ Advance files k frame rest frame.phase k' := by
  unfold ProcessKernel.advance at hStep
  split at hStep
  next => cases hStep
  next frame rest hFrames =>
    refine ⟨frame, rest, hFrames, ?_⟩
    cases hPhase : frame.phase <;> rw [hPhase] at hStep <;> cases hStep <;> constructor

end LiamOS.I386
