import LiamOS.I386.Process.Operations

/-
  A start that nothing interrupts: from the call of `process_run` through both loops of the load
  to the first instruction of user code.

  Key definitions: `Startable`, `ProcessKernel.loadedFor`, `ProcessKernel.currentFor`,
  `ProcessKernel.startedFor`.
-/

namespace LiamOS.I386

open Word Transition

variable {files : ImageFiles}
variable {k : ProcessKernel}
variable {frame : RunFrame}
variable {rest : List RunFrame}
variable {file : ImageFile} {slot : Fin 16}

----------
-- The Loops of the Load

/- `ring3_zero_page` from byte `i` on. -/
theorem run_zeroing {i n : Nat} (hFrames : k.frames = { frame with phase := .zeroing i } :: rest)
    (hZero : ∀ o : Fin 4096, o.val < i → k.codePage o = 0) (hLength : i + n = 4096) :
    run (ProcessKernel.step files) k (List.replicate (n + 1) .advance) =
      some ({ k with codePage := UserPage.zero }.goto frame rest (.copying 0)) := by
  induction n generalizing k i with
  | zero =>
    have hStep : k.step files .advance = some (k.goto frame rest (.copying 0)) := by
      simp [ProcessKernel.step, ProcessKernel.advance, hFrames,
        ProcessKernel.zeroByte, ring3UserPageSize, ProcessKernel.goto, show ¬ i < 4096 by omega]
    have hPage : k.codePage = UserPage.zero := by
      funext o
      exact hZero o (by omega)
    rw [List.replicate_succ, run_cons_some hStep, ← hPage]
    rfl
  | succ n ih =>
    have hStep : k.step files .advance = some
            ({ k with codePage := k.codePage.set i 0 }.goto frame rest (.zeroing (i + 1))) := by
      simp [ProcessKernel.step, ProcessKernel.advance, hFrames,
        ProcessKernel.zeroByte, ring3UserPageSize, ProcessKernel.goto, show i < 4096 by omega]
    have hNext : ∀ o : Fin 4096, o.val < i + 1 → k.codePage.set i 0 o = 0 := by
      intro o hLess
      unfold UserPage.set
      split
      next => rfl
      next hNe => exact hZero o (by omega)
    rw [List.replicate_succ, run_cons_some hStep]
    exact ih rfl hNext (by omega)

/- What the load leaves behind. -/
def ProcessKernel.loadedFor (k : ProcessKernel) (frame : RunFrame) (rest : List RunFrame)
    (file : ImageFile) : ProcessKernel :=
  { k.setProcess frame.slot
      { k.table frame.slot with
        entry := file.entry
        userStack := ring3UserStackTop } with
    ring3 := { k.ring3 with lastStatus := .ok }
    codePage := file.page }.goto frame rest .prepared

/- The loop over the image from byte `i` on. -/
theorem run_copying {i n : Nat} (hFrames : k.frames = { frame with phase := .copying i } :: rest)
    (hImage : frame.image = some file)
    (hCopied : ∀ o : Fin 4096, k.codePage o = if o.val < i then file.data.getD o.val 0 else 0)
    (hLength : i + n = file.data.length) :
    run (ProcessKernel.step files) k (List.replicate (n + 1) .advance) =
      some (k.loadedFor frame rest file) := by
  induction n generalizing k i with
  | zero =>
    have hStep : k.step files .advance = some
            ({ k.setProcess frame.slot
                { k.table frame.slot with
                  entry := file.entry
                  userStack := ring3UserStackTop } with
              ring3 := { k.ring3 with lastStatus := .ok } }.goto frame rest .prepared) := by
      simp [ProcessKernel.step, ProcessKernel.advance, hFrames,
        hImage, ProcessKernel.copyByte, ProcessKernel.goto,
        show ¬ i < file.data.length by omega]
    have hPage : k.codePage = file.page := by
      funext o
      rw [hCopied o]
      unfold ImageFile.page
      split
      next => rfl
      next hNot =>
        rw [List.getD_eq_default _ _ (by omega)]
    rw [List.replicate_succ, run_cons_some hStep]
    unfold ProcessKernel.loadedFor
    rw [← hPage]
    rfl
  | succ n ih =>
    have hStep : k.step files .advance = some
            ({ k with
              codePage :=
                k.codePage.set i (file.data.getD i 0) }.goto frame rest (.copying (i + 1))) := by
      simp [ProcessKernel.step, ProcessKernel.advance, hFrames,
        hImage, ProcessKernel.copyByte, ProcessKernel.goto,
        show i < file.data.length by omega]
    have hNext : ∀ o : Fin 4096,
          k.codePage.set i (file.data.getD i 0) o = if o.val < i + 1 then file.data.getD o.val 0
            else 0 := by
      intro o
      unfold UserPage.set
      by_cases hHere : o.val = i
      · rw [if_pos hHere, if_pos (by omega), hHere]
      · rw [if_neg hHere, hCopied o]
        by_cases hBefore : o.val < i
        · rw [if_pos hBefore, if_pos (by omega)]
        · rw [if_neg hBefore, if_neg (by omega)]
    rw [List.replicate_succ, run_cons_some hStep]
    exact ih rfl hNext (by omega)

----------
-- The Whole Start

/- The process can be started and its image loaded. -/
structure Startable (files : ImageFiles) (k : ProcessKernel) (slot : Fin 16)
    (file : ImageFile) : Prop where
  state : (k.table slot).state = .ready ∨ (k.table slot).state = .exited
  image : (k.table slot).image files = some file
  check : ring3LoadCheck k.ring3 file.data.length = (.ok, k.ring3)

/- The steps of a load of so many bytes. -/
def loadSteps (size : Nat) : List ProcessEvent :=
  .advance :: (List.replicate 4097 .advance ++ List.replicate (size + 1) .advance)

theorem run_load (hStartable : Startable files k slot file) :
    run (ProcessKernel.step files) k (.run slot :: loadSteps file.data.length) =
      some (k.loadedFor ⟨slot, some file, .called⟩ k.frames file) := by
  have hPath : (k.table slot).imagePath ≠ [] := by
    intro hNil
    have hImage := hStartable.image
    simp [UserProcess.image, hNil] at hImage
  have hFile : files (k.table slot).imagePath = .ok file := by
    have hImage := hStartable.image
    unfold UserProcess.image at hImage
    rw [if_neg hPath] at hImage
    cases hFound : files (k.table slot).imagePath with
    | error status => simp [hFound, Except.toOption] at hImage
    | ok found =>
      simp only [hFound, Except.toOption, Option.some.injEq] at hImage
      rw [hImage]
  have hState : ¬ ((k.table slot).state ≠ .ready ∧ (k.table slot).state ≠ .exited) := by
    rintro ⟨hReady, hExited⟩
    exact hStartable.state.elim hReady hExited
  have hCall : ProcessKernel.step files k (.run slot) = some
          { k with frames := ⟨slot, none, .called⟩ :: k.frames } := rfl
  have hBegin :
      ProcessKernel.step files { k with frames := ⟨slot, none, .called⟩ :: k.frames } .advance =
        some { k with frames := ⟨slot, some file, .zeroing 0⟩ :: k.frames } := by
    simp only [ProcessKernel.step, ProcessKernel.advance, ProcessKernel.begin]
    rw [if_neg hState, if_neg hPath, hFile]
    simp only [hStartable.check]
  have hZeroed := @run_zeroing files { k with frames := ⟨slot, some file, .zeroing 0⟩ :: k.frames }
      ⟨slot, some file, .called⟩ k.frames 0 4096 rfl (by simp)
      rfl
  have hCopied := @run_copying files
      ({ k with
        codePage := UserPage.zero
        frames := ⟨slot, some file, .zeroing 0⟩ :: k.frames }.goto
            ⟨slot, some file, .called⟩ k.frames (.copying 0))
      ⟨slot, some file, .called⟩ k.frames file 0
      file.data.length rfl rfl (fun _ => rfl) (Nat.zero_add _)
  unfold loadSteps
  rw [run_cons_some hCall, run_cons_some hBegin, run_append_some hZeroed]
  exact hCopied

/- The process is RUNNING and the current one. -/
def ProcessKernel.currentFor (k : ProcessKernel) (slot : Fin 16)
    (file : ImageFile) : ProcessKernel :=
  { k.setProcess slot
      { k.table slot with
        state := .running
        entry := file.entry
        userStack := ring3UserStackTop
        exitCode := 0
        lastStatus := .ok
        runs := u32 ((k.table slot).runs + 1) } with
    currentProcess := some slot
    ring3 := { k.ring3 with lastStatus := .ok }
    codePage := file.page
    frames := ⟨slot, some file, .current⟩ :: k.frames }

/- The state in which user code takes its first step. -/
def ProcessKernel.startedFor (k : ProcessKernel) (slot : Fin 16)
    (file : ImageFile) : ProcessKernel :=
  { k.currentFor slot file with
    ring3 :=
      { k.ring3 with
        inProgress := true
        completed := false
        lastStatus := .ok }
    frames := ⟨slot, some file, .user file.page⟩ :: k.frames
    savedKernel := some k.frames.length }

/- The steps up to the change to user mode. -/
def startSteps (slot : Fin 16) (size : Nat) : List ProcessEvent :=
  (.run slot :: loadSteps size) ++ [.advance, .advance]

theorem run_current (hStartable : Startable files k slot file) :
    run (ProcessKernel.step files) k (startSteps slot file.data.length) =
      some (k.currentFor slot file) := by
  unfold startSteps
  rw [run_append_some (run_load hStartable)]
  simp [run, ProcessKernel.step, ProcessKernel.advance, ProcessKernel.loadedFor, ProcessKernel.goto,
    ProcessKernel.markRunning, ProcessKernel.setProcess, ProcessKernel.currentFor]

theorem ring3_ready_of_check {r : Ring3} {size : Nat} (hCheck : ring3LoadCheck r size = (.ok, r)) :
    r.ready = true := by
  unfold ring3LoadCheck at hCheck
  split at hCheck
  next hLast =>
    exact absurd (congrArg Prod.fst hCheck) hLast
  next =>
    split at hCheck
    next => cases hCheck
    next hReady => simpa using hReady

theorem step_started (hStartable : Startable files k slot file) (hEntry : file.entry ≠ 0) :
    (k.currentFor slot file).step files .advance = some (k.startedFor slot file) := by
  have hReady := ring3_ready_of_check hStartable.check
  have hImage := hStartable.image
  unfold UserProcess.image at hImage
  simp [ProcessKernel.step, ProcessKernel.advance,
    ProcessKernel.currentFor, ProcessKernel.setProcess,
    ProcessKernel.enterUserMode, ring3RunCheck, hReady, hEntry,
    ring3UserStackTop, ring3UserStackVirtual, ring3UserPageSize,
    UserProcess.expected, UserProcess.image, hImage, ProcessKernel.startedFor, ProcessKernel.goto]

theorem run_start (hStartable : Startable files k slot file) (hEntry : file.entry ≠ 0) :
    run (ProcessKernel.step files) k (startSteps slot file.data.length ++ [.advance]) =
      some (k.startedFor slot file) := by
  rw [run_append_some (run_current hStartable), run_cons_some (step_started hStartable hEntry)]
  rfl

end LiamOS.I386
