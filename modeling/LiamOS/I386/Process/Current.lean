import LiamOS.I386.Process.Start
import LiamOS.I386.Process.Calm

/-
  The current process along runs in which shell commands interrupt a process.

  The law holds along a run exactly if every process is started alone and over its image. It does
  hold if calls come only while no process is RUNNING and no image is being loaded. It does not
  hold in general: a keyboard interrupt can run a second process inside the first.

  Main declarations: `currentProcessLaw_iff`, `exec_breaks_current_process`.
-/

namespace LiamOS.I386

open Word Transition

----------
-- The Law along Runs

/-
  Along every run the law holds exactly if every process is started alone and over its image, and
  calls that are not disturbed are enough for that.
-/
theorem currentProcessLaw_iff (files : ImageFiles) (events : List ProcessEvent) :
    ((∀ t ∈ steps (ProcessKernel.step files) ProcessKernel.booted events, CurrentProcessLaw t) ↔
      ∀ t ∈ steps (ProcessKernel.step files) ProcessKernel.booted events, StartsAlone files t) ∧
    ((∀ t ∈ steps (ProcessKernel.step files) ProcessKernel.booted events, Undisturbed t) →
      ∀ t ∈ steps (ProcessKernel.step files) ProcessKernel.booted events, CurrentProcessLaw t) := by
  have hLaw : ∀ t : Taken ProcessKernel ProcessEvent, Orderly t.before →
        t.before.step files t.label = some t.after →
        StartsAlone files t → CurrentProcessLaw t ∧ Orderly t.after := by
    intro t hBefore hStep hAlone
    have hAfter := step_orderly hBefore hStep hAlone
    exact ⟨currentProcessLaw_of_orderly hBefore hStep hAfter, hAfter⟩
  refine ⟨@steps_iff _ _ _ Orderly _ _ ?_ _ orderly_booted events, ?_⟩
  · intro t hBefore hStep
    refine ⟨⟨startsAlone_of_law hStep, ?_⟩, ?_⟩
    · intro hAlone
      exact (hLaw t hBefore hStep hAlone).1
    · intro hHolds
      exact (hLaw t hBefore hStep (startsAlone_of_law hStep hHolds)).2
  · refine @steps_forall _ _ _ (fun k => Orderly k ∧ Calm files k) _ _ ?_ _
      ⟨orderly_booted, calm_booted files⟩ events
    rintro t ⟨hOrderly, hCalm⟩ hStep hUndisturbed
    obtain ⟨hHolds, hAfter⟩ := hLaw t hOrderly hStep hCalm.startsAlone
    exact ⟨hHolds, hAfter, step_calm_process hOrderly hCalm hStep hUndisturbed⟩

----------
-- A Shell Command While a Process Runs

def initPath : List UInt8 := [47, 115, 98, 105, 110, 47, 105, 110, 105, 116]

def helloPath : List UInt8 := [47, 98, 105, 110, 47, 104, 101, 108, 108, 111]

def initImage : ImageFile := ⟨[0xEB, 0xFE], ring3UserCodeVirtual⟩

def helloImage : ImageFile := ⟨[0xCD, 0x80], ring3UserCodeVirtual⟩

def twoImages : ImageFiles := fun path =>
  if path = initPath then .ok initImage
  else if path = helloPath then .ok helloImage
  else .error .notFound

def createTwo : List ProcessEvent :=
  [.create ring3UserCodeVirtual ring3UserStackVirtual, .configureImagePath 0 initPath,
    .create ring3UserCodeVirtual ring3UserStackVirtual,
    .configureImagePath 1 helloPath]

/- `/bin/hello` runs first and leaves a byte on its stack. -/
def helloFirst : List ProcessEvent := createTwo ++
    ((startSteps 1 helloImage.data.length ++ [.advance]) ++
      [.write false 0 0xAA, .exit 0, .advance, .advance, .advance])

/- The two processes of this section, ready to run. -/
def twoProcesses : ProcessKernel := processConfigureImagePath
    (processCreate
      (processConfigureImagePath
        (processCreate ProcessKernel.booted ring3UserCodeVirtual ring3UserStackVirtual).2
        0 initPath)
      ring3UserCodeVirtual ring3UserStackVirtual).2
    1 helloPath

theorem run_createTwo :
    run (ProcessKernel.step twoImages) ProcessKernel.booted createTwo = some twoProcesses := rfl

theorem startable_init : Startable twoImages twoProcesses 0 initImage where
  state := Or.inl (by decide +kernel)
  image := rfl
  check := rfl

theorem startable_hello :
    Startable twoImages (twoProcesses.startedFor 0 initImage) 1 helloImage where
  state := Or.inl (by decide +kernel)
  image := rfl
  check := rfl

/- `/sbin/init` is in user mode when `exec` starts another. -/
def execWhileRunning : List ProcessEvent := createTwo ++
    ((startSteps 0 initImage.data.length ++ [.advance]) ++
      .run 1 :: loadSteps helloImage.data.length)

def helloLoaded : ProcessKernel :=
  (twoProcesses.startedFor 0 initImage).loadedFor ⟨1, some helloImage, .called⟩
    (twoProcesses.startedFor 0 initImage).frames helloImage

theorem run_execWhileRunning : run (ProcessKernel.step twoImages) ProcessKernel.booted
      execWhileRunning = some helloLoaded := by
  have hStart := run_start startable_init (by decide)
  unfold execWhileRunning
  rw [run_append_some run_createTwo, run_append_some hStart]
  exact run_load startable_hello

/- The same command just before `/sbin/init` is in user mode. -/
def execBeforeUserMode : List ProcessEvent := (createTwo ++ startSteps 0 initImage.data.length) ++
    ((startSteps 1 helloImage.data.length ++ [.advance]) ++
      [.exit 0, .advance, .advance, .advance, .advance])

theorem startable_hello_again :
    Startable twoImages (twoProcesses.currentFor 0 initImage) 1 helloImage where
  state := Or.inl (by decide +kernel)
  image := rfl
  check := rfl

theorem run_initCurrent : run (ProcessKernel.step twoImages) ProcessKernel.booted
        (createTwo ++ startSteps 0 initImage.data.length) =
      some (twoProcesses.currentFor 0 initImage) := by
  rw [run_append_some run_createTwo]
  exact run_current startable_init

/- The first process executes, over the other image and with no current process. -/
def InitLost (k : ProcessKernel) : Prop :=
  k.executing = some (⟨0, some initImage, .user initImage.page⟩, [], initImage.page) ∧
    (k.table 0).pid = 1 ∧
    processGetCurrentPid k = 0 ∧
    k.codePage = helloImage.page

theorem run_execBeforeUserMode : ∃ k, run (ProcessKernel.step twoImages) ProcessKernel.booted
        execBeforeUserMode = some k ∧ InitLost k := by
  have hStart := run_start startable_hello_again (by decide)
  unfold execBeforeUserMode
  rw [run_append_some run_initCurrent, run_append_some hStart]
  exact ⟨_, rfl, rfl, rfl, rfl, rfl⟩

/-
  In user mode a second process is marked RUNNING beside the first. Before it, the first then runs
  as nobody.
-/
theorem exec_breaks_current_process :
    (¬ ∀ t ∈ steps (ProcessKernel.step twoImages)
        ProcessKernel.booted (execWhileRunning ++ [.advance]),
      CurrentProcessLaw t) ∧
    ∃ k, run (ProcessKernel.step twoImages) ProcessKernel.booted
        execBeforeUserMode = some k ∧ InitLost k := by
  refine ⟨?_, run_execBeforeUserMode⟩
  intro hLaw
  have hMarked : helloLoaded.step twoImages .advance = some
          (helloLoaded.markRunning ⟨1, some helloImage, .prepared⟩
            (twoProcesses.startedFor 0 initImage).frames) := rfl
  have hOne := (hLaw _ (mem_steps_of_run run_execWhileRunning hMarked)).1
  have hSame : (0 : Fin 16) = 1 := hOne 0 1 rfl rfl
  exact absurd hSame (by decide)

end LiamOS.I386
