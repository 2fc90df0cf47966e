import LiamOS.I386.Process.Current

/-
  What a process finds in its memory when it is started.

  The code page is cleared and filled by each load. The stack page is cleared once, at boot, so a
  process finds there what earlier programs have written: two histories give a process the same
  memory exactly if they leave the same bytes in the stack page.

  Main declarations: `userMemory_eq_iff`, `stack_page_leaks`.
-/

namespace LiamOS.I386

open Word Transition

variable {files : ImageFiles} {k k' : ProcessKernel} {file : ImageFile}
variable {history : List ProcessEvent}

----------
-- The Stack Page

/- The pages user code can read and write. -/
def ProcessKernel.userMemory (k : ProcessKernel) : UserPage × UserPage := (k.codePage, k.stackPage)

def stackAfter (page : UserPage) : ProcessEvent → UserPage
| .write false offset byte => page.set offset.val byte
| _ => page

/- The bytes the programs of a history leave on the stack. -/
def stackLeft (events : List ProcessEvent) : UserPage := events.foldl stackAfter UserPage.zero

theorem begin_stackPage (files : ImageFiles) (k : ProcessKernel) (frame : RunFrame)
    (rest : List RunFrame) :
    (k.begin files frame rest).stackPage = k.stackPage := by
  rcases begin_cases files k frame rest with
    ⟨_, _, _, hBegin⟩ | ⟨_, ⟨_, hBegin⟩ | ⟨_, _, _, hBegin⟩⟩
  · simp [hBegin]
  · simp [hBegin, ProcessKernel.goto]
  · simp [hBegin]

theorem advance_stackPage (hStep : k.advance files = some k') : k'.stackPage = k.stackPage := by
  obtain ⟨frame, rest, hFrames, hAdvance⟩ := advance_cases hStep
  generalize hPhase : frame.phase = phase at hAdvance
  cases hAdvance with
  | called =>
    exact begin_stackPage files k frame rest
  | zeroing i =>
    unfold ProcessKernel.zeroByte
    split <;> rfl
  | copying i =>
    unfold ProcessKernel.copyByte
    split <;> rfl
  | current =>
    rcases enterUserMode_cases files k frame rest with ⟨_, hEnter⟩ | ⟨_, _, hEnter⟩
    · simp [hEnter, ProcessKernel.goto]
    · simp [hEnter, ProcessKernel.goto]
  | left =>
    obtain ⟨_, _, hLeave⟩ := leaveUserMode_cases k frame rest
    simp [hLeave, ProcessKernel.goto]
  | prepared | marked | returned | settled =>
    rfl

theorem step_stackPage {event : ProcessEvent} (hStep : k.step files event = some k') :
    k'.stackPage = stackAfter k.stackPage event := by
  cases event with
  | create entry userStack =>
    cases hStep
    rcases processCreate_cases k entry userStack with hSame | ⟨_, _, _, _, _, _, hCreate⟩
    · rw [hSame]
      rfl
    · rw [hCreate]
      rfl
  | configureImagePath slot path =>
    cases hStep
    rfl
  | clearExited =>
    cases hStep
    rfl
  | run slot =>
    cases hStep
    rfl
  | advance => exact advance_stackPage hStep
  | write inCode offset byte =>
    obtain ⟨_, _, _, _, _, hCases⟩ := write_cases hStep
    rcases hCases with ⟨rfl, rfl⟩ | ⟨rfl, rfl⟩
    · rfl
    · rfl
  | exit code =>
    obtain ⟨_, _, _, _, _, _, rfl⟩ := exit_cases hStep
    unfold processMarkExit
    cases k.currentProcess with
    | none => rfl
    | some slot => rfl

theorem stackPage_of_run {events : List ProcessEvent}
    (hRun : run (ProcessKernel.step files) k events = some k') :
    k'.stackPage = events.foldl stackAfter k.stackPage := by
  induction events generalizing k with
  | nil =>
    cases hRun
    rfl
  | cons event events ih =>
    cases hStep : k.step files event with
    | none => simp [run, hStep] at hRun
    | some next =>
      rw [run_cons_some hStep] at hRun
      rw [List.foldl_cons, ← step_stackPage hStep]
      exact ih hRun

----------
-- Starts

/- The step with which a process with this image starts. -/
structure Starts (files : ImageFiles) (k : ProcessKernel) (file : ImageFile)
    (k' : ProcessKernel) : Prop where
  step : k.step files .advance = some k'
  executing : k'.executing ≠ none
  image : ∃ frame rest, k.frames = frame :: rest ∧ frame.phase = .current ∧
        (k.table frame.slot).image files = some file

section

variable (hStarts : Starts files k file k')
variable (hRun : run (ProcessKernel.step files) ProcessKernel.booted history = some k)
include hStarts hRun

theorem Starts.stackPage_eq :
    k'.stackPage = stackLeft history :=
  (step_stackPage hStarts.step).trans (stackPage_of_run hRun)

/- A load that nothing disturbs leaves the image and zeros. -/
theorem Starts.codePage_eq
    (hUndisturbed :
      ∀ t ∈ steps (ProcessKernel.step files) ProcessKernel.booted history, Undisturbed t) :
    k'.codePage = file.page := by
  obtain ⟨frame, rest, hFrames, hPhase, hImage⟩ := hStarts.image
  have hCalm : Orderly k ∧ Calm files k := by
    refine @run_forall _ _ _ (fun k => Orderly k ∧ Calm files k) _ ?_ _ _
      ⟨orderly_booted, calm_booted files⟩ _ hRun hUndisturbed
    rintro t ⟨hOrderly, hCalm⟩ hStep hMeets
    exact ⟨step_orderly hOrderly hStep hCalm.startsAlone,
      step_calm_process hOrderly hCalm hStep hMeets⟩
  have hLoaded := hCalm.2.loaded frame rest hFrames
  simp only [Loaded, hPhase] at hLoaded
  have hStep := hStarts.step
  simp only [ProcessKernel.step, ProcessKernel.advance, hFrames, hPhase, Option.some.injEq] at hStep
  rw [← hStep]
  rcases enterUserMode_cases files k frame rest with ⟨_, hEnter⟩ | ⟨_, _, hEnter⟩
  · rw [hEnter]
    exact hLoaded file hImage
  · rw [hEnter]
    exact hLoaded file hImage

end

/- An undisturbed call does start its process. -/
theorem Startable.starts {slot : Fin 16} (hStartable : Startable files k slot file)
    (hEntry : file.entry ≠ 0) :
    Starts files (k.currentFor slot file) file (k.startedFor slot file) where
  step := step_started hStartable hEntry
  executing := by
    simp [ProcessKernel.executing, ProcessKernel.startedFor]
  image := by
    refine ⟨_, _, rfl, rfl, ?_⟩
    rw [← hStartable.image]
    refine UserProcess.image_congr ?_
    simp [ProcessKernel.currentFor]

theorem userMemory_eq {k₁ k₂ : ProcessKernel} :
    k₁.userMemory = k₂.userMemory ↔ k₁.codePage = k₂.codePage ∧ k₁.stackPage = k₂.stackPage :=
  Prod.mk.injEq _ _ _ _ ▸ Iff.rfl

----------
-- Another Program First

theorem startable_hello_first : Startable twoImages twoProcesses 1 helloImage where
  state := Or.inl (by decide +kernel)
  image := rfl
  check := rfl

theorem run_helloFirst :
    ∃ k, run (ProcessKernel.step twoImages) ProcessKernel.booted helloFirst = some k ∧
        Startable twoImages k 0 initImage ∧
        k.stackPage 0 = 0xAA := by
  have hStart := run_start startable_hello_first (by decide)
  unfold helloFirst
  rw [run_append_some run_createTwo, run_append_some hStart]
  exact ⟨_, rfl, ⟨Or.inl rfl, rfl, rfl⟩, rfl⟩

----------
-- Two Histories

/-
  Two processes with one image, started after two histories, find the same memory exactly if they
  find the same code page and the histories leave the same bytes on the stack. The code page is
  the same if no load was disturbed.
-/
theorem userMemory_eq_iff {files : ImageFiles} {history₁ history₂ : List ProcessEvent}
    {k₁ k₂ k₁' k₂' : ProcessKernel} {file₁ file₂ : ImageFile}
    (hRun₁ : run (ProcessKernel.step files) ProcessKernel.booted history₁ = some k₁)
    (hRun₂ : run (ProcessKernel.step files) ProcessKernel.booted history₂ = some k₂)
    (hStarts₁ : Starts files k₁ file₁ k₁') (hStarts₂ : Starts files k₂ file₂ k₂')
    (hSame : file₁.data = file₂.data) :
    (k₁'.userMemory = k₂'.userMemory ↔
      k₁'.codePage = k₂'.codePage ∧ stackLeft history₁ = stackLeft history₂) ∧
    ((∀ t ∈ steps (ProcessKernel.step files) ProcessKernel.booted history₁, Undisturbed t) →
      (∀ t ∈ steps (ProcessKernel.step files) ProcessKernel.booted history₂, Undisturbed t) →
      (k₁'.userMemory = k₂'.userMemory ↔ stackLeft history₁ = stackLeft history₂)) := by
  have hMemory : k₁'.userMemory = k₂'.userMemory ↔
        k₁'.codePage = k₂'.codePage ∧ stackLeft history₁ = stackLeft history₂ := by
    rw [userMemory_eq, hStarts₁.stackPage_eq hRun₁, hStarts₂.stackPage_eq hRun₂]
  refine ⟨hMemory, ?_⟩
  intro hUndisturbed₁ hUndisturbed₂
  have hCode : k₁'.codePage = k₂'.codePage := by
    rw [hStarts₁.codePage_eq hRun₁ hUndisturbed₁, hStarts₂.codePage_eq hRun₂ hUndisturbed₂]
    unfold ImageFile.page
    rw [hSame]
  rw [hMemory]
  exact and_iff_right hCode

/- Histories in which another program runs first or not. -/
theorem userMemory_eq_iff_helloFirst :
    ∃ k k', run (ProcessKernel.step twoImages) ProcessKernel.booted
          (helloFirst ++ startSteps 0 initImage.data.length) = some k ∧
        Starts twoImages k initImage k' ∧
        ((twoProcesses.startedFor 0 initImage).userMemory = k'.userMemory ↔
          (twoProcesses.startedFor 0 initImage).codePage = k'.codePage ∧
            stackLeft (createTwo ++ startSteps 0 initImage.data.length) =
              stackLeft (helloFirst ++ startSteps 0 initImage.data.length)) := by
  obtain ⟨k, hRun, hStartable, -⟩ := run_helloFirst
  have hCurrent :=
    (run_append_some hRun (startSteps 0 initImage.data.length)).trans (run_current hStartable)
  exact ⟨_, _, hCurrent, hStartable.starts (by decide),
    (userMemory_eq_iff run_initCurrent hCurrent (startable_init.starts (by decide))
      (hStartable.starts (by decide)) rfl).1⟩

/-
  `/sbin/init` finds a stack of zeros when it is started first, and the other program's byte when
  it is not.
-/
theorem stack_page_leaks : ∃ history₁ history₂ k₁ k₂ k₁' k₂',
      run (ProcessKernel.step twoImages) ProcessKernel.booted history₁ = some k₁ ∧
        run (ProcessKernel.step twoImages) ProcessKernel.booted history₂ = some k₂ ∧
        Starts twoImages k₁ initImage k₁' ∧
        Starts twoImages k₂ initImage k₂' ∧
        k₁'.userMemory ≠ k₂'.userMemory := by
  obtain ⟨k, hRun, hStartable, hByte⟩ := run_helloFirst
  refine ⟨_, helloFirst ++ startSteps 0 initImage.data.length, _, _, _, _, run_initCurrent, ?_,
    startable_init.starts (by decide),
    hStartable.starts (by decide), ?_⟩
  · rw [run_append_some hRun]
    exact run_current hStartable
  · intro hSame
    have hStack := congrFun (userMemory_eq.mp hSame).2 0
    have hLeft : (0 : UInt8) = 0xAA := hStack.trans hByte
    exact absurd hLeft (by decide)

end LiamOS.I386
