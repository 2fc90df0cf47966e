import LiamOS.I386.Process.Orderly

/-
  Calls of `process_run` that are not disturbed.

  If a call comes only while no process is RUNNING and no image is being loaded, all calls in
  progress but the innermost are at rest, and the load of the innermost fills the code page with
  its image byte by byte.

  Key definitions: `Loaded`, `Calm`.
-/

namespace LiamOS.I386

open Word Transition

variable {k' : ProcessKernel}
variable {files : ImageFiles} {k : ProcessKernel} {frame : RunFrame} {i : Nat}

----------
-- Calm Kernels

def RunPhase.Quiet (phase : RunPhase) : Prop := phase.loading = false ∧ phase.active = false

/- How far the image of the innermost call is loaded. -/
def Loaded (files : ImageFiles) (k : ProcessKernel) (frame : RunFrame) : Prop :=
  match frame.phase with
  | .zeroing i =>
    ∃ file, frame.image = some file ∧ (k.table frame.slot).image files = some file ∧
        ∀ o : Fin 4096, o.val < i → k.codePage o = 0
  | .copying i =>
    ∃ file, frame.image = some file ∧ (k.table frame.slot).image files = some file ∧
        ∀ o : Fin 4096, k.codePage o = if o.val < i then file.data.getD o.val 0 else 0
  | .prepared | .marked | .current =>
    ∀ file, (k.table frame.slot).image files = some file → k.codePage = file.page
  | _ => True

/-
  What holds as long as no call is disturbed: all calls but the innermost are outside of their
  load and run, so the process that is RUNNING and the code page are its own.
-/
structure Calm (files : ImageFiles) (k : ProcessKernel) : Prop where
  below : ∀ frame ∈ k.frames.tail, frame.phase.Quiet
  running : ∀ slot, k.Running slot → ∃ frame rest, k.frames = frame :: rest ∧ frame.slot = slot ∧
          (frame.phase.active = true ∨ ∃ status, frame.phase = .returned status)
  startable : ∀ frame rest, k.frames = frame :: rest → frame.phase.loading = true →
        (k.table frame.slot).state = .ready ∨ (k.table frame.slot).state = .exited
  loaded : ∀ frame rest, k.frames = frame :: rest → Loaded files k frame

theorem RunPhase.Quiet.loaded (hQuiet : frame.phase.Quiet) : Loaded files k frame := by
  obtain ⟨hLoading, hActive⟩ := hQuiet
  unfold Loaded
  cases hPhase : frame.phase <;>
    simp [hPhase, RunPhase.loading, RunPhase.active] at hLoading hActive ⊢

/- Nothing is RUNNING and no call is at work. -/
theorem calm_of_quiet (hNone : ∀ slot, ¬ k.Running slot)
    (hQuiet : ∀ frame ∈ k.frames, frame.phase.Quiet) :
    Calm files k where
  below frame hMember := hQuiet frame (List.mem_of_mem_tail hMember)
  running slot hRunning := absurd hRunning (hNone slot)
  startable frame rest hFrames hLoading := by
    have hHead := hQuiet frame (by simp [hFrames])
    simp [hHead.1] at hLoading
  loaded frame rest hFrames := (hQuiet frame (by simp [hFrames])).loaded

theorem calm_of_innermost {rest : List RunFrame} (hFrames : k.frames = frame :: rest)
    (hBelow : ∀ f ∈ rest, f.phase.Quiet)
    (hRunning : ∀ slot, k.Running slot →
        frame.slot = slot ∧ (frame.phase.active = true ∨ ∃ status, frame.phase = .returned status))
    (hStartable : frame.phase.loading = true →
        (k.table frame.slot).state = .ready ∨ (k.table frame.slot).state = .exited)
    (hLoaded : Loaded files k frame) :
    Calm files k where
  below := by
    rw [hFrames]
    exact hBelow
  running slot hRuns := ⟨frame, rest, hFrames, hRunning slot hRuns⟩
  startable f r hSame := by
    cases hFrames.symm.trans hSame
    exact hStartable
  loaded f r hSame := by
    cases hFrames.symm.trans hSame
    exact hLoaded

namespace Calm

variable {files : ImageFiles}
variable {k : ProcessKernel}
variable {frame : RunFrame}
variable {rest : List RunFrame}

section

variable (hCalm : Calm files k) (hFrames : k.frames = frame :: rest)
include hCalm hFrames

theorem rest_quiet :
    ∀ f ∈ rest, f.phase.Quiet := by
  have hBelow := hCalm.below
  rw [hFrames] at hBelow
  exact hBelow

theorem slot_of_running {slot : Fin 16} (hRunning : k.Running slot) :
    frame.slot = slot ∧ (frame.phase.active = true ∨ ∃ status, frame.phase = .returned status) := by
  obtain ⟨f, r, hSame, hFound⟩ := hCalm.running slot hRunning
  cases hFrames.symm.trans hSame
  exact hFound

/- No process is RUNNING while the call is elsewhere. -/
theorem none_running (hActive : frame.phase.active = false)
    (hReturned : ∀ status, frame.phase ≠ .returned status) (slot : Fin 16) :
    ¬ k.Running slot := by
  intro hRunning
  rcases (hCalm.slot_of_running hFrames hRunning).2 with hActs | ⟨status, hPhase⟩
  · simp [hActive] at hActs
  · exact hReturned status hPhase

end

/- Only the innermost call is at work. -/
theorem innermost (hCalm : Calm files k) (hMember : frame ∈ k.frames)
    (hBusy : ¬ frame.phase.Quiet) :
    ∃ rest, k.frames = frame :: rest := by
  cases hFrames : k.frames with
  | nil => simp [hFrames] at hMember
  | cons first rest =>
    rw [hFrames] at hMember
    rcases List.mem_cons.mp hMember with rfl | hBelow
    · exact ⟨rest, rfl⟩
    · exact absurd (hCalm.rest_quiet hFrames frame hBelow) hBusy

/- The processes of calls at work stay as they are. -/
theorem of_table (hCalm : Calm files k) (hFrames : k'.frames = k.frames)
    (hPage : k'.codePage = k.codePage) (hRunning : ∀ slot, k'.Running slot ↔ k.Running slot)
    (hTable : ∀ frame ∈ k.frames, ¬ frame.phase.Quiet → k'.table frame.slot = k.table frame.slot) :
    Calm files k' where
  below := by
    rw [hFrames]
    exact hCalm.below
  running slot hRuns := by
    rw [hFrames]
    exact hCalm.running slot ((hRunning slot).mp hRuns)
  startable f r hSame hLoading := by
    rw [hFrames] at hSame
    rw [hTable f (by simp [hSame]) (by simp [RunPhase.Quiet, hLoading])]
    exact hCalm.startable f r hSame hLoading
  loaded f r hSame := by
    rw [hFrames] at hSame
    by_cases hQuiet : f.phase.Quiet
    · exact hQuiet.loaded
    · have hLoaded := hCalm.loaded f r hSame
      unfold Loaded at hLoaded ⊢
      rw [hPage, hTable f (by simp [hSame]) hQuiet]
      exact hLoaded

----------
-- Calm Steps

section

variable (hCalm : Calm files k) (hFrames : k.frames = frame :: rest)
include hCalm hFrames

theorem begin (hPhase : frame.phase = .called) :
    Calm files (k.begin files frame rest) := by
  have hNone := hCalm.none_running hFrames (by simp [hPhase, RunPhase.active]) (by simp [hPhase])
  have hRest := hCalm.rest_quiet hFrames
  rcases begin_cases files k frame rest with ⟨table, ring3, hRunning, hBegin⟩ | ⟨hStartable, hBegin⟩
  · rw [hBegin]
    exact calm_of_quiet (fun slot hRuns => hNone slot ((hRunning slot).mp hRuns)) hRest
  · rcases hBegin with ⟨hImage, hBegin⟩ | ⟨file, hImage, -, hBegin⟩
    · rw [hBegin]
      refine calm_of_innermost rfl hRest (fun slot hRuns => absurd hRuns (hNone slot))
        (fun _ => hStartable) ?_
      intro file hFile
      exact absurd (hImage.symm.trans hFile) (by simp)
    · rw [hBegin]
      exact calm_of_innermost rfl hRest (fun slot hRuns => absurd hRuns (hNone slot))
        (fun _ => hStartable)
        ⟨file, rfl, hImage, fun o hLess => absurd hLess (by simp)⟩

theorem zeroByte (hPhase : frame.phase = .zeroing i) :
    Calm files (k.zeroByte frame rest i) := by
  have hNone := hCalm.none_running hFrames (by simp [hPhase, RunPhase.active]) (by simp [hPhase])
  have hRest := hCalm.rest_quiet hFrames
  have hStartable := hCalm.startable frame rest hFrames (by simp [hPhase, RunPhase.loading])
  have hLoaded := hCalm.loaded frame rest hFrames
  simp only [Loaded, hPhase] at hLoaded
  obtain ⟨file, hFile, hImage, hZero⟩ := hLoaded
  unfold ProcessKernel.zeroByte
  split
  next hMore =>
    refine calm_of_innermost rfl hRest (fun slot hRuns => absurd hRuns (hNone slot))
      (fun _ => hStartable) ⟨file, hFile, hImage, ?_⟩
    intro o hLess
    show (if o.val = i then 0 else k.codePage o) = 0
    split
    next => rfl
    next hNe => exact hZero o (by omega)
  next hDone =>
    refine calm_of_innermost rfl hRest (fun slot hRuns => absurd hRuns (hNone slot))
      (fun _ => hStartable) ⟨file, hFile, hImage, ?_⟩
    intro o
    have hFull : 4096 ≤ i := Nat.le_of_not_lt hDone
    simp only [Nat.not_lt_zero, if_false]
    exact hZero o (by omega)

theorem copyByte (hPhase : frame.phase = .copying i) :
    Calm files (k.copyByte frame rest (frame.image.getD ⟨[], 0⟩) i) := by
  have hNone := hCalm.none_running hFrames (by simp [hPhase, RunPhase.active]) (by simp [hPhase])
  have hRest := hCalm.rest_quiet hFrames
  have hStartable := hCalm.startable frame rest hFrames (by simp [hPhase, RunPhase.loading])
  have hLoaded := hCalm.loaded frame rest hFrames
  simp only [Loaded, hPhase] at hLoaded
  obtain ⟨file, hFile, hImage, hCopied⟩ := hLoaded
  rw [hFile]
  show Calm files (k.copyByte frame rest file i)
  by_cases hMore : i < file.data.length
  · unfold ProcessKernel.copyByte
    rw [if_pos hMore]
    refine calm_of_innermost rfl hRest (fun slot hRuns => absurd hRuns (hNone slot))
      (fun _ => hStartable) ⟨file, hFile, hImage, ?_⟩
    intro o
    show (if o.val = i then file.data.getD i 0 else k.codePage o) = _
    by_cases hHere : o.val = i
    · rw [if_pos hHere, if_pos (by omega), hHere]
    · rw [if_neg hHere, hCopied o]
      by_cases hBefore : o.val < i
      · rw [if_pos hBefore, if_pos (by omega)]
      · rw [if_neg hBefore, if_neg (by omega)]
  · obtain ⟨process, ring3, hState, hPath, hDone⟩ := copyByte_done hMore frame rest
    rw [hDone]
    have hTable := setProcess_table_self k frame.slot process
    refine calm_of_innermost rfl hRest ?_ ?_ ?_
    · intro slot hRuns
      exact absurd ((running_setProcess_same hState slot).mp hRuns) (hNone slot)
    · intro _
      rw [← hState, ← hTable] at hStartable
      exact hStartable
    · intro file' hFile'
      have hSame : file' = file := by
        refine Option.some.inj (hFile'.symm.trans ?_)
        refine Eq.trans ?_ hImage
        exact (congrArg (UserProcess.image files) hTable).trans (UserProcess.image_congr hPath)
      subst hSame
      funext o
      show k.codePage o = file'.data.getD o.val 0
      rw [hCopied o]
      by_cases hBefore : o.val < i
      · rw [if_pos hBefore]
      · rw [if_neg hBefore, List.getD_eq_default _ _ (by omega)]

theorem markRunning (hPhase : frame.phase = .prepared) :
    Calm files (k.markRunning frame rest) := by
  have hNone := hCalm.none_running hFrames (by simp [hPhase, RunPhase.active]) (by simp [hPhase])
  have hLoaded := hCalm.loaded frame rest hFrames
  simp only [Loaded, hPhase] at hLoaded
  refine calm_of_innermost rfl (hCalm.rest_quiet hFrames) ?_ ?_ ?_
  · intro slot hRuns
    rcases (running_setProcess k frame.slot slot _).mp hRuns with ⟨hSlot, -⟩ | ⟨-, hBefore⟩
    · exact ⟨hSlot.symm, Or.inl rfl⟩
    · exact absurd hBefore (hNone slot)
  · intro hLoading
    cases hLoading
  · intro file hImage
    refine hLoaded file (Eq.trans ?_ hImage)
    simp [ProcessKernel.markRunning, ProcessKernel.goto,
      ProcessKernel.setProcess, UserProcess.image]

theorem enterUserMode :
    Calm files (k.enterUserMode files frame rest) := by
  have hRest := hCalm.rest_quiet hFrames
  rcases enterUserMode_cases files k frame rest with ⟨ring3, hEnter⟩ | ⟨status, ring3, hEnter⟩
  · rw [hEnter]
    refine calm_of_innermost rfl hRest ?_ ?_ trivial
    · intro slot hRuns
      exact ⟨(hCalm.slot_of_running hFrames hRuns).1, Or.inl rfl⟩
    · intro hLoading
      cases hLoading
  · rw [hEnter]
    refine calm_of_innermost rfl hRest ?_ ?_ trivial
    · intro slot hRuns
      exact ⟨(hCalm.slot_of_running hFrames hRuns).1, Or.inr ⟨status, rfl⟩⟩
    · intro hLoading
      cases hLoading

end

theorem exit {code : Int} (hCalm : Calm files k) (hOrderly : Orderly k)
    (hExit : k.exit code = some k') :
    Calm files k' := by
  obtain ⟨frame, rest, page, ring3, hFrames, hPhase, rfl⟩ := exit_cases hExit
  have hCurrent := hOrderly.current frame (by simp [hFrames]) (by simp [hPhase, RunPhase.entered])
  refine calm_of_quiet ?_ (List.forall_mem_cons.mpr ⟨⟨rfl, rfl⟩, hCalm.rest_quiet hFrames⟩)
  intro slot hRunning
  have hAfter : (processMarkExit k code).Running slot := hRunning
  unfold processMarkExit at hAfter
  rw [hCurrent] at hAfter
  rcases (running_setProcess k frame.slot slot _).mp hAfter with ⟨-, hState⟩ | ⟨hOther, hBefore⟩
  · cases hState
  · exact hOther (hCalm.slot_of_running hFrames hBefore).1.symm

theorem write {inCode : Bool} {offset : Fin 4096} {byte : UInt8} (hCalm : Calm files k)
    (hWrite : k.write inCode offset byte = some k') :
    Calm files k' := by
  obtain ⟨frame, rest, page, hFrames, hPhase, hCases⟩ := write_cases hWrite
  rcases hCases with ⟨-, rfl⟩ | ⟨-, rfl⟩
  · refine calm_of_innermost rfl (hCalm.rest_quiet hFrames) ?_ ?_ trivial
    · intro slot hRuns
      exact ⟨(hCalm.slot_of_running hFrames hRuns).1, Or.inl rfl⟩
    · intro hLoading
      cases hLoading
  · exact hCalm.of_table rfl rfl (fun _ => Iff.rfl) fun _ _ _ => rfl

theorem advance (hCalm : Calm files k) (hStep : k.advance files = some k') : Calm files k' := by
  obtain ⟨frame, rest, hFrames, hAdvance⟩ := advance_cases hStep
  have hRest := hCalm.rest_quiet hFrames
  have hNone := hCalm.none_running hFrames
  generalize hPhase : frame.phase = phase at hAdvance
  cases hAdvance with
  | called =>
    exact hCalm.begin hFrames hPhase
  | zeroing i =>
    exact hCalm.zeroByte hFrames hPhase
  | copying i =>
    exact hCalm.copyByte hFrames hPhase
  | prepared =>
    exact hCalm.markRunning hFrames hPhase
  | marked =>
    have hLoaded := hCalm.loaded frame rest hFrames
    simp only [Loaded, hPhase] at hLoaded
    refine calm_of_innermost rfl hRest ?_ ?_ hLoaded
    · intro slot hRuns
      exact ⟨(hCalm.slot_of_running hFrames hRuns).1, Or.inl rfl⟩
    · intro hLoading
      cases hLoading
  | current =>
    exact hCalm.enterUserMode hFrames
  | left =>
    obtain ⟨status, ring3, hLeave⟩ := leaveUserMode_cases k frame rest
    rw [hLeave]
    exact calm_of_quiet (hNone (by simp [hPhase, RunPhase.active]) (by simp [hPhase]))
      (List.forall_mem_cons.mpr ⟨⟨rfl, rfl⟩, hRest⟩)
  | returned status =>
    refine calm_of_quiet ?_ (List.forall_mem_cons.mpr ⟨⟨rfl, rfl⟩, hRest⟩)
    intro slot hRuns
    rcases (running_setProcess _ _ _ _).mp hRuns with ⟨-, hState⟩ | ⟨hOther, hBefore⟩
    · exact absurd hState (not_running_ended _ _)
    · exact hOther (hCalm.slot_of_running hFrames hBefore).1.symm
  | settled =>
    exact calm_of_quiet (hNone (by simp [hPhase, RunPhase.active]) (by simp [hPhase])) hRest

/- Calls that are not disturbed start their processes alone. -/
theorem startsAlone {event : ProcessEvent} (hCalm : Calm files k) :
    StartsAlone files ⟨k, event, k'⟩ := by
  intro hLabel frame rest hFrames
  dsimp only at hFrames
  refine ⟨?_, ?_⟩
  · intro hPhase slot hRunning
    exact (hCalm.slot_of_running hFrames hRunning).1.symm
  · intro hPhase _ file hImage
    have hLoaded := hCalm.loaded frame rest hFrames
    simp only [Loaded, hPhase] at hLoaded
    exact hLoaded file hImage

end Calm

theorem step_calm_process {t : Taken ProcessKernel ProcessEvent} (hOrderly : Orderly t.before)
    (hCalm : Calm files t.before) (hStep : t.before.step files t.label = some t.after)
    (hUndisturbed : Undisturbed t) :
    Calm files t.after := by
  obtain ⟨k, event, k'⟩ := t
  dsimp only at hOrderly hCalm hStep ⊢
  have hActive : ∀ frame ∈ k.frames, ¬ frame.phase.Quiet → ¬ k.Loading → k.Running frame.slot := by
    intro frame hMember hBusy hIdle
    refine hOrderly.active frame hMember ?_
    by_contra hNot
    refine hBusy ⟨?_, by simpa using hNot⟩
    by_contra hLoads
    exact hIdle ⟨frame, hMember, by simpa using hLoads⟩
  cases event with
  | create entry userStack =>
    cases hStep
    rcases processCreate_cases k entry userStack with
      hSame | ⟨slot, process, nextPid, count, hUnused, hReady, hCreate⟩
    · rw [hSame]
      exact hCalm
    · rw [hCreate]
      refine hCalm.of_table rfl rfl
        (running_setProcess_idle (by simp [ProcessKernel.Running, hUnused]) (by simp [hReady])) ?_
      intro frame hMember hBusy
      refine setProcess_table_ne ?_ k process
      rintro rfl
      obtain ⟨rest, hFrames⟩ := hCalm.innermost hMember hBusy
      cases hLoading : frame.phase.loading with
      | true =>
        have hStartable := hCalm.startable frame rest hFrames hLoading
        simp [hUnused] at hStartable
      | false =>
        have hActs : frame.phase.active = true := by
          by_contra hNot
          exact hBusy ⟨hLoading, by simpa using hNot⟩
        have hRunning := hOrderly.active frame hMember hActs
        exact absurd (hUnused.symm.trans hRunning) (by simp)
  | configureImagePath slot path =>
    cases hStep
    refine hCalm.of_table rfl rfl (running_setProcess_same rfl) ?_
    intro frame hMember hBusy
    have hRunning := hActive frame hMember hBusy hUndisturbed.2
    have hOther : frame.slot ≠ slot := by
      rintro rfl
      exact hUndisturbed.1 hRunning
    exact setProcess_table_ne hOther k _
  | clearExited =>
    cases hStep
    refine hCalm.of_table rfl rfl (running_clearExited k) ?_
    intro frame hMember hBusy
    have hRunning : (k.table frame.slot).state = .running :=
      hActive frame hMember hBusy hUndisturbed
    simp [processClearExited, UserProcessState.ended, hRunning]
  | run slot =>
    cases hStep
    refine calm_of_quiet hUndisturbed.1 (List.forall_mem_cons.mpr ⟨⟨rfl, rfl⟩, ?_⟩)
    intro frame hMember
    by_contra hBusy
    exact hUndisturbed.1 frame.slot (hActive frame hMember hBusy hUndisturbed.2)
  | advance => exact hCalm.advance hStep
  | write inCode offset byte => exact hCalm.write hStep
  | exit code => exact hCalm.exit hOrderly hStep

theorem calm_booted (files : ImageFiles) : Calm files ProcessKernel.booted := by
  refine calm_of_quiet ?_ ?_
  · intro slot hRunning
    cases hRunning
  · intro frame hMember
    cases hMember

end LiamOS.I386
