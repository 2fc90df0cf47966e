import LiamOS.I386.Process.Operations

/-
  The law about the current process, and what one step keeps of it.

  A call of `process_run` takes its process to RUNNING, makes it the current one and expects its
  image in the code page when user mode is entered. A call that comes in between, from a shell
  command, uses the same variable and the same page. As long as no process is marked RUNNING while
  another is, and none is started over a page that is not its image, such a call waits for the
  active one and the law holds.

  Key definitions: `CurrentProcessLaw`, `StartsAlone`, `Undisturbed`, `Orderly`.
-/

namespace LiamOS.I386

open Word Transition

variable {k k' : ProcessKernel} {frame : RunFrame} {rest : List RunFrame} {files : ImageFiles}
variable {i : Nat} {event : ProcessEvent}

----------
-- Phases

/- The image is in the code page or on its way there. -/
def RunPhase.loading : RunPhase → Bool
| .zeroing _ => true
| .copying _ => true
| .prepared => true
| _ => false

/- The process was marked RUNNING and has not ended. -/
def RunPhase.active : RunPhase → Bool
| .marked => true
| .current => true
| .user _ => true
| _ => false

/- The process was made the current one. -/
def RunPhase.entered : RunPhase → Bool
| .current => true
| .user _ => true
| _ => false

theorem RunPhase.active_of_entered {phase : RunPhase} (hEntered : phase.entered = true) :
    phase.active = true := by
  cases phase <;> simp_all [entered, active]

def ProcessKernel.OneRunning (k : ProcessKernel) : Prop := ∀ a b, k.Running a → k.Running b → a = b

/- Some call has loaded its image or is loading it. -/
def ProcessKernel.Loading (k : ProcessKernel) : Prop :=
  ∃ frame ∈ k.frames, frame.phase.loading = true

----------
-- The Law and Its Conditions

/-
  After the step at most one process is RUNNING, and the process in user mode is the current one
  and has its image in the code page. If the step is the EXIT system call, it ends the process
  that made it.
-/
def CurrentProcessLaw (t : Taken ProcessKernel ProcessEvent) : Prop := t.after.OneRunning ∧
    (∀ frame rest page, t.after.executing = some (frame, rest, page) →
        processGetCurrentPid t.after = (t.after.table frame.slot).pid ∧ t.after.codePage = page) ∧
    ∀ code frame rest page, t.label = .exit code → t.before.executing = some (frame, rest, page) →
        (t.after.table frame.slot).state = .exited ∧ (t.after.table frame.slot).exitCode = code

/- A process is marked RUNNING only while no other is, and enters user mode only over its image. -/
def StartsAlone (files : ImageFiles) (t : Taken ProcessKernel ProcessEvent) : Prop :=
  t.label = .advance → ∀ frame rest, t.before.frames = frame :: rest →
      (frame.phase = .prepared → ∀ slot, t.before.Running slot → slot = frame.slot) ∧
      (frame.phase = .current → t.after.executing ≠ none →
        ∀ file, (t.before.table frame.slot).image files = some file → t.before.codePage = file.page)

/-
  A call of `process_run` comes while no process is RUNNING, and a process that is RUNNING gets no
  other image path. Neither they nor a command that clears the process table come while an image
  is being loaded.
-/
def Undisturbed (t : Taken ProcessKernel ProcessEvent) : Prop :=
  match t.label with
  | .run _ => (∀ slot, ¬ t.before.Running slot) ∧ ¬ t.before.Loading
  | .configureImagePath slot _ => ¬ t.before.Running slot ∧ ¬ t.before.Loading
  | .clearExited => ¬ t.before.Loading
  | _ => True

----------
-- Orderly Kernels

/- A call that does not touch a process in this slot. -/
def RunFrame.WaitsFor (frame : RunFrame) (slot : Fin 16) : Prop :=
  frame.phase = .called ∨ (frame.phase.loading = true ∧ frame.slot ≠ slot)

/-
  What holds as long as every process has been started alone. Calls inside an active one have not
  gone beyond their loads. While they have not begun to load, the interrupted process still finds
  its page.
-/
structure Orderly (k : ProcessKernel) : Prop where
  one : k.OneRunning
  active : ∀ frame ∈ k.frames, frame.phase.active = true → k.Running frame.slot
  current : ∀ frame ∈ k.frames, frame.phase.entered = true → k.currentProcess = some frame.slot
  nested : k.frames.Pairwise fun inner outer =>
      outer.phase.active = true → inner.WaitsFor outer.slot
  page : ∀ inner frame rest page, k.frames = inner ++ frame :: rest → frame.phase = .user page →
      (∀ f ∈ inner, f.phase = .called) → k.codePage = page

theorem Orderly.of_running (hOrderly : Orderly k) (hFrames : k'.frames = k.frames)
    (hCurrent : k'.currentProcess = k.currentProcess) (hPage : k'.codePage = k.codePage)
    (hRunning : ∀ slot, k'.Running slot ↔ k.Running slot) :
    Orderly k' where
  one a b ha hb := hOrderly.one a b ((hRunning a).mp ha) ((hRunning b).mp hb)
  active frame hMember hActive :=
    (hRunning _).mpr (hOrderly.active frame (hFrames ▸ hMember) hActive)
  current frame hMember hEntered :=
    hCurrent.trans (hOrderly.current frame (hFrames ▸ hMember) hEntered)
  nested := hFrames ▸ hOrderly.nested
  page inner frame rest page hSplit hUser hCalled :=
    hPage.trans (hOrderly.page inner frame rest page (hFrames ▸ hSplit) hUser hCalled)

theorem Orderly.run (hOrderly : Orderly k) (slot : Fin 16) : Orderly
      { k with frames := ⟨slot, none, .called⟩ :: k.frames } where
  one := hOrderly.one
  active := by
    intro frame hMember hActive
    rcases List.mem_cons.mp hMember with rfl | hBelow
    · simp [RunPhase.active] at hActive
    · exact hOrderly.active frame hBelow hActive
  current := by
    intro frame hMember hEntered
    rcases List.mem_cons.mp hMember with rfl | hBelow
    · simp [RunPhase.entered] at hEntered
    · exact hOrderly.current frame hBelow hEntered
  nested := List.pairwise_cons.mpr ⟨fun _ _ _ => Or.inl rfl, hOrderly.nested⟩
  page := by
    intro inner frame rest page hSplit hUser hCalled
    cases inner with
    | nil =>
      cases hSplit
      cases hUser
    | cons first inner =>
      obtain ⟨-, hSplit⟩ := List.cons.inj hSplit
      exact hOrderly.page inner frame rest page hSplit hUser fun f hMember =>
          hCalled f (List.mem_cons_of_mem _ hMember)

section

variable (hOrderly : Orderly k) (hFrames : k.frames = frame :: rest)
include hOrderly hFrames

/- A call that has not begun to load returns. -/
theorem Orderly.dropped (hCalled : frame.phase = .called) :
    Orderly { k with frames := rest } where
  one := hOrderly.one
  active f hMember := hOrderly.active f (hFrames ▸ List.mem_cons_of_mem _ hMember)
  current f hMember := hOrderly.current f (hFrames ▸ List.mem_cons_of_mem _ hMember)
  nested := (List.pairwise_cons.mp (hFrames ▸ hOrderly.nested)).2
  page := by
    intro inner f below page hSplit hUser hInner
    refine hOrderly.page (frame :: inner) f below page ?_ hUser
      (List.forall_mem_cons.mpr ⟨hCalled, hInner⟩)
    rw [hFrames, show rest = inner ++ f :: below from hSplit]
    rfl

/- The innermost call is loading and leaves the others alone. -/
theorem Orderly.load {frame' : RunFrame} (hFrames' : k'.frames = frame' :: rest)
    (hLoading : frame'.phase.loading = true)
    (hApart : ∀ outer ∈ rest, outer.phase.active = true → frame'.slot ≠ outer.slot)
    (hCurrent : k'.currentProcess = k.currentProcess)
    (hRunning : ∀ slot, k'.Running slot ↔ k.Running slot) :
    Orderly k' where
  one a b ha hb := hOrderly.one a b ((hRunning a).mp ha) ((hRunning b).mp hb)
  active := by
    intro f hMember hActive
    rw [hFrames'] at hMember
    rcases List.mem_cons.mp hMember with rfl | hBelow
    · cases hPhase : f.phase <;>
        simp [hPhase, RunPhase.loading, RunPhase.active] at hLoading hActive
    · exact (hRunning _).mpr (hOrderly.active f (hFrames ▸ List.mem_cons_of_mem _ hBelow) hActive)
  current := by
    intro f hMember hEntered
    rw [hFrames'] at hMember
    rcases List.mem_cons.mp hMember with rfl | hBelow
    · cases hPhase : f.phase <;>
        simp [hPhase, RunPhase.loading, RunPhase.entered] at hLoading hEntered
    · exact hCurrent.trans (hOrderly.current f (hFrames ▸ List.mem_cons_of_mem _ hBelow) hEntered)
  nested := by
    rw [hFrames', List.pairwise_cons]
    refine ⟨?_, ?_⟩
    · intro outer hMember hActive
      exact Or.inr ⟨hLoading, hApart outer hMember hActive⟩
    · exact (List.pairwise_cons.mp (hFrames ▸ hOrderly.nested)).2
  page := by
    intro inner f below page hSplit hUser hCalled
    rw [hFrames'] at hSplit
    cases inner with
    | nil =>
      cases hSplit
      simp [hUser, RunPhase.loading] at hLoading
    | cons first inner =>
      obtain ⟨rfl, -⟩ := List.cons.inj hSplit
      have hFirst := hCalled frame' List.mem_cons_self
      simp [hFirst, RunPhase.loading] at hLoading

/- Below a call that has gone beyond its load none is active. -/
theorem Orderly.lone (hCalled : frame.phase ≠ .called) (hLoading : frame.phase.loading = false) :
    ∀ outer ∈ rest, outer.phase.active = false := by
  intro outer hMember
  by_contra hActive
  have hNested := hOrderly.nested
  rw [hFrames, List.pairwise_cons] at hNested
  rcases hNested.1 outer hMember (by simpa using hActive) with hCalls | ⟨hLoads, -⟩
  · exact hCalled hCalls
  · simp [hLoading] at hLoads

end

theorem orderly_of_idle (hOne : k.OneRunning)
    (hIdle : ∀ frame ∈ k.frames, frame.phase.active = false) :
    Orderly k where
  one := hOne
  active frame hMember hActive := by
    simp [hIdle frame hMember] at hActive
  current frame hMember hEntered := by
    have hActive := RunPhase.active_of_entered hEntered
    simp [hIdle frame hMember] at hActive
  nested := by
    refine List.pairwise_of_forall_mem_list ?_
    intro inner _ outer hMember hActive
    simp [hIdle outer hMember] at hActive
  page inner frame rest page hSplit hUser _ := by
    have hMember : frame ∈ k.frames := by simp [hSplit]
    have hActive := hIdle frame hMember
    simp [hUser, RunPhase.active] at hActive

/- The innermost call is the only one that may be active. -/
theorem orderly_of_lone (hOne : k.OneRunning) (hFrames : k.frames = frame :: rest)
    (hRest : ∀ outer ∈ rest, outer.phase.active = false) (hActive : k.Running frame.slot)
    (hEntered : frame.phase.entered = true → k.currentProcess = some frame.slot)
    (hPage : ∀ page, frame.phase = .user page → k.codePage = page) :
    Orderly k where
  one := hOne
  active f hMember hActs := by
    rw [hFrames] at hMember
    rcases List.mem_cons.mp hMember with rfl | hBelow
    · exact hActive
    · simp [hRest f hBelow] at hActs
  current f hMember hEnters := by
    rw [hFrames] at hMember
    rcases List.mem_cons.mp hMember with rfl | hBelow
    · exact hEntered hEnters
    · have hActs := RunPhase.active_of_entered hEnters
      simp [hRest f hBelow] at hActs
  nested := by
    rw [hFrames, List.pairwise_cons]
    constructor
    · intro outer hMember hActs
      simp [hRest outer hMember] at hActs
    · refine List.pairwise_of_forall_mem_list ?_
      intro inner _ outer hMember hActs
      simp [hRest outer hMember] at hActs
  page inner f below page hSplit hUser _ := by
    rw [hFrames] at hSplit
    cases inner with
    | nil =>
      cases hSplit
      exact hPage page hUser
    | cons first inner =>
      obtain ⟨-, hBelow⟩ := List.cons.inj hSplit
      have hActs := hRest f (by simp [hBelow])
      simp [hUser, RunPhase.active] at hActs

----------
-- Steps of a Call

section

variable (hOrderly : Orderly k) (hFrames : k.frames = frame :: rest)
include hOrderly hFrames

theorem Orderly.apart (hLoading : frame.phase.loading = true) :
    ∀ outer ∈ rest, outer.phase.active = true → frame.slot ≠ outer.slot := by
  intro outer hMember hActive
  have hNested := hOrderly.nested
  rw [hFrames, List.pairwise_cons] at hNested
  rcases hNested.1 outer hMember hActive with hCalled | ⟨-, hApart⟩
  · simp [hCalled, RunPhase.loading] at hLoading
  · exact hApart

theorem Orderly.begin (hCalled : frame.phase = .called) :
    Orderly (k.begin files frame rest) := by
  -- a process that can be started is not the active one
  have hApart : ((k.table frame.slot).state = .ready ∨ (k.table frame.slot).state = .exited) →
      ∀ outer ∈ rest, outer.phase.active = true → frame.slot ≠ outer.slot := by
    intro hStartable outer hMember hActive hSlot
    have hRunning : (k.table frame.slot).state = .running := by
      rw [hSlot]
      exact hOrderly.active outer (hFrames ▸ List.mem_cons_of_mem _ hMember) hActive
    simp [hRunning] at hStartable
  rcases begin_cases files k frame rest with ⟨table, ring3, hRunning, hBegin⟩ | ⟨hStartable, hBegin⟩
  · rw [hBegin]
    exact (hOrderly.dropped hFrames hCalled).of_running rfl rfl rfl hRunning
  · rcases hBegin with ⟨-, hBegin⟩ | ⟨file, -, -, hBegin⟩
    · rw [hBegin]
      exact hOrderly.load hFrames rfl rfl (hApart hStartable) rfl fun _ => Iff.rfl
    · rw [hBegin]
      exact hOrderly.load hFrames rfl rfl (hApart hStartable) rfl fun _ => Iff.rfl

theorem Orderly.zeroByte (hPhase : frame.phase = .zeroing i) :
    Orderly (k.zeroByte frame rest i) := by
  have hApart := hOrderly.apart hFrames (by simp [hPhase, RunPhase.loading])
  unfold ProcessKernel.zeroByte
  split
  · exact hOrderly.load hFrames rfl rfl hApart rfl fun _ => Iff.rfl
  · exact hOrderly.load hFrames rfl rfl hApart rfl fun _ => Iff.rfl

theorem Orderly.copyByte (hPhase : frame.phase = .copying i) (file : ImageFile) :
    Orderly (k.copyByte frame rest file i) := by
  have hApart := hOrderly.apart hFrames (by simp [hPhase, RunPhase.loading])
  unfold ProcessKernel.copyByte
  split
  · exact hOrderly.load hFrames rfl rfl hApart rfl fun _ => Iff.rfl
  · exact hOrderly.load hFrames rfl rfl hApart rfl (running_setProcess_same rfl)

/- Here the process must be alone. -/
theorem Orderly.markRunning (hPhase : frame.phase = .prepared)
    (hAlone : ∀ slot, k.Running slot → slot = frame.slot) :
    Orderly (k.markRunning frame rest) := by
  have hApart := hOrderly.apart hFrames (by simp [hPhase, RunPhase.loading])
  have hOnly : ∀ slot, (k.markRunning frame rest).Running slot → slot = frame.slot := by
    intro slot hRunning
    rcases (running_setProcess k frame.slot slot _).mp hRunning with ⟨hSlot, -⟩ | ⟨-, hBefore⟩
    · exact hSlot
    · exact hAlone slot hBefore
  refine orderly_of_lone ?_ rfl ?_ ?_ ?_ ?_
  · intro a b ha hb
    exact (hOnly a ha).trans (hOnly b hb).symm
  · intro outer hMember
    by_contra hActive
    have hActive : outer.phase.active = true := by simpa using hActive
    have hRunning := hOrderly.active outer (hFrames ▸ List.mem_cons_of_mem _ hMember) hActive
    exact hApart outer hMember hActive (hAlone outer.slot hRunning).symm
  · exact (running_setProcess k frame.slot frame.slot _).mpr (Or.inl ⟨rfl, rfl⟩)
  · intro hEntered
    cases hEntered
  · intro page hUser
    cases hUser

/- Here the image must be in the code page. -/
theorem Orderly.enterUserMode (hPhase : frame.phase = .current)
    (hImage : (k.enterUserMode files frame rest).executing ≠ none →
        ∀ file, (k.table frame.slot).image files = some file → k.codePage = file.page) :
    Orderly (k.enterUserMode files frame rest) := by
  have hRest := hOrderly.lone hFrames (by simp [hPhase]) (by simp [hPhase, RunPhase.loading])
  have hMember : frame ∈ k.frames := by simp [hFrames]
  have hRunning := hOrderly.active frame hMember (by simp [hPhase, RunPhase.active])
  have hCurrent := hOrderly.current frame hMember (by simp [hPhase, RunPhase.entered])
  rcases enterUserMode_cases files k frame rest with ⟨ring3, hEnter⟩ | ⟨status, ring3, hEnter⟩
  · rw [hEnter] at hImage ⊢
    refine orderly_of_lone hOrderly.one rfl hRest hRunning (fun _ => hCurrent) ?_
    intro page hUser
    cases hUser
    have hFound := hImage (by simp [ProcessKernel.executing, ProcessKernel.goto])
    show k.codePage = _
    unfold UserProcess.expected
    split
    next => rfl
    next file hFile => exact hFound file hFile
  · rw [hEnter]
    refine orderly_of_idle hOrderly.one ?_
    exact List.forall_mem_cons.mpr ⟨rfl, hRest⟩

end

theorem Orderly.exit {code : Int} (hOrderly : Orderly k) (hExit : k.exit code = some k') :
    Orderly k' := by
  obtain ⟨frame, rest, page, ring3, hFrames, hPhase, rfl⟩ := exit_cases hExit
  have hRest := hOrderly.lone hFrames (by simp [hPhase]) (by simp [hPhase, RunPhase.loading])
  have hCurrent := hOrderly.current frame (by simp [hFrames]) (by simp [hPhase, RunPhase.entered])
  refine orderly_of_idle ?_ (List.forall_mem_cons.mpr ⟨rfl, hRest⟩)
  have hRunning : ∀ slot, (processMarkExit k code).Running slot → k.Running slot := by
    intro slot hRunning
    unfold processMarkExit at hRunning
    rw [hCurrent] at hRunning
    rcases (running_setProcess k frame.slot slot _).mp hRunning with ⟨-, hState⟩ | ⟨-, hBefore⟩
    · cases hState
    · exact hBefore
  intro a b ha hb
  exact hOrderly.one a b (hRunning a ha) (hRunning b hb)

theorem Orderly.write {inCode : Bool} {offset : Fin 4096} {byte : UInt8} (hOrderly : Orderly k)
    (hWrite : k.write inCode offset byte = some k') :
    Orderly k' := by
  obtain ⟨frame, rest, page, hFrames, hPhase, hCases⟩ := write_cases hWrite
  have hMember : frame ∈ k.frames := by simp [hFrames]
  have hRest := hOrderly.lone hFrames (by simp [hPhase]) (by simp [hPhase, RunPhase.loading])
  have hPage := hOrderly.page [] frame rest page hFrames hPhase (by simp)
  rcases hCases with ⟨-, rfl⟩ | ⟨-, rfl⟩
  · refine orderly_of_lone hOrderly.one rfl hRest
      (hOrderly.active frame hMember (by simp [hPhase, RunPhase.active]))
      (fun _ => hOrderly.current frame hMember (by simp [hPhase, RunPhase.entered])) ?_
    intro page' hUser
    cases hUser
    exact congrArg (UserPage.set · offset.val byte) hPage
  · exact hOrderly.of_running rfl rfl rfl fun _ => Iff.rfl

----------
-- Orderly Runs

theorem advance_orderly (hOrderly : Orderly k) (hStep : k.advance files = some k')
    (hAlone : StartsAlone files ⟨k, .advance, k'⟩) :
    Orderly k' := by
  obtain ⟨frame, rest, hFrames, hAdvance⟩ := advance_cases hStep
  have hStarts := hAlone rfl frame rest hFrames
  have hLone := hOrderly.lone hFrames
  generalize hPhase : frame.phase = phase at hAdvance
  cases hAdvance with
  | called =>
    exact hOrderly.begin hFrames hPhase
  | zeroing i =>
    exact hOrderly.zeroByte hFrames hPhase
  | copying i =>
    exact hOrderly.copyByte hFrames hPhase _
  | prepared =>
    exact hOrderly.markRunning hFrames hPhase (hStarts.1 hPhase)
  | marked =>
    refine orderly_of_lone hOrderly.one rfl
      (hLone (by simp [hPhase]) (by simp [hPhase, RunPhase.loading]))
      (hOrderly.active frame (by simp [hFrames]) (by simp [hPhase, RunPhase.active]))
      (fun _ => rfl) ?_
    intro page hUser
    cases hUser
  | current =>
    exact hOrderly.enterUserMode hFrames hPhase (hStarts.2 hPhase)
  | left =>
    obtain ⟨status, ring3, hLeave⟩ := leaveUserMode_cases k frame rest
    rw [hLeave]
    exact orderly_of_idle hOrderly.one
      (List.forall_mem_cons.mpr ⟨rfl,
        hLone (by simp [hPhase]) (by simp [hPhase, RunPhase.loading])⟩)
  | returned status =>
    refine orderly_of_idle ?_
      (List.forall_mem_cons.mpr ⟨rfl,
        hLone (by simp [hPhase]) (by simp [hPhase, RunPhase.loading])⟩)
    have hBefore : ∀ slot,
          (k.setProcess frame.slot
            ((k.table frame.slot).ended status)).Running slot → k.Running slot := by
      intro slot hRunning
      rcases (running_setProcess _ _ _ _).mp hRunning with ⟨-, hState⟩ | ⟨-, hBefore⟩
      · exact absurd hState (not_running_ended _ _)
      · exact hBefore
    intro a b ha hb
    exact hOrderly.one a b (hBefore a ha) (hBefore b hb)
  | settled =>
    exact orderly_of_idle hOrderly.one
      (hLone (by simp [hPhase]) (by simp [hPhase, RunPhase.loading]))

theorem step_orderly (hOrderly : Orderly k) (hStep : k.step files event = some k')
    (hAlone : StartsAlone files ⟨k, event, k'⟩) :
    Orderly k' := by
  cases event with
  | create entry userStack =>
    cases hStep
    rcases processCreate_cases k entry userStack with
      hSame | ⟨slot, process, nextPid, count, hUnused, hReady, hCreate⟩
    · rw [hSame]
      exact hOrderly
    · rw [hCreate]
      exact hOrderly.of_running rfl rfl rfl
        (running_setProcess_idle (by simp [ProcessKernel.Running, hUnused]) (by simp [hReady]))
  | configureImagePath slot path =>
    cases hStep
    exact hOrderly.of_running rfl rfl rfl (running_setProcess_same rfl)
  | clearExited =>
    cases hStep
    exact hOrderly.of_running rfl rfl rfl (running_clearExited k)
  | run slot =>
    cases hStep
    exact hOrderly.run slot
  | advance => exact advance_orderly hOrderly hStep hAlone
  | write inCode offset byte => exact hOrderly.write hStep
  | exit code => exact hOrderly.exit hStep

/- An orderly kernel keeps the law when its step is one. -/
theorem currentProcessLaw_of_orderly (hBefore : Orderly k) (hStep : k.step files event = some k')
    (hAfter : Orderly k') :
    CurrentProcessLaw ⟨k, event, k'⟩ := by
  refine ⟨hAfter.one, ?_, ?_⟩
  · intro frame rest page hExecuting
    dsimp only at hExecuting ⊢
    obtain ⟨hFrames, hPhase⟩ := executing_eq_some.mp hExecuting
    have hCurrent := hAfter.current frame (by simp [hFrames]) (by simp [hPhase, RunPhase.entered])
    have hPage := hAfter.page [] frame rest page hFrames hPhase (by simp)
    refine ⟨?_, hPage⟩
    unfold processGetCurrentPid
    rw [hCurrent]
  · intro code frame rest page hLabel hExecuting
    dsimp only at hLabel hExecuting
    subst hLabel
    obtain ⟨hFrames, hPhase⟩ := executing_eq_some.mp hExecuting
    have hCurrent := hBefore.current frame (by simp [hFrames]) (by simp [hPhase, RunPhase.entered])
    obtain ⟨frame', rest', page', ring3, hFrames', -, rfl⟩ := exit_cases hStep
    cases hFrames.symm.trans hFrames'
    simp [ProcessKernel.goto, processMarkExit, hCurrent, ProcessKernel.setProcess]

/- The law at a start is the condition on the start. -/
theorem startsAlone_of_law {t : Taken ProcessKernel ProcessEvent}
    (hStep : t.before.step files t.label = some t.after) (hLaw : CurrentProcessLaw t) :
    StartsAlone files t := by
  obtain ⟨k, event, k'⟩ := t
  intro hLabel frame rest hFrames
  dsimp only at hStep hLabel hFrames hLaw ⊢
  subst hLabel
  have hAdvance : k.advance files = some k' := hStep
  unfold ProcessKernel.advance at hAdvance
  constructor
  · intro hPhase slot hRunning
    simp only [hFrames, hPhase, Option.some.injEq] at hAdvance
    subst hAdvance
    by_contra hOther
    exact hOther
      (hLaw.1 slot frame.slot
        ((running_setProcess k frame.slot slot _).mpr (Or.inr ⟨hOther, hRunning⟩))
        ((running_setProcess k frame.slot frame.slot _).mpr (Or.inl ⟨rfl, rfl⟩)))
  · intro hPhase hExecuting file hImage
    simp only [hFrames, hPhase, Option.some.injEq] at hAdvance
    subst hAdvance
    rcases enterUserMode_cases files k frame rest with ⟨ring3, hEnter⟩ | ⟨status, ring3, hEnter⟩
    · have hPage := (hLaw.2.1 { frame with phase := .user _ } rest _ (by rw [hEnter]; rfl)).2
      rw [hEnter] at hPage
      simpa [UserProcess.expected, hImage, ProcessKernel.goto] using hPage
    · rw [hEnter] at hExecuting
      exact absurd rfl hExecuting

theorem orderly_booted : Orderly ProcessKernel.booted := by
  refine orderly_of_idle ?_ ?_
  · intro a b ha hb
    cases ha
  · intro frame hMember
    cases hMember

end LiamOS.I386
