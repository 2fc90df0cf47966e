import LiamOS.X64.Process.Reaping
import LiamOS.X64.Syscall.Isolation

/-
  The EXEC service as a step of the process table.

  Whether EXEC makes a process depends on the path, the file, a slot of the table and the free
  pages. If it does, one slot is filled and the dispatcher asks for the tables of the new process;
  if not, every slot stays.

  Key definitions: `KernelReady`, `ExecAccepted`, `ProcessAdded`, `SlotsKept`.
-/

namespace LiamOS.X64

open Word PageTable

variable {builder : BuilderState}
variable {s s' : ProcessSystem}
variable {env : SyscallEnv}
variable {request : UserImageRequest} {pid : Nat}

----------
-- The Process Table In Use

/- What the kernel keeps of its processes and pages. -/
structure KernelReady (builder : BuilderState) (s : ProcessSystem) : Prop where
  sound : SoundSystem builder s
  initialized : s.counters.initialized = true
  range : PagesInRange s.pmm s.ledger

theorem KernelReady.of_step {created : Bool} (hReady : KernelReady builder s)
    (hStep : SystemStep s s' created) (hRange : SameRange s.pmm s'.pmm)
    (hInitialized : s'.counters.initialized = s.counters.initialized) :
    KernelReady builder s' where
  sound := hReady.sound.step hStep
  initialized := hInitialized.trans hReady.initialized
  range := hReady.range.of_subperm hRange hStep.ledger_subperm

/- Bytes beside the tables of the builder. -/
theorem KernelReady.of_mem {mem : ByteMemory} (hReady : KernelReady builder s)
    (hAgree : ∀ b x, pageOf x = builder.tables b → mem x = s.mem x) :
    KernelReady builder { s with mem := mem } where
  sound :=
    { ok := hReady.sound.ok
      context := hReady.sound.context
      nodup := hReady.sound.nodup
      aligned := hReady.sound.aligned
      bound := hReady.sound.bound
      apart := hReady.sound.apart
      built := hReady.sound.built.of_agree hAgree
      unused := hReady.sound.unused }
  initialized := hReady.initialized
  range := hReady.range

/- No slot is filled or emptied. -/
structure SlotsKept (s s' : ProcessSystem) : Prop where
  used : ∀ j, (s.table j).state ≠ .unused → s'.table j = s.table j
  unused : ∀ j, (s.table j).state = .unused → (s'.table j).state = .unused
  nextPid : s'.nextPid = s.nextPid

/- One slot gets a user process with the next pid. -/
structure ProcessAdded (s s' : ProcessSystem) (i : Fin 64) : Prop where
  before : (s.table i).state = .unused
  state : (s'.table i).state = .ready
  mode : (s'.table i).mode = .user
  pid : (s'.table i).pid = s.nextPid
  others : ∀ j, j ≠ i → s'.table j = s.table j
  nextPid : s'.nextPid = u32 (s.nextPid + 1)
  target : s'.counters.lastUserCr3 = (s'.table i).pages .cr3
  cr3 : (s'.table i).pages .cr3 ∈ s'.ledger
  stack : s'.pmm.stack = s.pmm.stack.drop 12

----------
-- Programs

/- A slot that is not in use and the pages of a process. -/
structure RoomForProcess (s : ProcessSystem) : Prop where
  slot : ∃ i, (s.table i).state = .unused
  pages : 12 ≤ s.pmm.stack.length

theorem findUnusedProcess_isSome (hSlot : ∃ i, (s.table i).state = .unused) :
    ∃ i, s.findUnusedProcess = some i := by
  obtain ⟨i, hUnused⟩ := hSlot
  have hSome : s.findUnusedProcess.isSome = true := by
    unfold ProcessSystem.findUnusedProcess
    rw [List.find?_isSome]
    exact ⟨i, List.mem_finRange i, decide_eq_true hUnused⟩
  exact Option.isSome_iff_exists.mp hSome

section

variable (hReady : KernelReady builder s)
include hReady

theorem ProcessAdded.of_created {i : Fin 64} {w : SlotState}
    (hCreated : ImageCreated builder request s s' i w) (hFilled : ImageFilled request s i w)
    (hTarget : s'.counters.lastUserCr3 = w.process.pages .cr3) :
    ProcessAdded s s' i := by
  have hImage := hCreated.image
  have hSelf := hCreated.replaced.table_self
  have hUnused := hCreated.pids.unused
  refine ⟨hUnused, ?_, ?_, ?_, fun j hj => hCreated.replaced.table_other hj,
    hCreated.pids.nextPid, ?_, ?_, ?_⟩
  · rw [hSelf]
    exact hImage.state
  · rw [hSelf]
    exact hImage.mode
  · rw [hSelf]
    exact hImage.pid
  · rw [hSelf]
    exact hTarget
  · have hCr3 := hFilled.filled hReady.sound hUnused .cr3
    refine List.mem_append_left _ (List.mem_flatMap.mpr ⟨i, List.mem_finRange i, ?_⟩)
    rw [hSelf]
    refine List.mem_filter.mpr ⟨?_, by simpa using hCr3⟩
    exact List.mem_append_left _ (List.mem_map_of_mem (mem_addressSpacePages _))
  · rw [hCreated.replaced.pmm]
    exact hFilled.stack hReady.range.ready

/- The pages of a process, where there is room for it. -/
theorem RoomForProcess.allocates (hRoom : RoomForProcess s) :
    ∃ i w, s.findUnusedProcess = some i ∧ allocateProcess s.context (s.slot i) = (true, w) := by
  obtain ⟨i, hFind⟩ := findUnusedProcess_isSome hRoom.slot
  have hPages := hRoom.pages
  have hUsable : Usable s.pmm 12 := by
    intro k hk
    rw [List.getD_eq_getElem _ _ (by omega)]
    exact hReady.range.nonzero _ (List.mem_append_right _ (List.getElem_mem _))
  have hMade := allocateProcess_succeeds (hReady.sound.slot i) hReady.range.ready hUsable
  rw [← hReady.sound.context] at hMade
  exact ⟨i, _, hFind, Prod.ext hMade rfl⟩

theorem processCreate_ready (name : List UInt8) (entry : Nat) :
    KernelReady builder (processCreate name entry s).2 := by
  have hFrame := processCreate_frame name entry s
  obtain ⟨created, hStep, -⟩ :=
    processCreate_step hReady.sound (show processCreate name entry s = (_, _) from rfl)
  exact hReady.of_step hStep hFrame.range hFrame.ready

/- A kernel process is made where there is room. -/
theorem processCreate_room {entry : Nat} (hRoom : RoomForProcess s) (hEntry : entry ≠ 0)
    (name : List UInt8) :
    ∃ i, (∀ j, j ≠ i → (processCreate name entry s).2.table j = s.table j) ∧
      (processCreate name entry s).2.nextPid = u32 (s.nextPid + 1) ∧
      (processCreate name entry s).2.pmm.stack = s.pmm.stack.drop 12 := by
  obtain ⟨i, w, hFind, hMade⟩ := hRoom.allocates hReady
  have hValid : ¬ (s.counters.initialized = false ∨ entry = 0) := by
    rw [hReady.initialized]
    simp [hEntry]
  have hStack :=
    allocateProcess_stack (show (s.slot i).pmm.initialized = true from hReady.range.ready) hMade
  refine ⟨i, ?_⟩
  unfold processCreate
  rw [if_neg hValid, hFind]
  dsimp only
  rw [hMade, if_neg (show ¬ true = false from nofun)]
  refine ⟨fun j hOther => ?_, rfl, hStack⟩
  exact Function.update_of_ne hOther _ _

/- A valid request makes a process where there is room. -/
theorem processCreateUserImage_room (hValid : request.isValid = true)
    (hRun : processCreateUserImage request s = (pid, s')) :
    KernelReady builder s' ∧
      ((¬ RoomForProcess s ∧ pid = 0 ∧ SlotsKept s s') ∨
        (RoomForProcess s ∧ pid = s.nextPid ∧ ∃ i, ProcessAdded s s' i)) := by
  have hSound := hReady.sound
  have hFrame := processCreateUserImage_frame request s
  rw [hRun] at hFrame
  rcases processCreateUserImage_outcome hSound hRun with
    ⟨hPid, hStep, hUnused⟩ | ⟨hPid, i, w, hCreated, hFilled, hTarget⟩
  · refine ⟨hReady.of_step hStep hFrame.range hFrame.ready,
      Or.inl ⟨?_, hPid, hFrame.used, hUnused, ?_⟩⟩
    · -- with room the creation would have filled a slot
      intro hRoom
      obtain ⟨i, w, hFind, hMade⟩ := hRoom.allocates hReady
      obtain ⟨s₁, w', hResult, hCreated, -⟩ :=
        processCreateUserImage_made hSound hReady.initialized hValid hFind hMade
      rw [hRun] at hResult
      obtain ⟨-, rfl⟩ := Prod.mk.inj hResult
      have hState := hUnused i hCreated.pids.unused
      rw [hCreated.replaced.table_self, hCreated.image.state] at hState
      exact absurd hState (by decide)
    · cases hStep with
      | same hSame => exact hSame.nextPid
      | kept i w hReplaced hPids => exact hPids.nextPid
  · refine ⟨hReady.of_step (.added i w hCreated.replaced hCreated.pids) hFrame.range
      hFrame.ready, Or.inr ⟨⟨⟨i, hCreated.pids.unused⟩, ?_⟩, hPid,
        i, .of_created hReady hCreated hFilled hTarget⟩⟩
    exact hFilled.free_pages hSound hCreated.pids.unused

end

section Program

variable {boot : ProcessSystem}
variable {staging : Nat}
variable {path : List UInt8}
variable {image : UserImage}
variable {state state' : ExecState}
variable {pid : Nat}

/- EXEC behind the lookup of its file. -/
theorem execProgram_outcome (hStaging : StagingArea builder boot staging)
    (hLive : state.Live staging) (hReady : KernelReady builder s)
    (hRun : execProgram path image state s = (pid, state', s')) :
    state'.Live staging ∧ KernelReady builder s' ∧
      ((¬ (ExecutableImage image ∧ RoomForProcess s) ∧ pid = 0 ∧ SlotsKept s s') ∨
        ((ExecutableImage image ∧ RoomForProcess s) ∧ pid = s.nextPid ∧ state'.execLoaded = true ∧
          ∃ i, ProcessAdded s s' i)) := by
  have hCleared : ({ state with execLoaded := false, execEntry := 0 } : ExecState).Live staging :=
    ⟨hLive.nonzero, hLive.codePage, hLive.pages⟩
  have hAccepts := @loadExecElf_accepts_iff image _ staging hCleared s.mem
  unfold execProgram at hRun
  rcases hLoaded : loadExecElf (some image) { state with execLoaded := false, execEntry := 0 } s.mem
    with ⟨ok, staged, mem⟩
  obtain ⟨hStaged, hFrame⟩ := loadExecElf_frame hCleared hLoaded
  have hReadyMem : KernelReady builder { s with mem := mem } := by
    refine hReady.of_mem fun b x hPage => hFrame x ?_
    refine hStaging.beside fun i hi => ?_
    rw [hPage]
    exact hStaging.apart i hi b
  rw [hLoaded] at hRun hAccepts
  cases ok with
  | false =>
    cases hRun
    refine ⟨hStaged, hReadyMem, Or.inl ⟨?_, rfl, fun _ _ => rfl, fun _ hUnused => hUnused, rfl⟩⟩
    intro hBoth
    exact absurd (hAccepts.mpr hBoth.1) (show ¬ false = true from nofun)
  | true =>
    have hImage := hAccepts.mp rfl
    have hExec := loadExecElf_loaded hCleared hLoaded
    have hValid := hExec.request_valid (hExec.requestOf hStaging.bound path)
    rcases hCreated :
      processCreateUserImage (execRequest path staged) { s with mem := mem } with ⟨created, s₁⟩
    dsimp only at hRun
    rw [hCreated] at hRun
    cases hRun
    obtain ⟨hReady₁, hOutcome⟩ := processCreateUserImage_room hReadyMem hValid hCreated
    refine ⟨hStaged, hReady₁, ?_⟩
    rcases hOutcome with ⟨hNoRoom, hPid, hKept⟩ | ⟨hRoom, hPid, i, hAdded⟩
    · refine Or.inl ⟨fun hBoth => hNoRoom ?_, hPid, hKept.used, hKept.unused, hKept.nextPid⟩
      exact ⟨hBoth.2.slot, hBoth.2.pages⟩
    · refine Or.inr ⟨⟨hImage, hRoom.slot, hRoom.pages⟩, hPid, ?_, i, ?_⟩
      · exact loadExecElf_execLoaded hLoaded
      · exact ⟨hAdded.before, hAdded.state, hAdded.mode, hAdded.pid, hAdded.others, hAdded.nextPid,
          hAdded.target, hAdded.cr3, hAdded.stack⟩

end Program

----------
-- The Service

/- The calls of EXEC that make a process. -/
structure ExecAccepted (env : SyscallEnv) (path : Nat) (s : DispatchSystem) : Prop where
  readable : PathReadable env.view path
  file : ∃ resolved, vfsResolve env.images (bufferAt env.view path) env.scratch
          s.session s.state.vfs = .ok resolved ∧
        resolved.type = .executable ∧
        ExecutableImage ⟨resolved.data, resolved.size⟩
  room : RoomForProcess s.processes

theorem execImage_ok_iff {path : Nat} (hPath : path < 18446744073709551616) (s : DispatchSystem)
    (image : UserImage) :
    execImage env path s = .ok image ↔
      PathReadable env.view path ∧ ∃ resolved, vfsResolve env.images (bufferAt env.view path)
              env.scratch s.session s.state.vfs = .ok resolved ∧
            resolved.type = .executable ∧
            ⟨resolved.data, resolved.size⟩ = image := by
  rw [← userPathOk_iff hPath]
  unfold execImage
  by_cases hOk : userPathOk env.view path = true
  · rw [if_neg (by rw [hOk]; decide)]
    cases vfsResolve env.images (bufferAt env.view path) env.scratch s.session s.state.vfs with
    | error code =>
      constructor
      · intro hError
        cases hError
      · rintro ⟨-, resolved, hError, -⟩
        cases hError
    | ok found =>
      dsimp only
      by_cases hType : found.type = .executable
      · rw [if_neg (not_not.mpr hType)]
        constructor
        · intro hImage
          cases hImage
          exact ⟨hOk, found, rfl, hType, rfl⟩
        · rintro ⟨-, resolved, hFound, -, rfl⟩
          cases hFound
          rfl
      · rw [if_pos hType]
        constructor
        · intro hError
          cases hError
        · rintro ⟨-, resolved, hFound, hExecutable, -⟩
          cases hFound
          exact absurd hExecutable hType
  · rw [if_pos (by simpa using hOk)]
    constructor
    · intro hError
      cases hError
    · rintro ⟨hReadable, -⟩
      exact absurd hReadable hOk

/- EXEC goes back to its caller. -/
structure ExecReturned (out : SyscallOutcome) : Prop where
  created : out.system.state.execProcessCreated = false
  spawned : out.system.state.execSpawnedPid = 0
  refused : out.system.state.exec.execLoaded = true → out.result ≠ some syscallRetOk

/- EXEC asks for the tables of the new process. -/
structure ExecStarted (pid : Nat) (out : SyscallOutcome) : Prop where
  result : out.result = some syscallRetOk
  loaded : out.system.state.exec.execLoaded = true
  created : out.system.state.execProcessCreated = true
  spawned : out.system.state.execSpawnedPid = pid
  requested : out.system.state.execCr3SwitchRequested = true
  target : out.system.state.execTargetCr3 = out.system.processes.counters.lastUserCr3

/- What every EXEC leaves to the next call. -/
structure ExecKeeps (builder : BuilderState) (staging : Nat) (s : DispatchSystem)
    (out : SyscallOutcome) : Prop where
  currentPid : out.system.state.currentPid = s.state.currentPid
  vfs : out.system.state.vfs = s.state.vfs
  live : out.system.state.exec.Live staging
  ready : KernelReady builder out.system.processes

/- The fields EXEC resets before it looks at its path. -/
def DispatchSystem.execCleared (s : DispatchSystem) : DispatchSystem :=
  { s with
    state :=
      { s.state with
        exec :=
          { s.state.exec with
            execLoaded := false
            execEntry := 0 }
        execProcessCreated := false
        execCr3SwitchRequested := false
        execSpawnedPid := 0
        execTargetCr3 := 0 } }

theorem sysExec_error {path code : Nat} {s : DispatchSystem}
    (hImage : execImage env path s = .error code) :
    sysExec env path s = s.execCleared.reply code [] := by
  have hSame : execImage env path s.execCleared = .error code := hImage
  unfold DispatchSystem.execCleared at hSame ⊢
  unfold sysExec
  dsimp only
  rw [hSame]

theorem sysExec_ok {path : Nat} {s : DispatchSystem} {image : UserImage} {exec : ExecState}
    {processes : ProcessSystem} (hImage : execImage env path s = .ok image)
    (hRun : execProgram (stringAt env.view path) image
        s.execCleared.state.exec s.processes = (pid, exec, processes)) :
    sysExec env path s = if pid = 0 then
        { s.execCleared with
          processes := processes
          state :=
            { s.execCleared.state with
              exec := exec
              execSpawnedPid := pid } }.reply syscallRetEinval []
      else
        { s.execCleared with
          processes := processes
          state :=
            { s.execCleared.state with
              exec := exec
              execSpawnedPid := pid
              execTargetCr3 := processes.counters.lastUserCr3
              execCr3SwitchRequested := decide (processes.counters.lastUserCr3 ≠ 0)
              execProcessCreated := true } }.reply
          syscallRetOk [] := by
  have hSame : execImage env path s.execCleared = .ok image := hImage
  unfold DispatchSystem.execCleared at hSame hRun ⊢
  unfold sysExec
  dsimp only at hRun ⊢
  rw [hSame]
  dsimp only
  rw [hRun]

theorem sysExec_outcome {boot : ProcessSystem} {staging path : Nat} {s : DispatchSystem}
    (hStaging : StagingArea builder boot staging) (hLive : s.state.exec.Live staging)
    (hReady : KernelReady builder s.processes) (hPath : path < 18446744073709551616)
    (env : SyscallEnv) :
    ExecKeeps builder staging s (sysExec env path s) ∧
      ((¬ ExecAccepted env path s ∧ ExecReturned (sysExec env path s) ∧
          SlotsKept s.processes (sysExec env path s).system.processes) ∨
        (ExecAccepted env path s ∧
          (∃ i, ProcessAdded s.processes (sysExec env path s).system.processes i) ∧
          (s.processes.nextPid = 0 → ExecReturned (sysExec env path s)) ∧
          (s.processes.nextPid ≠ 0 → ExecStarted s.processes.nextPid (sysExec env path s)))) := by
  have hCleared : s.execCleared.state.exec.Live staging :=
    ⟨hLive.nonzero, hLive.codePage, hLive.pages⟩
  have hFile := @execImage_ok_iff env path hPath s
  rcases hImage : execImage env path s with code | image
  · -- no such file, or not one that can run
    rw [sysExec_error hImage]
    refine ⟨⟨rfl, rfl, hCleared, hReady⟩, Or.inl ⟨?_, ⟨rfl, rfl, ?_⟩,
      fun _ _ => rfl, fun _ hUnused => hUnused, rfl⟩⟩
    · intro hAccepted
      obtain ⟨resolved, hFound, hType, -⟩ := hAccepted.file
      have hOk := (hFile ⟨resolved.data, resolved.size⟩).mpr
          ⟨hAccepted.readable, resolved, hFound, hType, rfl⟩
      rw [hImage] at hOk
      cases hOk
    · intro hLoaded
      cases hLoaded
  · obtain ⟨hReadable, resolved, hFound, hType, hSame⟩ := (hFile image).mp hImage
    have hAccepted :
        ExecAccepted env path s ↔ ExecutableImage image ∧ RoomForProcess s.processes := by
      constructor
      · intro hAll
        obtain ⟨other, hOther, -, hExecutable⟩ := hAll.file
        rw [hFound] at hOther
        cases hOther
        rw [hSame] at hExecutable
        exact ⟨hExecutable, hAll.room⟩
      · rintro ⟨hExecutable, hRoom⟩
        rw [← hSame] at hExecutable
        exact ⟨hReadable, ⟨resolved, hFound, hType, hExecutable⟩, hRoom⟩
    rcases hRun : execProgram (stringAt env.view path) image s.execCleared.state.exec s.processes
      with ⟨pid, exec, processes⟩
    obtain ⟨hLive', hReady', hOutcome⟩ := execProgram_outcome hStaging hCleared hReady hRun
    rw [sysExec_ok hImage hRun, hAccepted]
    rcases hOutcome with ⟨hRefused, rfl, hKept⟩ | ⟨hBoth, rfl, hLoaded, i, hAdded⟩
    · rw [if_pos rfl]
      refine ⟨⟨rfl, rfl, hLive', hReady'⟩, Or.inl ⟨hRefused, ⟨rfl, rfl, ?_⟩, hKept⟩⟩
      intro _ hResult
      exact absurd (Option.some.inj hResult) (by decide)
    · have hTarget : processes.counters.lastUserCr3 ≠ 0 := by
        rw [hAdded.target]
        exact hReady'.range.nonzero _ hAdded.cr3
      by_cases hZero : s.processes.nextPid = 0
      · rw [if_pos hZero]
        refine ⟨⟨rfl, rfl, hLive', hReady'⟩, Or.inr ⟨hBoth, ⟨i, hAdded⟩,
          fun _ => ⟨rfl, hZero, ?_⟩, fun hPid => absurd hZero hPid⟩⟩
        intro _ hResult
        exact absurd (Option.some.inj hResult) (by decide)
      · rw [if_neg hZero]
        refine ⟨⟨rfl, rfl, hLive', hReady'⟩, Or.inr ⟨hBoth, ⟨i, hAdded⟩,
          fun hPid => absurd hPid hZero, fun _ => ?_⟩⟩
        exact ⟨rfl, hLoaded, rfl, rfl, decide_eq_true hTarget, rfl⟩

end LiamOS.X64
