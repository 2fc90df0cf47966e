import LiamOS.X64.Syscall.Exec

/-
  The loop around user mode of the x86_64 kernel: `user_mode.c` and `user_mode.asm` with the
  system call stub of `idt_stubs.asm`, all of `kernel/arch/x86_64`.

  One program runs at a time. EXEC saves the tables that are active and loads those of the new
  process; EXIT loads the saved tables and returns to the loop, which reaps the process and enters
  the shell again. The bytes a call stores for its caller are left out, as EXEC and EXIT store
  none, and so are the flags that are only reported.

  Key definitions: `UserModeState`, `UserMode`, `SyscallFrame`, `syscallDispatchFrame`,
  `userModeSyscallEntry`, `exitToKernel`, `reapChild`, `returnToKernel`, `userModeSyscall`,
  `userModeStartInit`.
-/

namespace LiamOS.X64

open Word PageTable

variable {builder : BuilderState} {s : ProcessSystem}

----------
-- State

structure UserModeState where
  currentPid : Nat
  exitCode : Nat
  childReturnCount : Nat
  childReapCount : Nat
  lastChildPid : Nat
  lastChildExitCode : Nat
  lastChildReapOk : Bool

/-
  The kernel around a program, with the register CR3, the saved `x86_64_user_mode_kernel_cr3` and
  the address at which user mode goes on.
-/
structure UserMode where
  state : UserModeState
  dispatch : DispatchSystem
  cr3 : Nat
  kernelCr3 : Nat
  userRip : Nat
  halted : Bool

/- What the stub reads back from the frame of a call. -/
structure SyscallFrame where
  result : Option Nat
  userRip : Nat
  exitRequested : Bool
  cr3SwitchRequested : Bool
  targetCr3 : Nat

----------
-- A Call

def syscallDispatchFrame (env : SyscallEnv) (call : SyscallCall) (userRip : Nat)
    (s : DispatchSystem) : SyscallFrame × DispatchSystem :=
  let out := syscallDispatch env call s
  let state := out.system.state
  let service := syscallService call.number.toNat
  let started := decide (service = some .exec) && decide (out.result = some syscallRetOk) &&
      state.exec.execLoaded
  ({ result := out.result
     userRip := if started then state.exec.execEntry else userRip
     exitRequested := decide (service = some .exit) && decide (out.result = some syscallRetOk)
     cr3SwitchRequested := if started then state.execCr3SwitchRequested else false
     targetCr3 := if started then state.execTargetCr3 else 0 },
    out.system)

def userModeSyscallEntry (env : SyscallEnv) (call : SyscallCall) (userRip : Nat)
    (m : UserMode) : SyscallFrame × UserMode :=
  match syscallDispatchFrame env call userRip m.dispatch with
  | (frame, dispatch) =>
    let m := { m with dispatch := dispatch }
    let spawned := dispatch.state.execSpawnedPid
    match syscallService call.number.toNat with
    | some .exec =>
      if frame.result = some syscallRetOk ∧ spawned ≠ 0 then
        (frame,
          { m with
            state := { m.state with currentPid := spawned }
            dispatch :=
              { dispatch with
                state := { dispatch.state with currentPid := spawned } } })
      else
        (frame, m)
    | some .exit =>
      (frame,
        { m with
          state := { m.state with exitCode := dispatch.state.exitCode } })
    | _ => (frame, m)

----------
-- The Way Back

def exitToKernel (m : UserMode) : UserMode := if m.kernelCr3 = 0 then
    m
  else
    { m with cr3 := m.kernelCr3, kernelCr3 := 0 }

/- The three calls the loop makes for a program that exited. -/
def reapChild (currentPid returnedPid exitCode : Nat) (s : ProcessSystem) : Bool × ProcessSystem :=
  match processMarkUserExited returnedPid exitCode s with
  | (markedExited, s) =>
    match processRecordChildExit currentPid returnedPid exitCode s with
    | (recordedChild, s) =>
      match processReapUser returnedPid s with
      | (reaped, s) => (markedExited && recordedChild && reaped, s)

/-
  The body of the loop of `x86_64_user_mode_start_init` from the return of
  `x86_64_user_mode_enter_init` to its next call.
-/
def returnToKernel (staging currentPid : Nat) (m : UserMode) : UserMode :=
  let returnedPid := m.dispatch.state.currentPid
  if returnedPid = currentPid then
    { m with halted := true }
  else
    match reapChild currentPid returnedPid m.state.exitCode m.dispatch.processes with
    | (reapOk, processes) =>
      { m with
        userRip := userCodeBase
        state :=
          { currentPid := currentPid
            exitCode := m.state.exitCode
            childReturnCount := u32 (m.state.childReturnCount + 1)
            childReapCount := if reapOk then
                u32 (m.state.childReapCount + 1)
              else
                m.state.childReapCount
            lastChildPid := returnedPid
            lastChildExitCode := m.state.exitCode
            lastChildReapOk := reapOk }
        dispatch :=
          { m.dispatch with
            processes := processes
            state := initializeLiveDispatcher staging currentPid m.dispatch.keyboard } }

/- `x86_64_syscall_entry_stub`, up to the next user program. -/
def userModeSyscall (staging currentPid : Nat) (env : SyscallEnv) (call : SyscallCall)
    (userRip : Nat)
    (m : UserMode) : UserMode :=
  match userModeSyscallEntry env call userRip m with
  | (frame, m) =>
    if frame.exitRequested then
      returnToKernel staging currentPid (exitToKernel m)
    else
      let m := { m with userRip := frame.userRip }
      if frame.cr3SwitchRequested = true ∧ frame.targetCr3 ≠ 0 then
        { m with kernelCr3 := m.cr3, cr3 := frame.targetCr3 }
      else
        m

/-
  `x86_64_user_mode_start_init` up to its loop, on the tables of the builder. `reserveShellPid` is
  the address of the entry the shell's process is made with.
-/
def userModeStartInit (builder : BuilderState) (staging currentPid reserveShellPid : Nat)
    (d : DispatchSystem) : UserMode where
  state := ⟨currentPid, 0, 0, 0, 0, 0, false⟩
  dispatch :=
    { d with
      processes := if currentPid = 1 then
          (processCreate (textBytes "shell") reserveShellPid (processInitialize d.processes)).2
        else
          processInitialize d.processes
      state := initializeLiveDispatcher staging currentPid d.keyboard }
  cr3 := builder.tables .pml4Table
  kernelCr3 := 0
  userRip := userCodeBase
  halted := false

theorem initializeLiveDispatcher_live {staging : Nat} (hNonzero : staging ≠ 0) (currentPid : Nat)
    (k : KeyboardDriver) :
    (initializeLiveDispatcher staging currentPid k).exec.Live staging :=
  ⟨hNonzero, rfl, fun _ hi => if_pos hi⟩

----------
-- Reaping The Child

/- A child that is marked, recorded and reaped. -/
structure ChildReaped (currentPid pid exitCode : Nat) (i : Fin 64)
    (s s' : ProcessSystem) : Prop where
  table : s'.table = Function.update s.table i clearedProcess
  pages : ∀ p ∈ (s.table i).ownedPages, p ∈ s'.pmm.stack
  recorded : ⟨currentPid, pid, exitCode⟩ ∈ s'.childStatusQueue
  nextPid : s'.nextPid = s.nextPid

theorem processRecordChildExit_eq {parentPid childPid : Nat} (exitCode : Nat)
    (hParent : parentPid ≠ 0) (hChild : childPid ≠ 0) (hOther : parentPid ≠ childPid)
    (s : ProcessSystem) :
    ∃ (counters : ProcessCounters) (queue : List ChildStatus),
      counters.initialized = s.counters.initialized ∧ ⟨parentPid, childPid, exitCode⟩ ∈ queue ∧
        processRecordChildExit parentPid childPid exitCode s =
          (true,
            { s with
              counters := counters
              childStatusQueue := queue }) := by
  unfold processRecordChildExit
  rw [if_neg (by omega)]
  refine ⟨_, _, ?_, ?_, rfl⟩
  · rfl
  · exact List.mem_append_right _ (List.mem_singleton_self _)

/- The process that is given back its pages to the manager. -/
theorem KernelReady.release (hReady : KernelReady builder s) (i : Fin 64) :
    ∀ p ∈ (s.table i).ownedPages, p ∈ (releaseProcessResources (s.slot i)).pmm.stack := by
  have hSlot := hReady.sound.slot i
  have hLedger : (s.slot i).ledger.Subperm s.ledger :=
    (List.sublist_append_right _ _).subperm.trans (s.ledger_perm i).symm.subperm
  have hRange : PagesInRange (s.slot i).pmm (s.slot i).ledger :=
    hReady.range.of_subperm (SameRange.refl _) hLedger
  have hPerm := releaseProcessResources_perm hRange hSlot.nodup hSlot.aligned
  intro p hp
  exact hPerm.mem_iff.mpr (List.mem_append_left _ hp)

theorem reapChild_reaps {currentPid pid : Nat} {i : Fin 64} (exitCode : Nat)
    (hReady : KernelReady builder s) (hCurrent : currentPid ≠ 0) (hPid : pid ≠ 0)
    (hOther : currentPid ≠ pid) (hFind : s.findProcessByPid pid = some i)
    (hMode : (s.table i).mode = .user)
    (hOnly : ∀ j, (s.table j).state ≠ .unused → (s.table j).pid = pid → j = i) :
    ∃ s', reapChild currentPid pid exitCode s = (true, s') ∧ KernelReady builder s' ∧
      ChildReaped currentPid pid exitCode i s s' := by
  -- marked
  obtain ⟨counters₁, hInit₁, hMark⟩ := processMarkUserExited_eq exitCode hFind hMode
  have hStep₁ := processMarkUserExited_step pid exitCode s
  rw [hMark] at hStep₁
  have hReady₁ := hReady.of_step hStep₁ (SameRange.refl _) hInit₁
  have hPidI := (findProcessByPid_some hFind).2
  -- recorded
  generalize hS₁ :
    ({ s.setProcess i
        { s.table i with
          state := .exited
          exitCode := exitCode } with
      counters := counters₁ } : ProcessSystem) = s₁
    at hMark hReady₁
  have hTable₁ : s₁.table = Function.update s.table i
          { s.table i with
            state := .exited
            exitCode := exitCode } := by
    rw [← hS₁]
    rfl
  obtain ⟨counters₂, queue, hInit₂, hRecorded, hRecord⟩ :=
    processRecordChildExit_eq exitCode hCurrent hPid hOther s₁
  have hReady₂ : KernelReady builder
        { s₁ with
          counters := counters₂
          childStatusQueue := queue } :=
    hReady₁.of_step (.same ⟨rfl, rfl, rfl, rfl, rfl⟩) (SameRange.refl _) hInit₂
  generalize hS₂ :
    ({ s₁ with
      counters := counters₂
      childStatusQueue := queue } : ProcessSystem) = s₂
    at hRecord hReady₂
  have hTable₂ : s₂.table = s₁.table := by rw [← hS₂]
  have hProcess : s₂.table i =
        { s.table i with
          state := .exited
          exitCode := exitCode } := by
    rw [hTable₂, hTable₁, Function.update_self]
  have hFind₂ : s₂.findProcessByPid pid = some i := by
    refine findProcessByPid_eq ?_ ?_ ?_
    · rw [hProcess]
      exact nofun
    · rw [hProcess]
      exact hPidI
    · intro j hUsed hSame
      by_contra hNe
      rw [hTable₂, hTable₁, Function.update_of_ne hNe] at hUsed hSame
      exact hNe (hOnly j hUsed hSame)
  -- reaped
  have hReapable : reapable (s₂.table i) = true := by
    rw [hProcess]
    unfold reapable
    simp [hMode]
  obtain ⟨counters₃, hInit₃, hReap⟩ := processReapUser_eq hFind₂ hReapable
  have hStep₃ := processReapUser_step pid s₂
  rw [hReap] at hStep₃
  have hReady₃ :=
    hReady₂.of_step hStep₃ ((releasePages_sameRange _ _).trans (releasePages_sameRange _ _)) hInit₃
  refine ⟨_, ?_, hReady₃, ?_, ?_, ?_, ?_⟩
  · unfold reapChild
    rw [hMark]
    dsimp only
    rw [hRecord]
    dsimp only
    rw [hReap]
    rfl
  · show Function.update s₂.table i clearedProcess = _
    rw [hTable₂, hTable₁, Function.update_idem]
  · have hFreed := hReady₂.release i
    rw [hProcess] at hFreed
    exact hFreed
  · show _ ∈ s₂.childStatusQueue
    rw [← hS₂]
    exact hRecorded
  · show s₂.nextPid = s.nextPid
    rw [← hS₂, ← hS₁]
    rfl

----------
-- Calls Of A Program

def execCall (call : SyscallCall) : SyscallCall := { call with number := 8 }

def exitCall (call : SyscallCall) : SyscallCall := { call with number := 1 }

section Calls

variable {staging currentPid : Nat}
variable {env : SyscallEnv}
variable {call : SyscallCall}
variable {userRip : Nat}
variable {m : UserMode}

/- The dispatcher with its call counted. -/
def DispatchSystem.counted (s : DispatchSystem) (number : Nat) : DispatchSystem :=
  { s with
    state :=
      { s.state with
        dispatchCalls := u32 (s.state.dispatchCalls + 1)
        lastSyscall := number } }

theorem syscallDispatch_exec (env : SyscallEnv) (call : SyscallCall) (s : DispatchSystem) :
    syscallDispatch env (execCall call) s = sysExec env call.arg0.toNat (s.counted 8) := rfl

/- EXEC that goes back to its caller. -/
theorem userModeSyscall_execReturned
    (hReturned : ExecReturned (sysExec env call.arg0.toNat (m.dispatch.counted 8))) :
    userModeSyscall staging currentPid env (execCall call) userRip m =
      { m with
        dispatch := (sysExec env call.arg0.toNat (m.dispatch.counted 8)).system
        userRip := userRip } := by
  have hDispatch := syscallDispatch_exec env call m.dispatch
  generalize hOut : sysExec env call.arg0.toNat (m.dispatch.counted 8) = out
    at hReturned hDispatch ⊢
  have hStarted :
      (decide (out.result = some syscallRetOk) && out.system.state.exec.execLoaded) = false := by
    rw [Bool.and_eq_false_iff, decide_eq_false_iff_not]
    cases hLoaded : out.system.state.exec.execLoaded with
    | false => exact Or.inr rfl
    | true => exact Or.inl (hReturned.refused hLoaded)
  have hFrame : syscallDispatchFrame env (execCall call) userRip m.dispatch =
        (⟨out.result, userRip, false, false, 0⟩, out.system) := by
    unfold syscallDispatchFrame
    rw [hDispatch]
    dsimp only
    rw [show decide (syscallService (execCall call).number.toNat = some .exec) = true from rfl,
      show decide (syscallService (execCall call).number.toNat = some .exit) = false
        from rfl, Bool.true_and, hStarted]
    rfl
  have hEntry : userModeSyscallEntry env (execCall call) userRip m =
        (⟨out.result, userRip, false, false, 0⟩, { m with dispatch := out.system }) := by
    unfold userModeSyscallEntry
    rw [hFrame]
    exact if_neg fun hBoth => hBoth.2 hReturned.spawned
  unfold userModeSyscall
  rw [hEntry]
  rfl

/- EXEC that starts the new process. -/
theorem userModeSyscall_execStarted {pid : Nat}
    (hStarted : ExecStarted pid (sysExec env call.arg0.toNat (m.dispatch.counted 8)))
    (hPid : pid ≠ 0)
    (hTarget : (sysExec env call.arg0.toNat
        (m.dispatch.counted 8)).system.processes.counters.lastUserCr3 ≠ 0) :
    ∃ rip, userModeSyscall staging currentPid env (execCall call) userRip m =
        { m with
          state := { m.state with currentPid := pid }
          dispatch :=
            { (sysExec env call.arg0.toNat
                (m.dispatch.counted 8)).system with
              state :=
                { (sysExec env call.arg0.toNat
                    (m.dispatch.counted 8)).system.state with
                  currentPid := pid } }
          userRip := rip
          kernelCr3 := m.cr3
          cr3 :=
            (sysExec env call.arg0.toNat
              (m.dispatch.counted 8)).system.processes.counters.lastUserCr3 } := by
  have hDispatch := syscallDispatch_exec env call m.dispatch
  generalize hOut : sysExec env call.arg0.toNat (m.dispatch.counted 8) = out
    at hStarted hDispatch hTarget ⊢
  have hFrame : syscallDispatchFrame env (execCall call) userRip m.dispatch =
        (⟨out.result, out.system.state.exec.execEntry, false, true,
          out.system.processes.counters.lastUserCr3⟩, out.system) := by
    unfold syscallDispatchFrame
    rw [hDispatch]
    dsimp only
    rw [show decide (syscallService (execCall call).number.toNat = some .exec) = true from rfl,
      show decide (syscallService (execCall call).number.toNat = some .exit) = false
        from rfl, decide_eq_true hStarted.result, hStarted.loaded,
      hStarted.requested, hStarted.target]
    rfl
  have hEntry : userModeSyscallEntry env (execCall call) userRip m =
        (⟨out.result, out.system.state.exec.execEntry, false, true,
          out.system.processes.counters.lastUserCr3⟩,
          { m with
            state := { m.state with currentPid := pid }
            dispatch :=
              { out.system with
                state := { out.system.state with currentPid := pid } } }) := by
    unfold userModeSyscallEntry
    rw [hFrame]
    dsimp only
    rw [hStarted.spawned]
    exact if_pos ⟨hStarted.result, hPid⟩
  refine ⟨out.system.state.exec.execEntry, ?_⟩
  unfold userModeSyscall
  rw [hEntry]
  dsimp only
  rw [if_neg (show ¬ false = true from nofun), if_pos (And.intro rfl hTarget)]

/- The dispatcher once a program has exited. -/
def DispatchSystem.exited (s : DispatchSystem) (exitCode : Nat) : DispatchSystem :=
  { s.counted 1 with
    state :=
      { (s.counted 1).state with
        exitCode := exitCode
        lastResult := syscallRetOk } }

theorem syscallDispatch_exit (env : SyscallEnv) (call : SyscallCall) (s : DispatchSystem) :
    syscallDispatch env (exitCall call) s =
      ⟨some syscallRetOk, [], s.exited (u32 call.arg0.toNat)⟩ := rfl

/- EXIT returns to the loop with the code of the program. -/
theorem userModeSyscall_exit (staging currentPid : Nat) (env : SyscallEnv) (call : SyscallCall)
    (userRip : Nat) (m : UserMode) :
    userModeSyscall staging currentPid env (exitCall call) userRip m =
      returnToKernel staging currentPid
        (exitToKernel
          { m with
            state := { m.state with exitCode := u32 call.arg0.toNat }
            dispatch := m.dispatch.exited (u32 call.arg0.toNat) }) := by
  have hFrame : syscallDispatchFrame env (exitCall call) userRip m.dispatch =
        (⟨some syscallRetOk, userRip, true, false, 0⟩,
          m.dispatch.exited (u32 call.arg0.toNat)) := by
    unfold syscallDispatchFrame
    rw [syscallDispatch_exit]
    dsimp only
    rw [show decide (syscallService (exitCall call).number.toNat = some .exec) = false from rfl,
      show decide (syscallService (exitCall call).number.toNat = some .exit) = true from rfl]
    rfl
  have hEntry : userModeSyscallEntry env (exitCall call) userRip m =
        (⟨some syscallRetOk, userRip, true, false, 0⟩,
          { m with
            state := { m.state with exitCode := u32 call.arg0.toNat }
            dispatch := m.dispatch.exited (u32 call.arg0.toNat) }) := by
    unfold userModeSyscallEntry
    rw [hFrame]
    rfl
  unfold userModeSyscall
  rw [hEntry]
  exact if_pos rfl

end Calls

end LiamOS.X64
