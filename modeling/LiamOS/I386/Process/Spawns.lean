import LiamOS.I386.Process.Model

/-
  The counters of `kernel/core/exec.c`.

  The lookup of the image, the creation of the process, its configuration and its run are
  parameters, as the status each of them returns. A program that runs may start further programs
  by EXEC, so the calls made during a run are part of the call that runs it.

  Main declarations: `ExecInfo`, `ExecInfo.spawn`, `spawnsAccounted_iff`.
-/

namespace LiamOS.I386

open Word

/- `exec_info_t`. -/
structure ExecInfo where
  spawnAttempts : Nat
  successfulSpawns : Nat
  failedSpawns : Nat
deriving DecidableEq

def execInitialize : ExecInfo := ⟨0, 0, 0⟩

/- What the four functions behind a creation return, in the order in which they are called. -/
structure CreationAnswers where
  userImageLookup : KernelStatus
  processCreate : KernelStatus
  processConfigureImagePath : KernelStatus
  processConfigureArguments : KernelStatus
deriving DecidableEq

/- The first failure, or success. -/
def CreationAnswers.status (a : CreationAnswers) : KernelStatus :=
  if a.userImageLookup ≠ .ok then
    a.userImageLookup
  else if a.processCreate ≠ .ok then
    a.processCreate
  else if a.processConfigureImagePath ≠ .ok then
    a.processConfigureImagePath
  else
    a.processConfigureArguments

namespace ExecInfo

def fail (info : ExecInfo) : ExecInfo := { info with failedSpawns := u32 (info.failedSpawns + 1) }

/- `exec_create_with_args` with a path; `outProcess` is the pointer for the process. -/
def createWithArgs (info : ExecInfo) (outProcess : Nat) (a : CreationAnswers) :
    KernelStatus × ExecInfo :=
  if outProcess = 0 then
    (.invalidArgument, info)
  else
    let info := { info with spawnAttempts := u32 (info.spawnAttempts + 1) }
    if a.status ≠ .ok then
      (a.status, info.fail)
    else
      (.ok, { info with successfulSpawns := u32 (info.successfulSpawns + 1) })

theorem createWithArgs_status (info : ExecInfo) (a : CreationAnswers) :
    (info.createWithArgs 1 a).1 = a.status := by
  by_cases hStatus : a.status = .ok
  · simp [createWithArgs, hStatus]
  · simp [createWithArgs, hStatus]

/- The rest of `exec_spawn_with_args` behind `process_run`. -/
def ran (info : ExecInfo) (status : KernelStatus) : ExecInfo :=
  if status ≠ .ok then info.fail else info

end ExecInfo

/-
  A call with a path. `exec_spawn` is `exec_spawn_with_args` with empty arguments; `during` are
  the calls made while its program runs.
-/
inductive ExecCall
| create (outProcess : Nat) (a : CreationAnswers)
| spawn (a : CreationAnswers) (during : List ExecCall) (processRun : KernelStatus)

mutual

def ExecInfo.after (info : ExecInfo) : ExecCall → ExecInfo
| .create outProcess a => (info.createWithArgs outProcess a).2
| .spawn a during processRun =>
    -- the pointer handed on is the address of a local variable
    let created := info.createWithArgs 1 a
    if created.1 ≠ .ok then
      created.2
    else
      (created.2.afterAll during).ran processRun

def ExecInfo.afterAll (info : ExecInfo) : List ExecCall → ExecInfo
| [] => info
| call :: calls => (info.after call).afterAll calls

end

mutual

/- The spawns, those made during runs included, whose process was created and failed to run. -/
def ExecCall.failedRuns : ExecCall → Nat
| .create _ _ => 0
| .spawn a during processRun => if a.status ≠ .ok then
      0
    else
      failedRunsOf during + if processRun ≠ .ok then 1 else 0

def failedRunsOf : List ExecCall → Nat
| [] => 0
| call :: calls => call.failedRuns + failedRunsOf calls

end

/- Every attempt is counted as a success or as a failure, in counters of 32 bits. -/
def ExecInfo.Accounted (info : ExecInfo) : Prop :=
  info.spawnAttempts = u32 (info.successfulSpawns + info.failedSpawns)

/- `extra` counts more than there are attempts. -/
def ExecInfo.Ahead (info : ExecInfo) (extra : Nat) : Prop :=
  info.spawnAttempts < 4294967296 ∧
    u32 (info.spawnAttempts + extra) = u32 (info.successfulSpawns + info.failedSpawns)

namespace ExecInfo.Ahead

variable {info : ExecInfo} {extra : Nat}

theorem createWithArgs (hAhead : info.Ahead extra) (outProcess : Nat) (a : CreationAnswers) :
    (info.createWithArgs outProcess a).2.Ahead extra := by
  obtain ⟨hWord, hSum⟩ := hAhead
  unfold ExecInfo.createWithArgs
  split_ifs
  · exact ⟨hWord, hSum⟩
  · refine ⟨u32_lt _, ?_⟩
    simp only [ExecInfo.fail, u32] at hSum ⊢
    omega
  · refine ⟨u32_lt _, ?_⟩
    simp only [u32] at hSum ⊢
    omega

theorem ran (hAhead : info.Ahead extra) (status : KernelStatus) :
    (info.ran status).Ahead (extra + if status ≠ .ok then 1 else 0) := by
  obtain ⟨hWord, hSum⟩ := hAhead
  unfold ExecInfo.ran
  split_ifs
  · refine ⟨hWord, ?_⟩
    simp only [ExecInfo.fail, u32] at hSum ⊢
    omega
  · exact ⟨hWord, hSum⟩

mutual

theorem after {info : ExecInfo} {extra : Nat} (hAhead : info.Ahead extra) :
    ∀ call : ExecCall, (info.after call).Ahead (extra + call.failedRuns)
  | .create outProcess a => hAhead.createWithArgs outProcess a
  | .spawn a during processRun => by
    have hCreated := hAhead.createWithArgs 1 a
    rw [ExecInfo.after, ExecCall.failedRuns, createWithArgs_status]
    by_cases hStatus : a.status ≠ .ok
    · rw [if_pos hStatus, if_pos hStatus]
      exact hCreated
    · rw [if_neg hStatus, if_neg hStatus, ← Nat.add_assoc]
      exact (hCreated.afterAll during).ran processRun

theorem afterAll {info : ExecInfo} {extra : Nat} (hAhead : info.Ahead extra) :
    ∀ calls : List ExecCall, (info.afterAll calls).Ahead (extra + failedRunsOf calls)
  | [] => hAhead
  | call :: calls => by
    rw [ExecInfo.afterAll, failedRunsOf, ← Nat.add_assoc]
    exact (hAhead.after call).afterAll calls

end

end ExecInfo.Ahead

/- A spawn whose process fails to run is counted as a success first and then as a failure. -/
theorem spawnsAccounted_iff (calls : List ExecCall) :
    (execInitialize.afterAll calls).Accounted ↔ 4294967296 ∣ failedRunsOf calls := by
  have hStart : execInitialize.Ahead 0 := ⟨by decide, by decide⟩
  obtain ⟨hWord, hSum⟩ := hStart.afterAll calls
  simp only [ExecInfo.Accounted, u32] at hSum ⊢
  omega

theorem failed_run_counted_twice :
    execInitialize.afterAll [.spawn ⟨.ok, .ok, .ok, .ok⟩ [] .outOfMemory] = ⟨1, 1, 1⟩ ∧
      ¬ (execInitialize.afterAll [.spawn ⟨.ok, .ok, .ok, .ok⟩ [] .outOfMemory]).Accounted := by
  refine ⟨by decide +kernel, ?_⟩
  unfold ExecInfo.Accounted
  decide +kernel

end LiamOS.I386
