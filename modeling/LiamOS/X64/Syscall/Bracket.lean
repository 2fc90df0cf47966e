import LiamOS.X64.Syscall.UserMode

/-
  The bracket of EXEC and EXIT.

  The shell starts a program with EXEC and goes on when the program exits. There is one place for
  the tables to go back to and one pid of the program that runs. So the bracket closes as it
  should exactly if no program that the shell has started starts another, and no program gets the
  shell's pid.

  Main declarations: `bracketLaw_iff_startedByShell`.
-/

namespace LiamOS.X64

open Word PageTable

variable {m m' : UserMode} {boot s s' : ProcessSystem} {env : SyscallEnv} {i j k : Fin 64}

----------
-- Runs

def shellPid : Nat := 1

/- The tables and the processes in front of the shell's EXEC. -/
structure Bracket where
  cr3 : Nat
  processes : ProcessSystem

/- The kernel, with the bracket while a program runs. -/
structure BracketRun where
  machine : UserMode
  bracket : Option Bracket

/- The calls of the programs, and what they write. -/
inductive BracketCall
| exec (env : SyscallEnv) (call : SyscallCall) (userRip : Nat)
| exit (env : SyscallEnv) (call : SyscallCall) (userRip : Nat)
| write (address : Nat) (byte : UInt8)

def UserMode.write (m : UserMode) (address : Nat) (byte : UInt8) : UserMode :=
  { m with
    dispatch :=
      { m.dispatch with
        processes :=
          { m.dispatch.processes with
            mem := Function.update m.dispatch.processes.mem address byte } } }

namespace BracketRun

def started (builder : BuilderState) (staging reserveShellPid : Nat)
    (d : DispatchSystem) : BracketRun where
  machine := userModeStartInit builder staging shellPid reserveShellPid d
  bracket := none

/- The bracket behind an EXEC that led to a machine. -/
def opened (r : BracketRun) (machine : UserMode) : Option Bracket :=
  match r.bracket with
  | some bracket => some bracket
  | none =>
    if machine.dispatch.state.execProcessCreated then
      some ⟨r.machine.cr3, r.machine.dispatch.processes⟩
    else
      none

def step (builder : BuilderState) (staging : Nat) (r : BracketRun) : BracketCall → Unit × BracketRun
| .exec env call userRip =>
    if r.machine.halted then
      ((), r)
    else
      let machine := userModeSyscall staging shellPid env (execCall call) userRip r.machine
      ((), ⟨machine, r.opened machine⟩)
| .exit env call userRip =>
    if r.machine.halted then
      ((), r)
    else
      ((), ⟨userModeSyscall staging shellPid env (exitCall call) userRip r.machine, none⟩)
| .write address byte =>
    -- user mode has no way to the tables of the kernel
    if pageOf address ∈ allBuilderPages.map builder.tables then
      ((), r)
    else
      ((), { r with machine := r.machine.write address byte })

section Step

variable {builder : BuilderState}
variable {staging : Nat}
variable {r : BracketRun}

theorem step_exec_of_halted (hHalted : r.machine.halted = true) (env : SyscallEnv)
    (call : SyscallCall) (userRip : Nat) :
    (step builder staging r (.exec env call userRip)).2 = r := by
  unfold step
  dsimp only
  rw [if_pos hHalted]

theorem step_exec (hRunning : r.machine.halted = false) (env : SyscallEnv) (call : SyscallCall)
    (userRip : Nat) {m' : UserMode}
    (hRun : userModeSyscall staging shellPid env (execCall call) userRip r.machine = m') :
    (step builder staging r (.exec env call userRip)).2 = ⟨m', r.opened m'⟩ := by
  unfold step
  dsimp only
  rw [if_neg (ne_true_of_eq_false hRunning), hRun]

theorem step_exit_of_halted (hHalted : r.machine.halted = true) (env : SyscallEnv)
    (call : SyscallCall) (userRip : Nat) :
    (step builder staging r (.exit env call userRip)).2 = r := by
  unfold step
  dsimp only
  rw [if_pos hHalted]

theorem step_exit (hRunning : r.machine.halted = false) (env : SyscallEnv) (call : SyscallCall)
    (userRip : Nat) :
    (step builder staging r (.exit env call userRip)).2 =
      ⟨userModeSyscall staging shellPid env (exitCall call) userRip r.machine, none⟩ := by
  unfold step
  dsimp only
  rw [if_neg (ne_true_of_eq_false hRunning)]

/- An EXEC that makes no process opens no bracket. -/
theorem opened_none (hCreated : m'.dispatch.state.execProcessCreated = false) :
    opened ⟨m, none⟩ m' = none :=
  if_neg (ne_true_of_eq_false hCreated)

theorem opened_some (hCreated : m'.dispatch.state.execProcessCreated = true) : opened ⟨m, none⟩ m' =
      some ⟨m.cr3, m.dispatch.processes⟩ :=
  if_pos hCreated

end Step

end BracketRun

----------
-- The Law

/- Marked, recorded and reaped, with its pages free again. -/
structure ChildEnded (process : Process) (m : UserMode) : Prop where
  last : m.state.lastChildPid = process.pid
  reapOk : m.state.lastChildReapOk = true
  recorded :
    ⟨shellPid, process.pid, m.state.lastChildExitCode⟩ ∈ m.dispatch.processes.childStatusQueue
  pages : ∀ p ∈ process.ownedPages, p ∈ m.dispatch.processes.pmm.stack

/- What an EXIT from one state to another has to do. -/
structure ShellResumes (bracket : Bracket) (m m' : UserMode) : Prop where
  running : m'.halted = false
  program : m'.dispatch.state.currentPid = shellPid ∧ m'.userRip = userCodeBase
  cr3 : m'.cr3 = bracket.cr3
  children : ∀ i, (bracket.processes.table i).state = .unused →
      (m.dispatch.processes.table i).state ≠ .unused → ChildEnded (m.dispatch.processes.table i) m'
  slots : ∀ i, (bracket.processes.table i).state = .unused →
      (m'.dispatch.processes.table i).state = .unused

/- While a program runs, every EXIT leads back to the shell. -/
def BracketLaw (staging : Nat) (r : BracketRun) : Prop :=
  ∀ bracket, r.bracket = some bracket → ∀ env call userRip, ShellResumes bracket r.machine
        (userModeSyscall staging shellPid env (exitCall call) userRip r.machine)

/- An EXEC that makes a process is made by the shell, and the next pid is not the shell's. -/
def StartedByShell (r : BracketRun) : BracketCall → Prop
| .exec env call _ =>
    r.machine.halted = false → ExecAccepted env call.arg0.toNat r.machine.dispatch →
        r.bracket = none ∧ r.machine.dispatch.processes.nextPid ≠ shellPid
| _ => True

----------
-- The Invariant

structure Serving (builder : BuilderState) (staging : Nat) (m : UserMode) : Prop where
  halted : m.halted = false
  live : m.dispatch.state.exec.Live staging
  ready : KernelReady builder m.dispatch.processes

/- Slots in use that no program can be mistaken for. -/
def ShellSlot (process : Process) : Prop :=
  process.state ≠ .unused → process.pid = 0 ∨ process.pid = shellPid

structure ShellRuns (builder : BuilderState) (m : UserMode) : Prop where
  cr3 : m.cr3 = builder.tables .pml4Table
  current : m.dispatch.state.currentPid = shellPid
  slots : ∀ j, ShellSlot (m.dispatch.processes.table j)

/- A program in a slot that was free in front of the bracket. -/
structure ChildRuns (builder : BuilderState) (bracket : Bracket) (i : Fin 64)
    (m : UserMode) : Prop where
  origin : bracket.cr3 = builder.tables .pml4Table
  saved : m.kernelCr3 = bracket.cr3
  tables : m.cr3 ≠ bracket.cr3
  nonzero : m.cr3 ≠ 0
  current : m.dispatch.state.currentPid = (m.dispatch.processes.table i).pid
  pid : (m.dispatch.processes.table i).pid ≠ 0 ∧ (m.dispatch.processes.table i).pid ≠ shellPid
  used : (m.dispatch.processes.table i).state ≠ .unused
  mode : (m.dispatch.processes.table i).mode = .user
  before : (bracket.processes.table i).state = .unused
  others : ∀ j, j ≠ i → ShellSlot (m.dispatch.processes.table j)
  kept : ∀ j, (bracket.processes.table j).state ≠ .unused →
      (m.dispatch.processes.table j).state ≠ .unused

/- No slot but one was filled since the bracket opened. -/
def OneChild (bracket : Bracket) (i : Fin 64) (m : UserMode) : Prop :=
  ∀ j, j ≠ i → (bracket.processes.table j).state = .unused →
    (m.dispatch.processes.table j).state = .unused

inductive BracketInvariant (builder : BuilderState) (staging : Nat) : BracketRun → Prop
| halted
    {m : UserMode}
    (hHalted : m.halted = true) :
    BracketInvariant builder staging ⟨m, none⟩
| shell
    {m : UserMode}
    (hServing : Serving builder staging m)
    (hShell : ShellRuns builder m) :
    BracketInvariant builder staging ⟨m, none⟩
| child
    {m : UserMode}
    {bracket : Bracket}
    {i : Fin 64}
    (hServing : Serving builder staging m)
    (hChild : ChildRuns builder bracket i m)
    (hOne : OneChild bracket i m) :
    BracketInvariant builder staging ⟨m, some bracket⟩

section Steps

variable {builder : BuilderState}
variable {staging : Nat}
variable {m : UserMode}
variable {bracket : Bracket}
variable {i : Fin 64}

theorem KernelReady.pml4_nonzero (hReady : KernelReady builder s) : builder.tables .pml4Table ≠ 0 :=
  hReady.sound.built.nonzero _

----------
-- Leaving A Program

/- The shell's own EXIT ends the loop. -/
theorem exit_of_shellPid (hCurrent : m.dispatch.state.currentPid = shellPid) (env : SyscallEnv)
    (call : SyscallCall) (userRip : Nat) :
    (userModeSyscall staging shellPid env (exitCall call) userRip m).halted = true := by
  rw [userModeSyscall_exit]
  unfold returnToKernel
  have hPid : ∀ d : UserMode, (exitToKernel d).dispatch = d.dispatch := by
    intro d
    unfold exitToKernel
    split <;> rfl
  dsimp only
  rw [hPid]
  rw [if_pos (show (m.dispatch.exited _).state.currentPid = shellPid from hCurrent)]

/- The tables that are saved are loaded at every EXIT. -/
theorem exit_cr3 (hSaved : m.kernelCr3 ≠ 0) (env : SyscallEnv) (call : SyscallCall)
    (userRip : Nat) :
    (userModeSyscall staging shellPid env (exitCall call) userRip m).cr3 = m.kernelCr3 := by
  rw [userModeSyscall_exit]
  unfold exitToKernel
  rw [if_neg hSaved]
  unfold returnToKernel
  dsimp only
  split <;> rfl

/- The program that runs exits as it should. -/
structure ChildExit (builder : BuilderState) (staging : Nat) (i : Fin 64)
    (m m' : UserMode) : Prop where
  serving : Serving builder staging m'
  current : m'.dispatch.state.currentPid = shellPid
  userRip : m'.userRip = userCodeBase
  cr3 : m'.cr3 = m.kernelCr3
  last : m'.state.lastChildPid = (m.dispatch.processes.table i).pid
  reapOk : m'.state.lastChildReapOk = true
  reaped : ChildReaped shellPid (m.dispatch.processes.table i).pid
      m'.state.lastChildExitCode i m.dispatch.processes
      m'.dispatch.processes

theorem ChildRuns.exit (hServing : Serving builder staging m)
    (hChild : ChildRuns builder bracket i m) (env : SyscallEnv) (call : SyscallCall)
    (userRip : Nat) :
    ChildExit builder staging i m
      (userModeSyscall staging shellPid env (exitCall call) userRip m) := by
  have hSaved : m.kernelCr3 ≠ 0 := by
    rw [hChild.saved, hChild.origin]
    exact hServing.ready.pml4_nonzero
  have hOnly : ∀ j, (m.dispatch.processes.table j).state ≠ .unused →
        (m.dispatch.processes.table j).pid = (m.dispatch.processes.table i).pid → j = i := by
    intro j hUsed hSame
    by_contra hOther
    rcases hChild.others j hOther hUsed with hZero | hShell
    · exact hChild.pid.1 (hSame.symm.trans hZero)
    · exact hChild.pid.2 (hSame.symm.trans hShell)
  obtain ⟨processes, hReap, hReady, hReaped⟩ :=
    reapChild_reaps (u32 call.arg0.toNat) hServing.ready (show shellPid ≠ 0 by decide) hChild.pid.1
      hChild.pid.2.symm
      (findProcessByPid_eq hChild.used rfl hOnly) hChild.mode
      hOnly
  have hReturned : (m.dispatch.exited (u32 call.arg0.toNat)).state.currentPid =
        (m.dispatch.processes.table i).pid :=
    hChild.current
  rw [userModeSyscall_exit]
  unfold exitToKernel
  rw [if_neg hSaved]
  unfold returnToKernel
  dsimp only
  rw [hReturned, if_neg hChild.pid.2]
  rw [show (m.dispatch.exited (u32 call.arg0.toNat)).processes =
    m.dispatch.processes from rfl, hReap]
  exact ⟨⟨hServing.halted, initializeLiveDispatcher_live hServing.live.nonzero _ _,
    hReady⟩, rfl, rfl, rfl, rfl, rfl, hReaped⟩

theorem BracketInvariant.law {r : BracketRun} (hInv : BracketInvariant builder staging r) :
    BracketLaw staging r := by
  intro bracket hBracket env call userRip
  cases hInv with
  | halted hHalted => cases hBracket
  | shell hServing hShell => cases hBracket
  | @child m _ i hServing hChild hOne =>
    cases hBracket
    have hExit := hChild.exit hServing env call userRip
    refine ⟨hExit.serving.halted, ⟨hExit.current, hExit.userRip⟩,
      hExit.cr3.trans hChild.saved, ?_, ?_⟩
    · intro j hBefore hUsed
      -- the only process since the bracket opened
      have hSlot : j = i := by
        by_contra hOther
        exact hUsed (hOne j hOther hBefore)
      subst hSlot
      exact ⟨hExit.last, hExit.reapOk, hExit.reaped.recorded, hExit.reaped.pages⟩
    · intro j hBefore
      rw [hExit.reaped.table]
      by_cases hSlot : j = i
      · rw [hSlot, Function.update_self]
        rfl
      · rw [Function.update_of_ne hSlot]
        exact hOne j hSlot hBefore

----------
-- Starting A Program

/- EXEC goes back to the program that called it. -/
structure ExecReturns (builder : BuilderState) (staging : Nat) (m m' : UserMode) : Prop where
  serving : Serving builder staging m'
  cr3 : m'.cr3 = m.cr3
  kernelCr3 : m'.kernelCr3 = m.kernelCr3
  current : m'.dispatch.state.currentPid = m.dispatch.state.currentPid
  created : m'.dispatch.state.execProcessCreated = false

/- EXEC goes on with the program in a new slot. -/
structure ExecEnters (builder : BuilderState) (staging : Nat) (i : Fin 64)
    (m m' : UserMode) : Prop where
  serving : Serving builder staging m'
  cr3 : m'.cr3 = (m'.dispatch.processes.table i).pages .cr3
  kernelCr3 : m'.kernelCr3 = m.cr3
  current : m'.dispatch.state.currentPid = m.dispatch.processes.nextPid
  created : m'.dispatch.state.execProcessCreated = true
  vfs : m'.dispatch.state.vfs = m.dispatch.state.vfs
  added : ProcessAdded m.dispatch.processes m'.dispatch.processes i

/- The process is made, but a pid of zero is an error. -/
structure ExecLeaves (builder : BuilderState) (staging : Nat) (i : Fin 64)
    (m m' : UserMode) : Prop extends ExecReturns builder staging m m' where
  added : ProcessAdded m.dispatch.processes m'.dispatch.processes i

theorem execAccepted_counted_iff {path number : Nat} {s : DispatchSystem} :
    ExecAccepted env path (s.counted number) ↔ ExecAccepted env path s := by
  constructor
  · intro hAccepted
    exact ⟨hAccepted.readable, hAccepted.file, hAccepted.room⟩
  · intro hAccepted
    exact ⟨hAccepted.readable, hAccepted.file, hAccepted.room⟩

/- What an EXEC does, by whether a process is made. -/
theorem Serving.exec (hStaging : StagingArea builder boot staging)
    (hServing : Serving builder staging m) (env : SyscallEnv) (call : SyscallCall) (userRip : Nat)
    (hRun : userModeSyscall staging shellPid env (execCall call) userRip m = m') :
    (¬ ExecAccepted env call.arg0.toNat m.dispatch ∧ ExecReturns builder staging m m' ∧
        SlotsKept m.dispatch.processes m'.dispatch.processes) ∨
      (ExecAccepted env call.arg0.toNat m.dispatch ∧
        ((m.dispatch.processes.nextPid = 0 ∧ ∃ i, ExecLeaves builder staging i m m') ∨
          (m.dispatch.processes.nextPid ≠ 0 ∧ ∃ i, ExecEnters builder staging i m m'))) := by
  have hLive : (m.dispatch.counted 8).state.exec.Live staging := hServing.live
  have hReady : KernelReady builder (m.dispatch.counted 8).processes := hServing.ready
  obtain ⟨hKeeps, hOutcome⟩ := sysExec_outcome hStaging hLive hReady call.arg0.toNat_lt env
  rw [execAccepted_counted_iff] at hOutcome
  rcases hOutcome with ⟨hRefused, hReturned, hKept⟩ | ⟨hAccepted, ⟨i, hAdded⟩, hZero, hNonzero⟩
  · rw [userModeSyscall_execReturned hReturned] at hRun
    subst hRun
    exact Or.inl ⟨hRefused, ⟨⟨hServing.halted, hKeeps.live, hKeeps.ready⟩, rfl, rfl,
        hKeeps.currentPid, hReturned.created⟩, hKept⟩
  · refine Or.inr ⟨hAccepted, ?_⟩
    by_cases hPid : m.dispatch.processes.nextPid = 0
    · have hReturned := hZero hPid
      rw [userModeSyscall_execReturned hReturned] at hRun
      subst hRun
      exact Or.inl ⟨hPid, i, ⟨⟨hServing.halted, hKeeps.live, hKeeps.ready⟩, rfl, rfl,
          hKeeps.currentPid, hReturned.created⟩, hAdded⟩
    · have hStarted := hNonzero hPid
      have hTarget := hKeeps.ready.range.nonzero _ hAdded.cr3
      rw [← hAdded.target] at hTarget
      obtain ⟨rip, hEntered⟩ :=
        @userModeSyscall_execStarted staging shellPid env call userRip m _ hStarted hPid hTarget
      rw [hEntered] at hRun
      subst hRun
      exact Or.inr ⟨hPid, i, ⟨⟨hServing.halted, hKeeps.live, hKeeps.ready⟩,
          hAdded.target, rfl, rfl, hStarted.created, hKeeps.vfs, hAdded⟩⟩

theorem Serving.exec_enters {call : SyscallCall} {userRip : Nat}
    (hStaging : StagingArea builder boot staging) (hServing : Serving builder staging m)
    (hRun : userModeSyscall staging shellPid env (execCall call) userRip m = m')
    (hAccepted : ExecAccepted env call.arg0.toNat m.dispatch)
    (hPid : m.dispatch.processes.nextPid ≠ 0) :
    ∃ i, ExecEnters builder staging i m m' := by
  rcases hServing.exec hStaging env call userRip hRun with
    ⟨hRefused, -⟩ | ⟨-, ⟨hZero, -⟩ | ⟨-, hEnters⟩⟩
  · exact absurd hAccepted hRefused
  · exact absurd hZero hPid
  · exact hEnters

/- The tables of a process are not those of the builder. -/
theorem ExecEnters.tables (hEnters : ExecEnters builder staging i m m') :
    m'.cr3 ≠ builder.tables .pml4Table ∧ m'.cr3 ≠ 0 := by
  have hReady := hEnters.serving.ready
  have hMember := hEnters.added.cr3
  rw [hEnters.cr3]
  refine ⟨?_, hReady.range.nonzero _ hMember⟩
  intro hSame
  rw [hSame] at hMember
  exact hReady.sound.apart _ hMember

theorem ProcessAdded.shellSlot (hAdded : ProcessAdded s s' i)
    (hPid : s.nextPid = 0 ∨ s.nextPid = shellPid) (hSlot : ShellSlot (s.table j)) :
    ShellSlot (s'.table j) := by
  by_cases hNew : j = i
  · intro _
    rw [hNew, hAdded.pid]
    exact hPid
  · rw [hAdded.others j hNew]
    exact hSlot

theorem SlotsKept.shellSlot (hKept : SlotsKept s s') (hSlot : ShellSlot (s.table j)) :
    ShellSlot (s'.table j) := by
  intro hUsed
  by_cases hBefore : (s.table j).state = .unused
  · exact absurd (hKept.unused j hBefore) hUsed
  · rw [hKept.used j hBefore]
    exact hSlot hBefore

/- The shell goes on behind a call that started nothing. -/
theorem ShellRuns.returns (hShell : ShellRuns builder m)
    (hReturns : ExecReturns builder staging m m')
    (hSlots : ∀ j, ShellSlot (m'.dispatch.processes.table j)) :
    ShellRuns builder m' :=
  ⟨hReturns.cr3.trans hShell.cr3, hReturns.current.trans hShell.current, hSlots⟩

theorem ShellRuns.enters (hShell : ShellRuns builder m)
    (hEnters : ExecEnters builder staging i m m') (hZero : m.dispatch.processes.nextPid ≠ 0)
    (hPid : m.dispatch.processes.nextPid ≠ shellPid) :
    ChildRuns builder ⟨m.cr3, m.dispatch.processes⟩ i m' ∧
      OneChild ⟨m.cr3, m.dispatch.processes⟩ i m' := by
  have hAdded := hEnters.added
  obtain ⟨hTables, hNonzero⟩ := hEnters.tables
  refine ⟨⟨hShell.cr3, hEnters.kernelCr3, ?_, hNonzero, ?_, ?_, ?_,
    hAdded.mode, hAdded.before, ?_, ?_⟩, ?_⟩
  · intro hSame
    exact hTables (hSame.trans hShell.cr3)
  · rw [hEnters.current, hAdded.pid]
  · rw [hAdded.pid]
    exact ⟨hZero, hPid⟩
  · rw [hAdded.state]
    exact nofun
  · intro j hOther
    rw [hAdded.others j hOther]
    exact hShell.slots j
  · intro j hUsed
    by_cases hNew : j = i
    · rw [hNew, hAdded.state]
      exact nofun
    · rw [hAdded.others j hNew]
      exact hUsed
  · intro j hOther hUnused
    rw [hAdded.others j hOther]
    exact hUnused

/- A program goes on behind a call that started nothing. -/
theorem ChildRuns.returns (hChild : ChildRuns builder bracket i m)
    (hReturns : ExecReturns builder staging m m')
    (hSelf : m'.dispatch.processes.table i = m.dispatch.processes.table i)
    (hOthers : ∀ j, j ≠ i → ShellSlot (m'.dispatch.processes.table j))
    (hKept : ∀ j, (m.dispatch.processes.table j).state ≠ .unused →
        (m'.dispatch.processes.table j).state ≠ .unused) :
    ChildRuns builder bracket i m' := by
  refine ⟨hChild.origin, hReturns.kernelCr3.trans hChild.saved, ?_,
    ?_, ?_, ?_, ?_, ?_, hChild.before, hOthers, ?_⟩
  · rw [hReturns.cr3]
    exact hChild.tables
  · rw [hReturns.cr3]
    exact hChild.nonzero
  · rw [hReturns.current, hSelf]
    exact hChild.current
  · rw [hSelf]
    exact hChild.pid
  · rw [hSelf]
    exact hChild.used
  · rw [hSelf]
    exact hChild.mode
  · intro j hUsed
    exact hKept j (hChild.kept j hUsed)

theorem ChildRuns.returns_of_kept (hChild : ChildRuns builder bracket i m)
    (hReturns : ExecReturns builder staging m m')
    (hKept : SlotsKept m.dispatch.processes m'.dispatch.processes) :
    ChildRuns builder bracket i m' := by
  refine hChild.returns hReturns (hKept.used i hChild.used) ?_ ?_
  · intro j hOther
    exact hKept.shellSlot (hChild.others j hOther)
  · intro j hUsed
    rw [hKept.used j hUsed]
    exact hUsed

theorem ChildRuns.returns_of_leaves (hChild : ChildRuns builder bracket i m)
    (hLeaves : ExecLeaves builder staging k m m') (hZero : m.dispatch.processes.nextPid = 0) :
    ChildRuns builder bracket i m' := by
  have hAdded := hLeaves.added
  have hNew : i ≠ k := by
    rintro rfl
    exact hChild.used hAdded.before
  refine hChild.returns hLeaves.toExecReturns (hAdded.others i hNew) ?_ ?_
  · intro j hOther
    exact hAdded.shellSlot (Or.inl hZero) (hChild.others j hOther)
  · intro j hUsed
    by_cases hSlot : j = k
    · rw [hSlot, hAdded.state]
      exact nofun
    · rw [hAdded.others j hSlot]
      exact hUsed

----------
-- Steps

theorem Serving.write {address : Nat} (hServing : Serving builder staging m) (byte : UInt8)
    (hBeside : pageOf address ∉ allBuilderPages.map builder.tables) :
    Serving builder staging (m.write address byte) := by
  refine ⟨hServing.halted, hServing.live, hServing.ready.of_mem ?_⟩
  intro b x hPage
  refine Function.update_of_ne ?_ _ _
  rintro rfl
  apply hBeside
  rw [hPage]
  exact List.mem_map_of_mem (mem_allBuilderPages b)

section

variable {boot : ProcessSystem}
variable {r : BracketRun}

/- A step that meets the condition keeps the invariant. -/
theorem BracketInvariant.step (hStaging : StagingArea builder boot staging)
    (hInv : BracketInvariant builder staging r) (c : BracketCall) (hCall : StartedByShell r c) :
    BracketInvariant builder staging (BracketRun.step builder staging r c).2 := by
  cases c with
  | exec env call userRip =>
    cases hInv with
    | halted hHalted =>
      rw [BracketRun.step_exec_of_halted hHalted]
      exact .halted hHalted
    | @shell m hServing hShell =>
      rw [BracketRun.step_exec hServing.halted env call userRip rfl]
      rcases hServing.exec hStaging env call userRip rfl with
        ⟨-, hReturns, hKept⟩ | ⟨hAccepted, ⟨hZero, k, hLeaves⟩ | ⟨hNonzero, k, hEnters⟩⟩
      · rw [BracketRun.opened_none hReturns.created]
        exact .shell hReturns.serving
          (hShell.returns hReturns fun j =>
            hKept.shellSlot (hShell.slots j))
      · rw [BracketRun.opened_none hLeaves.created]
        exact .shell hLeaves.serving
          (hShell.returns hLeaves.toExecReturns fun j =>
            hLeaves.added.shellSlot (Or.inl hZero) (hShell.slots j))
      · rw [BracketRun.opened_some hEnters.created]
        have hPid := (hCall hServing.halted hAccepted).2
        obtain ⟨hChild, hOne⟩ := hShell.enters hEnters hNonzero hPid
        exact .child hEnters.serving hChild hOne
    | @child m bracket i hServing hChild hOne =>
      rw [BracketRun.step_exec hServing.halted env call userRip rfl]
      rcases hServing.exec hStaging env call userRip rfl with ⟨-, hReturns, hKept⟩ | ⟨hAccepted, -⟩
      · refine .child hReturns.serving (hChild.returns_of_kept hReturns hKept) ?_
        intro j hOther hBefore
        exact hKept.unused j (hOne j hOther hBefore)
      · -- only the shell may start a program
        have hNone := (hCall hServing.halted hAccepted).1
        cases hNone
  | exit env call userRip =>
    cases hInv with
    | halted hHalted =>
      rw [BracketRun.step_exit_of_halted hHalted]
      exact .halted hHalted
    | shell hServing hShell =>
      rw [BracketRun.step_exit hServing.halted]
      exact .halted (exit_of_shellPid hShell.current env call userRip)
    | @child m bracket i hServing hChild hOne =>
      rw [BracketRun.step_exit hServing.halted]
      have hExit := hChild.exit hServing env call userRip
      refine .shell hExit.serving ⟨?_, hExit.current, ?_⟩
      · exact hExit.cr3.trans (hChild.saved.trans hChild.origin)
      · intro j
        rw [hExit.reaped.table]
        by_cases hSlot : j = i
        · rw [hSlot, Function.update_self]
          intro hUsed
          exact absurd rfl hUsed
        · rw [Function.update_of_ne hSlot]
          exact hChild.others j hSlot
  | write address byte =>
    unfold BracketRun.step
    dsimp only
    split
    · exact hInv
    · next hBeside =>
        cases hInv with
        | halted hHalted => exact .halted hHalted
        | shell hServing hShell =>
          exact .shell (hServing.write byte hBeside) ⟨hShell.cr3, hShell.current, hShell.slots⟩
        | child hServing hChild hOne =>
          exact .child (hServing.write byte hBeside)
            ⟨hChild.origin, hChild.saved, hChild.tables, hChild.nonzero, hChild.current, hChild.pid,
              hChild.used, hChild.mode, hChild.before, hChild.others, hChild.kept⟩ hOne

/- A step that does not meet it breaks the law. -/
theorem BracketInvariant.broken (hStaging : StagingArea builder boot staging)
    (hInv : BracketInvariant builder staging r) (c : BracketCall) (hCall : ¬ StartedByShell r c) :
    ¬ BracketLaw staging (BracketRun.step builder staging r c).2 := by
  cases c with
  | exit env call userRip => exact absurd trivial hCall
  | write address byte => exact absurd trivial hCall
  | exec env call userRip =>
    unfold StartedByShell at hCall
    push Not at hCall
    obtain ⟨hRunning, hAccepted, hWrong⟩ := hCall
    generalize hRun : userModeSyscall staging shellPid env (execCall call) userRip r.machine = m'
    rw [BracketRun.step_exec hRunning env call userRip hRun]
    intro hLaw
    cases hInv with
    | halted hHalted =>
      rw [hHalted] at hRunning
      cases hRunning
    | @shell m hServing hShell =>
      -- the new program has the pid of the shell
      have hPid : m.dispatch.processes.nextPid = shellPid := hWrong rfl
      rcases hServing.exec hStaging env call userRip hRun with
        ⟨hRefused, -, -⟩ | ⟨-, ⟨hZero, -⟩ | ⟨-, k, hEnters⟩⟩
      · exact hRefused hAccepted
      · rw [hPid] at hZero
        cases hZero
      · have hResumes :=
          hLaw ⟨m.cr3, m.dispatch.processes⟩ (BracketRun.opened_some hEnters.created) env call
            userRip
        have hHalts := @exit_of_shellPid staging m' (hEnters.current.trans hPid) env call userRip
        rw [hResumes.running] at hHalts
        cases hHalts
    | @child m bracket i hServing hChild hOne =>
      have hResumes := hLaw bracket rfl env call userRip
      rcases hServing.exec hStaging env call userRip hRun with
        ⟨hRefused, -, -⟩ | ⟨-, ⟨hZero, k, hLeaves⟩ | ⟨-, k, hEnters⟩⟩
      · exact hRefused hAccepted
      · -- the process with pid zero keeps its slot
        have hAdded := hLeaves.added
        have hExit := (hChild.returns_of_leaves hLeaves hZero).exit hLeaves.serving env call userRip
        have hNew : k ≠ i := by
          rintro rfl
          exact hChild.used hAdded.before
        have hBefore : (bracket.processes.table k).state = .unused := by
          by_contra hUsed
          exact hChild.kept k hUsed hAdded.before
        have hEmpty := hResumes.slots k hBefore
        rw [hExit.reaped.table, Function.update_of_ne hNew, hAdded.state] at hEmpty
        cases hEmpty
      · -- the tables of the first program are loaded
        have hSaved := hChild.nonzero
        rw [← hEnters.kernelCr3] at hSaved
        have hCr3 := @exit_cr3 staging m' hSaved env call userRip
        rw [hResumes.cr3, hEnters.kernelCr3] at hCr3
        exact hChild.tables hCr3.symm

end

end Steps

----------
-- The Law Of Every Run

/-
  The kernel in front of `x86_64_user_mode_start_init`: the builder has run, the pages of the
  dispatcher are not free, and page 0 is not among those that the manager tracks.
-/
structure UserModeBoot (builder : BuilderState) (staging : Nat) (d : DispatchSystem) : Prop where
  processes : ProcessBoot builder d.processes
  usable : ∃ regions layout calls, 0 ∉ (pmmInit regions layout).stack ∧ d.processes.pmm =
          (Account.run pmmLender (Account.opened (pmmInit regions layout)) calls).state
  area : StagingArea builder d.processes staging
  nonzero : staging ≠ 0

section Start

variable {builder : BuilderState}
variable {staging : Nat}
variable {d : DispatchSystem}

section

variable (hBoot : UserModeBoot builder staging d)
include hBoot

theorem UserModeBoot.ready :
    KernelReady builder (processInitialize d.processes) := by
  obtain ⟨regions, layout, calls, hZero, hPmm⟩ := hBoot.usable
  have hRange := pagesInRange_run hZero calls
  rw [← hPmm] at hRange
  refine ⟨hBoot.processes.sound, rfl, ?_⟩
  rw [processInitialize_ledger]
  exact hRange

theorem UserModeBoot.serving (reserveShellPid : Nat) :
    Serving builder staging (userModeStartInit builder staging shellPid reserveShellPid d) :=
  ⟨rfl, initializeLiveDispatcher_live hBoot.nonzero _ _, processCreate_ready hBoot.ready _ _⟩

theorem UserModeBoot.shellRuns (reserveShellPid : Nat) :
    ShellRuns builder (userModeStartInit builder staging shellPid reserveShellPid d) := by
  have hReady := hBoot.ready
  refine ⟨rfl, rfl, ?_⟩
  intro j hUsed
  right
  -- only the process of the shell is in the table
  obtain ⟨created, hStep, -⟩ := processCreate_step hReady.sound
      (show processCreate (textBytes "shell") reserveShellPid
        (processInitialize d.processes) = (_, _) from rfl)
  cases hStep with
  | same hSame =>
    refine absurd ?_ hUsed
    exact congrArg Process.state (congrFun hSame.table j)
  | kept i w hReplaced hPids =>
    refine absurd ?_ hUsed
    by_cases hSlot : j = i
    · by_contra hState
      rw [hSlot] at hState
      have hProcess := hReplaced.table_self
      have hBefore := hPids.pid (hProcess ▸ hState)
      exact hBefore.1 rfl
    · exact congrArg Process.state (hReplaced.table_other hSlot)
  | added i w hReplaced hPids =>
    by_cases hSlot : j = i
    · rw [hSlot]
      have hProcess := hReplaced.table_self
      exact (congrArg Process.pid hProcess).trans hPids.pid
    · refine absurd ?_ hUsed
      exact congrArg Process.state (hReplaced.table_other hSlot)

theorem UserModeBoot.invariant (reserveShellPid : Nat) :
    BracketInvariant builder staging (.started builder staging reserveShellPid d) :=
  .shell (hBoot.serving reserveShellPid) (hBoot.shellRuns reserveShellPid)

end

end Start

----------
-- A Program That Starts

/- The dispatcher of a shell with one program, `/bin/hello`. -/
def helloEnv : SyscallEnv where
  images := { noImages with hello := (List.range 179).map twoSegmentImage.bytes }
  view := fun a => (textBytes "/bin/hello").getD (a - 0x401000) 0
  scratch := fun _ => 0
  serial := []
  ticksAfter := 0
  drawn := false

def helloCall : SyscallCall := ⟨8, 0x401000, 0, 0, 0, 0, 0⟩

def execHello : BracketCall := .exec helloEnv helloCall userCodeBase

def exitHello : BracketCall := .exit helloEnv helloCall userCodeBase

theorem twoSegmentImage_getD (i : Nat) :
    ((List.range 179).map twoSegmentImage.bytes).getD i 0 = twoSegmentImage.bytes i := by
  by_cases hInside : i < 179
  · simp [hInside]
  · have hPast : twoSegmentImage.bytes i = 0 := by
      refine List.getD_eq_default _ _ ?_
      exact not_lt.mp hInside
    rw [hPast]
    refine List.getD_eq_default _ _ ?_
    simpa using hInside

theorem helloEnv_accepted {s : DispatchSystem} (hVfs : s.state.vfs.initialized = true)
    (hRoom : RoomForProcess s.processes) :
    ExecAccepted helloEnv helloCall.arg0.toNat s := by
  have hFound :
      vfsFindNode (bufferAt helloEnv.view 0x401000) helloEnv.scratch = some (some 10) := by
    decide +kernel
  have hExecutable : ExecutableImage twoSegmentImage :=
    (loadExecElf_accepts_iff stagedAtOneMiB_live _).mp (twoSegmentImage_staged fun _ => 0)
  refine ⟨⟨by decide, 10, by decide, by decide, ?_⟩, ?_, hRoom⟩
  · decide +kernel
  · refine ⟨⟨twoSegmentImage.bytes, 179, .executable⟩, ?_, rfl, hExecutable⟩
    unfold vfsResolve
    rw [if_neg (by rw [hVfs]; decide)]
    unfold vfsLookup
    rw [show helloCall.arg0.toNat = 0x401000 from rfl, hFound]
    refine congrArg Except.ok ?_
    refine VfsResolved.mk.injEq .. ▸ ⟨?_, ?_, rfl⟩
    · funext i
      exact twoSegmentImage_getD i
    · rfl

theorem exists_slot_beside (i j : Fin 64) : ∃ k, k ≠ i ∧ k ≠ j := by
  by_contra hNone
  push Not at hNone
  have hZero := hNone 0
  have hOne := hNone 1
  have hTwo := hNone 2
  grind

theorem userModeStartInit_processes (builder : BuilderState) (staging reserveShellPid : Nat)
    (d : DispatchSystem) :
    (userModeStartInit builder staging shellPid reserveShellPid d).dispatch.processes =
        (processCreate (textBytes "shell") reserveShellPid (processInitialize d.processes)).2 := by
  unfold userModeStartInit
  dsimp only
  rw [if_pos (show shellPid = 1 from rfl)]

theorem wideSystem_userModeBoot :
    ∃ builder mem, UserModeBoot builder 0x100000 (shellSystem (wideSystem builder mem)) := by
  obtain ⟨builder, mem, hBoot, hAbove⟩ := wideSystem_boots_above
  refine ⟨builder, mem, hBoot, ⟨_, _, _, ?_, wideSystem_manager builder mem⟩,
    ⟨by decide, by decide, ?_, ?_⟩, by decide⟩
  · rw [wideBoot_stack]
    decide +kernel
  · show ∀ i < 4, 0x100000 + i * 4096 ∉ widePages 559 48
    decide +kernel
  · intro i hi b hSame
    have hTable := hAbove b
    omega

/- What the shell of the wide boot finds when it starts. -/
structure WideStart (s : ProcessSystem) (i : Fin 64) : Prop where
  unused : ∀ j, j ≠ i → (s.table j).state = .unused
  nextPid : s.nextPid = 2
  pages : s.pmm.stack.length = 36

theorem WideStart.room (hStart : WideStart s i) : RoomForProcess s := by
  obtain ⟨j, hOther, -⟩ := exists_slot_beside i i
  refine ⟨⟨j, hStart.unused j hOther⟩, ?_⟩
  rw [hStart.pages]
  decide

/- There is room for another program behind the first one. -/
theorem WideStart.room_of_added (hStart : WideStart s i) (hAdded : ProcessAdded s s' k) :
    RoomForProcess s' := by
  obtain ⟨j, hOther, hNew⟩ := exists_slot_beside i k
  refine ⟨⟨j, ?_⟩, ?_⟩
  · rw [hAdded.others j hNew]
    exact hStart.unused j hOther
  · rw [hAdded.stack, List.length_drop, hStart.pages]
    decide

theorem wideSystem_starts {builder : BuilderState} {mem : ByteMemory}
    (hBoot : UserModeBoot builder 0x100000 (shellSystem (wideSystem builder mem))) :
    ∃ i, WideStart
      (userModeStartInit builder 0x100000 shellPid 1
        (shellSystem (wideSystem builder mem))).dispatch.processes
      i := by
  have hLength : (widePages 559 48).length = 48 := by decide +kernel
  have hRoom : RoomForProcess (processInitialize (wideSystem builder mem)) := by
    refine ⟨⟨0, rfl⟩, ?_⟩
    show 12 ≤ (widePages 559 48).length
    omega
  obtain ⟨i, hOthers, hPid, hStack⟩ :=
    processCreate_room hBoot.ready hRoom (show 1 ≠ 0 by decide) (textBytes "shell")
  rw [userModeStartInit_processes]
  refine ⟨i, ?_, hPid, ?_⟩
  · intro j hOther
    rw [hOthers j hOther]
    rfl
  · rw [hStack, List.length_drop]
    show (widePages 559 48).length - 12 = 36
    omega

----------
-- Every Program

/-
  Every program that exits leads back to the shell, with its tables and without a process left,
  exactly if every process is started by the shell with a pid that is not the shell's.
-/
theorem bracketLaw_iff_startedByShell {builder : BuilderState} {staging : Nat} {d : DispatchSystem}
    (hBoot : UserModeBoot builder staging d) (reserveShellPid : Nat) (calls : List BracketCall) :
    Calls.Always (BracketRun.step builder staging) (BracketLaw staging)
        (.started builder staging reserveShellPid d) calls ↔
      Calls.EachStep (BracketRun.step builder staging) StartedByShell
        (.started builder staging reserveShellPid d) calls := by
  apply @Calls.always_iff_eachStep_of_invariant _ _ _ _ _ (BracketInvariant builder staging)
  · intro r hInv
    exact hInv.law
  · intro r c hInv hCall
    exact hInv.step hBoot.area c hCall
  · intro r c hInv hCall
    exact hInv.broken hBoot.area c hCall
  · exact hBoot.invariant reserveShellPid

/- The shell starts a program, which exits. -/
theorem bracketLaw_of_one_exec :
    ∃ builder mem, UserModeBoot builder 0x100000 (shellSystem (wideSystem builder mem)) ∧
        ExecAccepted helloEnv helloCall.arg0.toNat
          (userModeStartInit builder 0x100000 shellPid 1
            (shellSystem (wideSystem builder mem))).dispatch ∧
        Calls.Always (BracketRun.step builder 0x100000) (BracketLaw 0x100000)
          (.started builder 0x100000 1 (shellSystem (wideSystem builder mem)))
          [execHello, exitHello] := by
  obtain ⟨builder, mem, hBoot⟩ := wideSystem_userModeBoot
  obtain ⟨i, hStart⟩ := wideSystem_starts hBoot
  refine ⟨builder, mem, hBoot, helloEnv_accepted rfl hStart.room, ?_⟩
  apply (bracketLaw_iff_startedByShell hBoot 1 _).mpr
  have hPid := hStart.nextPid
  refine ⟨fun _ _ => ⟨rfl, fun hShell => ?_⟩, trivial, trivial⟩
  exact absurd (hPid.symm.trans hShell) (by decide)

/-
  The program starts another one. The tables that are saved then are its own, and they are loaded
  for the shell.
-/
theorem nested_exec_resumes_with_wrong_tables :
    ∃ builder mem r bracket, UserModeBoot builder 0x100000 (shellSystem (wideSystem builder mem)) ∧
        (Calls.run (BracketRun.step builder 0x100000)
          (.started builder 0x100000 1 (shellSystem (wideSystem builder mem)))
          [execHello, execHello]).2 = r ∧
        r.bracket = some bracket ∧
        bracket.cr3 = builder.tables .pml4Table ∧
        (userModeSyscall 0x100000 shellPid helloEnv
          (exitCall helloCall) userCodeBase r.machine).cr3 ≠ bracket.cr3 ∧
        ¬ Calls.Always (BracketRun.step builder 0x100000) (BracketLaw 0x100000)
          (.started builder 0x100000 1 (shellSystem (wideSystem builder mem)))
          [execHello, execHello] := by
  obtain ⟨builder, mem, hBoot⟩ := wideSystem_userModeBoot
  obtain ⟨i, hStart⟩ := wideSystem_starts hBoot
  have hServing := hBoot.serving 1
  have hShell := hBoot.shellRuns 1
  have hVfs :
      (userModeStartInit builder 0x100000 shellPid 1
        (shellSystem (wideSystem builder mem))).dispatch.state.vfs.initialized = true :=
    rfl
  refine ⟨builder, mem, ?_⟩
  unfold BracketRun.started
  generalize
    userModeStartInit builder 0x100000 shellPid 1 (shellSystem (wideSystem builder mem)) = m₀
    at hStart hServing hShell hVfs ⊢
  have hAccepted := helloEnv_accepted hVfs hStart.room
  -- the shell starts a program
  generalize hRun₁ :
    userModeSyscall 0x100000 shellPid helloEnv (execCall helloCall) userCodeBase m₀ = m₁
  have hStep₁ := @BracketRun.step_exec builder 0x100000 ⟨m₀, none⟩
      hServing.halted helloEnv helloCall userCodeBase m₁ hRun₁
  have hPid₀ : m₀.dispatch.processes.nextPid ≠ 0 := by
    rw [hStart.nextPid]
    decide
  obtain ⟨k, hEnters₁⟩ := hServing.exec_enters hBoot.area hRun₁ hAccepted hPid₀
  rw [BracketRun.opened_some hEnters₁.created] at hStep₁
  have hTables := hEnters₁.tables
  -- the program starts another one
  have hAccepted₁ :=
    @helloEnv_accepted m₁.dispatch (hEnters₁.vfs ▸ hVfs) (hStart.room_of_added hEnters₁.added)
  generalize hRun₂ :
    userModeSyscall 0x100000 shellPid helloEnv (execCall helloCall) userCodeBase m₁ = m₂
  have hStep₂ := @BracketRun.step_exec builder 0x100000 ⟨m₁, some ⟨m₀.cr3, m₀.dispatch.processes⟩⟩
      hEnters₁.serving.halted helloEnv helloCall userCodeBase m₂
      hRun₂
  have hPid₁ : m₁.dispatch.processes.nextPid ≠ 0 := by
    rw [hEnters₁.added.nextPid, hStart.nextPid]
    decide
  obtain ⟨l, hEnters₂⟩ := hEnters₁.serving.exec_enters hBoot.area hRun₂ hAccepted₁ hPid₁
  have hSaved := hTables.2
  rw [← hEnters₂.kernelCr3] at hSaved
  have hWrong :
      (userModeSyscall 0x100000 shellPid helloEnv
        (exitCall helloCall) userCodeBase m₂).cr3 ≠ m₀.cr3 := by
    rw [exit_cr3 hSaved, hEnters₂.kernelCr3, hShell.cr3]
    exact hTables.1
  refine ⟨⟨m₂, _⟩, ⟨m₀.cr3, m₀.dispatch.processes⟩, hBoot, ?_, rfl, hShell.cr3, hWrong, ?_⟩
  · show (BracketRun.step builder 0x100000
      (BracketRun.step builder 0x100000 ⟨m₀, none⟩ execHello).2 execHello).2 = _
    unfold execHello
    rw [hStep₁, hStep₂]
    rfl
  · unfold execHello
    rintro ⟨-, -, hLaw⟩
    rw [hStep₁, hStep₂] at hLaw
    exact hWrong (hLaw _ rfl helloEnv helloCall userCodeBase).cr3

end LiamOS.X64
