import LiamOS.Lib.Word
import LiamOS.Lib.Transition

/-
  User processes of the i386 kernel: creation, runs, exit and clearing of
  `core/kernel/core/process.c` over the two user pages and the ways into and out of user mode of
  `core/kernel/arch/i386/ring3.c` and `ring3_entry.asm`.

  `process_run` is cut where an interrupt can come between: each call that has not returned is a
  frame with the place it has reached, down to the single bytes of the two loops that load an
  image. A keyboard interrupt whose shell command runs a process puts another frame on top. User
  code and the system calls it makes act for the innermost frame.

  Files, image registry and loaders enter as the function from an image path to what they find
  there. Names, arguments, open files and the counters the shell prints are left out.

  Key definitions: `UserProcess`, `Ring3`, `ProcessKernel`, `processCreate`, `processClearExited`,
  `processMarkExit`, `ProcessKernel.advance`, `ProcessKernel.exit`, `ProcessKernel.step`.
-/

namespace LiamOS.I386

open Word

----------
-- Data

/- The status codes of `core/kernel/core/status.h`. -/
inductive KernelStatus
| ok
| unknown
| invalidArgument
| notFound
| outOfMemory
| alreadyExists
| notInitialized
| busy
| permissionDenied
| unsupported
| invalidState
| corruptionDetected
| timeout
deriving DecidableEq, Repr

inductive UserProcessState
| unused
| ready
| running
| exited
| failed
deriving DecidableEq, Repr

structure UserProcess where
  pid : Nat
  state : UserProcessState
  entry : Nat
  userStack : Nat
  imagePath : List UInt8
  exitCode : Int
  lastStatus : KernelStatus
  runs : Nat
deriving DecidableEq, Repr

def resetProcess : UserProcess where
  pid := 0
  state := .unused
  entry := 0
  userStack := 0
  imagePath := []
  exitCode := 0
  lastStatus := .ok
  runs := 0

def ring3UserPageSize : Nat := 4096

def ring3UserCodeVirtual : Nat := 0x10000000

def ring3UserStackVirtual : Nat := 0x10001000

/- The contents of one of the two user pages. -/
def UserPage : Type := Fin 4096 → UInt8

def UserPage.zero : UserPage := fun _ => 0

def UserPage.set (page : UserPage) (i : Nat) (byte : UInt8) : UserPage :=
  fun o => if o.val = i then byte else page o

/- What the loaders hand to `ring3_load_user_image`. -/
structure ImageFile where
  data : List UInt8
  entry : Nat

/- The image, followed by zeros. -/
def ImageFile.page (file : ImageFile) : UserPage := fun o => file.data.getD o.val 0

/- What is found under an image path. -/
def ImageFiles : Type := List UInt8 → Except KernelStatus ImageFile

/- A process that was given no image path has no image. -/
def UserProcess.image (files : ImageFiles) (process : UserProcess) : Option ImageFile :=
  if process.imagePath = [] then none
  else (files process.imagePath).toOption

structure Ring3 where
  ready : Bool
  inProgress : Bool
  completed : Bool
  lastStatus : KernelStatus
deriving DecidableEq, Repr

----------
-- Calls of `process_run` in Progress

/-
  The place a call has reached. In `user` the page is what the process expects in the code page:
  its image with the bytes it has written itself.
-/
inductive RunPhase
| called
| zeroing (i : Nat)
| copying (i : Nat)
| prepared
| marked
| current
| user (page : UserPage)
| left
| returned (status : KernelStatus)
| settled

/- `image` is what the call has loaded, if it loads anything. -/
structure RunFrame where
  slot : Fin 16
  image : Option ImageFile
  phase : RunPhase

/-
  `frames` are the calls of `process_run` in progress, the innermost first. `savedKernel` is the
  number of calls below the one that entered user mode last.
-/
structure ProcessKernel where
  table : Fin 16 → UserProcess
  nextPid : Nat
  processCount : Nat
  currentProcess : Option (Fin 16)
  ring3 : Ring3
  codePage : UserPage
  stackPage : UserPage
  frames : List RunFrame
  savedKernel : Option Nat

def ProcessKernel.setProcess (k : ProcessKernel) (slot : Fin 16)
    (process : UserProcess) : ProcessKernel :=
  { k with table := Function.update k.table slot process }

/- The innermost call goes on at another place. -/
def ProcessKernel.goto (k : ProcessKernel) (frame : RunFrame) (rest : List RunFrame)
    (phase : RunPhase) : ProcessKernel :=
  { k with frames := { frame with phase := phase } :: rest }

----------
-- Creation and Exit

def processFindFreeSlot (k : ProcessKernel) : Option (Fin 16) :=
  (List.finRange 16).find? fun slot =>
    (k.table slot).state == .unused

def processCreate (k : ProcessKernel) (entry userStack : Nat) : KernelStatus × ProcessKernel :=
  if entry = 0 ∨ userStack = 0 then (.invalidArgument, k)
  else
    match processFindFreeSlot k with
    | none => (.outOfMemory, k)
    | some slot =>
      (.ok,
        { k.setProcess slot
            { pid := k.nextPid
              state := .ready
              entry := entry
              userStack := userStack
              imagePath := []
              exitCode := 0
              lastStatus := .ok
              runs := 0 } with
          nextPid := u32 (k.nextPid + 1)
          processCount := u32 (k.processCount + 1) })

def processConfigureImagePath (k : ProcessKernel) (slot : Fin 16)
    (path : List UInt8) : ProcessKernel :=
  k.setProcess slot { k.table slot with imagePath := path }

/- The slots `process_clear_exited` resets. -/
def UserProcessState.ended (state : UserProcessState) : Bool := state == .exited || state == .failed

def processClearExited (k : ProcessKernel) : Nat × ProcessKernel :=
  let cleared := (List.finRange 16).countP fun slot =>
      (k.table slot).state.ended
  (cleared,
    { k with
      table := fun slot =>
        if (k.table slot).state.ended then resetProcess
        else k.table slot
      processCount := k.processCount - cleared })

def processGetCurrentPid (k : ProcessKernel) : Nat :=
  match k.currentProcess with
  | none => 0
  | some slot => (k.table slot).pid

def processMarkExit (k : ProcessKernel) (exitCode : Int) : ProcessKernel :=
  match k.currentProcess with
  | none => k
  | some slot =>
    k.setProcess slot
      { k.table slot with
        exitCode := exitCode
        state := .exited }

----------
-- Ring 3

/-
  The checks of `ring3_load_user_image` in front of its loops. The pages were prepared at boot, so
  `ring3_initialize` returns the last status.
-/
def ring3LoadCheck (r : Ring3) (imageSize : Nat) : KernelStatus × Ring3 :=
  if r.lastStatus ≠ .ok then (r.lastStatus, r)
  else if !r.ready then
    (.invalidState, { r with lastStatus := .invalidState })
  else if imageSize = 0 ∨ ring3UserPageSize < imageSize then
    (.unsupported, { r with lastStatus := .unsupported })
  else (.ok, r)

/- The checks of `ring3_run_user_image`. -/
def ring3RunCheck (r : Ring3) (userEip userEsp : Nat) : KernelStatus × Ring3 :=
  if r.lastStatus ≠ .ok then (r.lastStatus, r)
  else if !r.ready then
    (.invalidState, { r with lastStatus := .invalidState })
  else if userEip = 0 ∨ userEsp = 0 then
    (.invalidArgument, { r with lastStatus := .invalidArgument })
  else (.ok, r)

def ring3UserStackTop : Nat := ring3UserStackVirtual + ring3UserPageSize - 16

----------
-- `process_run`

/- The image path does not lead to an image that can be run. -/
def ProcessKernel.loadFailed (k : ProcessKernel) (slot : Fin 16) (status : KernelStatus)
    (rest : List RunFrame) : ProcessKernel :=
  { k.setProcess slot
      { k.table slot with
        lastStatus := status
        state := .failed } with
    frames := rest }

/- The call up to the loops of the load. -/
def ProcessKernel.begin (files : ImageFiles) (k : ProcessKernel) (frame : RunFrame)
    (rest : List RunFrame) : ProcessKernel :=
  let process := k.table frame.slot
  if process.state ≠ .ready ∧ process.state ≠ .exited then
    { k with frames := rest }
  else if process.imagePath = [] then
    k.goto frame rest .prepared
  else
    match files process.imagePath with
    | .error status => k.loadFailed frame.slot status rest
    | .ok file =>
      match ring3LoadCheck k.ring3 file.data.length with
      | (.ok, _) =>
        { k with
          frames :=
            { frame with
              image := some file
              phase := .zeroing 0 } :: rest }
      | (status, ring3) =>
        { k with ring3 := ring3 }.loadFailed frame.slot
          status rest

/- One turn of `ring3_zero_page`. -/
def ProcessKernel.zeroByte (k : ProcessKernel) (frame : RunFrame) (rest : List RunFrame)
    (i : Nat) : ProcessKernel :=
  if i < ring3UserPageSize then
    { k with codePage := k.codePage.set i 0 }.goto frame rest
      (.zeroing (i + 1))
  else k.goto frame rest (.copying 0)

/- One turn of the loop that copies the image. -/
def ProcessKernel.copyByte (k : ProcessKernel) (frame : RunFrame) (rest : List RunFrame)
    (file : ImageFile)
    (i : Nat) : ProcessKernel :=
  if i < file.data.length then
    { k with codePage := k.codePage.set i (file.data.getD i 0) }.goto frame rest (.copying (i + 1))
  else
    { k.setProcess frame.slot
        { k.table frame.slot with
          entry := file.entry
          userStack := ring3UserStackTop } with
      ring3 := { k.ring3 with lastStatus := .ok } }.goto frame rest .prepared

/- The process is running. -/
def ProcessKernel.markRunning (k : ProcessKernel) (frame : RunFrame)
    (rest : List RunFrame) : ProcessKernel :=
  (k.setProcess frame.slot
    { k.table frame.slot with
      state := .running
      runs := u32 ((k.table frame.slot).runs + 1)
      exitCode := 0
      lastStatus := .ok }).goto frame rest .marked

/- What a process expects in the code page at its start. Without an image it runs what it finds. -/
def UserProcess.expected (files : ImageFiles) (process : UserProcess)
    (codePage : UserPage) : UserPage :=
  match process.image files with
  | none => codePage
  | some file => file.page

/- `ring3_run_user_image` up to the change to user mode. -/
def ProcessKernel.enterUserMode (files : ImageFiles) (k : ProcessKernel) (frame : RunFrame)
    (rest : List RunFrame) : ProcessKernel :=
  match ring3RunCheck k.ring3 (k.table frame.slot).entry (k.table frame.slot).userStack with
  | (.ok, _) =>
    { k with
      ring3 :=
        { k.ring3 with
          inProgress := true
          completed := false }
      savedKernel := some rest.length }.goto frame rest
        (.user ((k.table frame.slot).expected files k.codePage))
  | (status, ring3) =>
    { k with ring3 := ring3 }.goto frame rest
      (.returned status)

/- `ring3_run_user_image` behind the return from user mode. -/
def ProcessKernel.leaveUserMode (k : ProcessKernel) (frame : RunFrame)
    (rest : List RunFrame) : ProcessKernel :=
  if !k.ring3.completed then
    { k with
      ring3 :=
        { k.ring3 with
          inProgress := false
          lastStatus := .invalidState } }.goto frame rest (.returned .invalidState)
  else
    { k with
      ring3 := { k.ring3 with lastStatus := .ok } }.goto frame rest (.returned .ok)

/- A process that has not called EXIT ends here. -/
def UserProcess.ended (process : UserProcess) (status : KernelStatus) : UserProcess :=
  if process.state = .running then
    if status = .ok then
      { process with
        state := .exited
        exitCode := 0
        lastStatus := status }
    else
      { process with
        state := .failed
        exitCode := -1
        lastStatus := status }
  else { process with lastStatus := status }

/- The innermost call of `process_run` takes its next step. -/
def ProcessKernel.advance (files : ImageFiles) (k : ProcessKernel) : Option ProcessKernel :=
  match k.frames with
  | [] => none
  | frame :: rest =>
    match frame.phase with
    | .called => some (k.begin files frame rest)
    | .zeroing i => some (k.zeroByte frame rest i)
    | .copying i => some (k.copyByte frame rest (frame.image.getD ⟨[], 0⟩) i)
    | .prepared => some (k.markRunning frame rest)
    | .marked =>
      some ({ k with currentProcess := some frame.slot }.goto frame rest .current)
    | .current => some (k.enterUserMode files frame rest)
    | .user _ => none
    | .left => some (k.leaveUserMode frame rest)
    | .returned status =>
      some ((k.setProcess frame.slot ((k.table frame.slot).ended status)).goto frame rest .settled)
    | .settled =>
      some
        { k with
          currentProcess := none
          frames := rest }

----------
-- User Code

/- A call whose process is in user mode. -/
def RunFrame.inUserMode (frame : RunFrame) : Bool :=
  match frame.phase with
  | .user _ => true
  | _ => false

/- The innermost call, if its process is in user mode, with the page this process expects. -/
def ProcessKernel.executing (k : ProcessKernel) : Option (RunFrame × List RunFrame × UserPage) :=
  match k.frames with
  | [] => none
  | frame :: rest =>
    match frame.phase with
    | .user page => some (frame, rest, page)
    | _ => none

/- User code, or a system call for it, writes a user page. -/
def ProcessKernel.write (k : ProcessKernel) (inCode : Bool) (offset : Fin 4096)
    (byte : UInt8) : Option ProcessKernel :=
  match k.executing with
  | none => none
  | some (frame, rest, page) =>
    if inCode then
      some
        ({ k with codePage := k.codePage.set offset.val byte }.goto
            frame rest (.user (page.set offset.val byte)))
    else
      some { k with stackPage := k.stackPage.set offset.val byte }

/-
  The EXIT system call. The kernel goes on where user mode was entered last. A trap from user mode
  is taken at the top of the one kernel stack for traps. If another process was interrupted in
  user mode, the calls made since then stand on this stack and are overwritten, and the source
  says nothing about what follows.
-/
def ProcessKernel.exit (k : ProcessKernel) (exitCode : Int) : Option ProcessKernel :=
  match k.executing with
  | none => none
  | some (frame, rest, _) =>
    if rest.any RunFrame.inUserMode then none
    else if k.savedKernel ≠ some rest.length then none
    else
      let exited := processMarkExit k exitCode
      let ring3 := if exited.ring3.inProgress then
          { exited.ring3 with
            completed := true
            inProgress := false }
        else
          { exited.ring3 with
            inProgress := false
            lastStatus := .unsupported }
      some ({ exited with ring3 := ring3 }.goto frame rest .left)

----------
-- Steps

/-
  `create` and `configureImagePath` are also what the EXEC system call does, which does not run
  the new process; `run` is a call of `process_run` by the kernel or by a shell command.
-/
inductive ProcessEvent
| create (entry userStack : Nat)
| configureImagePath (slot : Fin 16) (path : List UInt8)
| clearExited
| run (slot : Fin 16)
| advance
| write (inCode : Bool) (offset : Fin 4096) (byte : UInt8)
| exit (exitCode : Int)

def ProcessKernel.step (files : ImageFiles) (k : ProcessKernel) :
    ProcessEvent → Option ProcessKernel
| .create entry userStack => some (processCreate k entry userStack).2
| .configureImagePath slot path => some (processConfigureImagePath k slot path)
| .clearExited => some (processClearExited k).2
| .run slot => some { k with frames := ⟨slot, none, .called⟩ :: k.frames }
| .advance => k.advance files
| .write inCode offset byte => k.write inCode offset byte
| .exit exitCode => k.exit exitCode

/-
  The kernel at boot, behind `process_initialize` and `ring3_initialize`, which clears both pages.
-/
def ProcessKernel.booted : ProcessKernel where
  table := fun _ => resetProcess
  nextPid := 1
  processCount := 0
  currentProcess := none
  ring3 :=
    { ready := true
      inProgress := false
      completed := false
      lastStatus := .ok }
  codePage := UserPage.zero
  stackPage := UserPage.zero
  frames := []
  savedKernel := none

end LiamOS.I386
