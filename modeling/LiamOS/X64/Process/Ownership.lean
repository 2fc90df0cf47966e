import LiamOS.Lib.Transition
import LiamOS.X64.PageReach
import LiamOS.X64.Process.Ledger

/-
  Ownership of pages over whole runs of `process.c`.

  Processes are created, run, marked as exited and reaped in any order, also by an entry that has
  not returned yet, and bytes beside the kernel's own tables are written meanwhile. However a run
  goes, a page is recorded in one slot at most and not free at the same time.

  Main declarations: `pageOwnership_of_reachable`.
-/

namespace LiamOS.X64

open Word PageTable Transition

variable {mem : ByteMemory} {n : Nat} {i : Fin 64} {w : SlotState}

----------
-- The Machine

/- The slots whose entries run, the innermost first. -/
structure ProcessMachine where
  system : ProcessSystem
  running : List (Fin 64)
  creations : Nat

variable {m : ProcessMachine}

inductive ProcessCall
| create (name : List UInt8) (entry : Nat)
| createUserImage (request : UserImageRequest)
| runNextReady
| entryReturns
| markUserExited (pid exitCode : Nat)
| reapUser (pid : Nat)
| reapExitedUserProcesses
| write (address : Nat) (byte : UInt8)

namespace ProcessMachine

def initialized (s : ProcessSystem) : ProcessMachine := ⟨processInitialize s, [], 0⟩

/- The machine after a call that returned a pid. -/
def created (m : ProcessMachine) (result : Nat × ProcessSystem) : ProcessMachine :=
  { m with
    system := result.2
    creations := if result.1 = 0 then m.creations else m.creations + 1 }

def entered (m : ProcessMachine) : Option (Fin 64) × ProcessSystem → ProcessMachine
| (none, s) => { m with system := s }
| (some i, s) => { m with system := s, running := i :: m.running }

def step (builder : BuilderState) (m : ProcessMachine) : ProcessCall → Option ProcessMachine
| .create name entry => some (m.created (processCreate name entry m.system))
| .createUserImage request => some (m.created (processCreateUserImage request m.system))
| .runNextReady => some (m.entered (startNextReady m.system).outcome)
| .entryReturns =>
    match m.running with
    | [] => none
    | i :: rest =>
      some { m with
        system := finishRun i m.system
        running := rest }
| .markUserExited pid exitCode =>
    some { m with system := (processMarkUserExited pid exitCode m.system).2 }
| .reapUser pid => some { m with system := (processReapUser pid m.system).2 }
| .reapExitedUserProcesses =>
    some { m with system := processReapExitedUserProcesses m.system }
| .write address byte =>
    -- nothing that runs writes to the tables of the kernel
    if pageOf address ∈ allBuilderPages.map builder.tables then
      none
    else
      some { m with
        system := { m.system with mem := Function.update m.system.mem address byte } }

end ProcessMachine

----------
-- The Boot

/- The tables the builder wrote are still in memory. -/
def BuilderRan (builder : BuilderState) (mem : ByteMemory) : Prop :=
  ∃ layout pmmPlan boot userImage pmm mem₀ pmm' mem',
    pmm.stack.Nodup ∧ pagingBuilderInit layout (pagingPlanInit layout pmmPlan)
        boot userImage pmm mem₀ = some (builder, pmm', mem') ∧
      ∀ b x, pageOf x = builder.tables b → mem x = mem' x

/- What the boot leaves to `x86_64_process_initialize`. -/
structure ProcessBoot (builder : BuilderState) (s : ProcessSystem) : Prop where
  ok : builder.builderOk = true
  context : s.context = setPagingContext builder
  ran : BuilderRan builder s.mem
  manager : ∃ regions layout calls,
      s.pmm = (Account.run pmmLender (Account.opened (pmmInit regions layout)) calls).state
  nodup : s.pmm.stack.Nodup
  apart : ∀ b, builder.tables b ∉ s.pmm.stack

variable {builder : BuilderState}
variable {s s' : ProcessSystem}

theorem BuilderRan.built (hRan : BuilderRan builder mem) (hOk : builder.builderOk = true) :
    BuiltTables builder mem := by
  obtain ⟨_, _, _, _, _, _, _, mem', hNodup, hRun, hAgree⟩ := hRan
  exact (pagingBuilderInit_built hRun hOk hNodup).1.of_agree hAgree

theorem processInitialize_ledger (s : ProcessSystem) :
    (processInitialize s).ledger = s.pmm.stack := by
  have hNone : (processInitialize s).recordedPages = [] :=
    List.flatMap_eq_nil_iff.mpr fun _ _ => rfl
  unfold ProcessSystem.ledger
  rw [hNone]
  rfl

theorem ProcessBoot.sound (hBoot : ProcessBoot builder s) :
    SoundSystem builder (processInitialize s) := by
  obtain ⟨regions, layout, calls, hPmm⟩ := hBoot.manager
  have hPages := pageAddresses_run regions layout calls
  rw [← hPmm] at hPages
  have hLedger := processInitialize_ledger s
  refine ⟨hBoot.ok, hBoot.context, ?_, ?_, ?_, ?_, hBoot.ran.built hBoot.ok, fun _ _ => rfl⟩
  · rw [hLedger]
    exact hBoot.nodup
  · rw [hLedger]
    exact hPages.aligned
  · rw [hLedger]
    exact fun p hp => hPages.page_lt hp
  · rw [hLedger]
    exact hBoot.apart

----------
-- Pids

/- The pids of the slots in use, after some creations. -/
structure Numbered (s : ProcessSystem) (creations : Nat) : Prop where
  nextPid : s.nextPid = creations + 1
  below : ∀ i, (s.table i).state ≠ .unused → (s.table i).pid < s.nextPid
  distinct : ∀ i j, (s.table i).state ≠ .unused →
      (s.table j).state ≠ .unused → (s.table i).pid = (s.table j).pid → i = j

theorem Numbered.of_same (hNumbered : Numbered s n) (hSame : SameTable s s') : Numbered s' n := by
  refine ⟨hSame.nextPid.trans hNumbered.nextPid, ?_, ?_⟩
  · rw [hSame.table, hSame.nextPid]
    exact hNumbered.below
  · rw [hSame.table]
    exact hNumbered.distinct

/- A slot in use after the call was in use with its pid. -/
theorem KeepsPid.before (hReplaced : Replaced s s' i w) (hPids : KeepsPid s s' i w) {j : Fin 64}
    (hUsed : (s'.table j).state ≠ .unused) :
    (s.table j).state ≠ .unused ∧ (s'.table j).pid = (s.table j).pid := by
  by_cases hSlot : j = i
  · subst hSlot
    rw [hReplaced.table_self] at hUsed ⊢
    exact hPids.pid hUsed
  · rw [hReplaced.table_other hSlot] at hUsed ⊢
    exact ⟨hUsed, rfl⟩

theorem Numbered.keep (hNumbered : Numbered s n) (hReplaced : Replaced s s' i w)
    (hPids : KeepsPid s s' i w) :
    Numbered s' n := by
  refine ⟨hPids.nextPid.trans hNumbered.nextPid, ?_, ?_⟩
  · intro j hUsed
    obtain ⟨hBefore, hPid⟩ := hPids.before hReplaced hUsed
    rw [hPid, hPids.nextPid]
    exact hNumbered.below j hBefore
  · intro j k hj hk hPid
    obtain ⟨hBeforeJ, hPidJ⟩ := hPids.before hReplaced hj
    obtain ⟨hBeforeK, hPidK⟩ := hPids.before hReplaced hk
    rw [hPidJ, hPidK] at hPid
    exact hNumbered.distinct j k hBeforeJ hBeforeK hPid

/- The new pid is above the pids in use. -/
theorem Numbered.add (hNumbered : Numbered s n) (hReplaced : Replaced s s' i w)
    (hPids : AddsPid s s' i w) (hCount : n + 1 < 4294967295) :
    Numbered s' (n + 1) := by
  have hNext : s'.nextPid = n + 1 + 1 := by
    rw [hPids.nextPid, hNumbered.nextPid]
    exact Nat.mod_eq_of_lt (by omega)
  have hNew : (s'.table i).pid = n + 1 := by rw [hReplaced.table_self, hPids.pid, hNumbered.nextPid]
  have hOld : ∀ j, j ≠ i → (s'.table j).state ≠ .unused →
        (s.table j).state ≠ .unused ∧ (s'.table j).pid = (s.table j).pid ∧
          (s.table j).pid < n + 1 := by
    intro j hSlot hUsed
    rw [hReplaced.table_other hSlot] at hUsed ⊢
    have hBelow := hNumbered.below j hUsed
    rw [hNumbered.nextPid] at hBelow
    exact ⟨hUsed, rfl, hBelow⟩
  refine ⟨hNext, ?_, ?_⟩
  · intro j hUsed
    by_cases hSlot : j = i
    · rw [hSlot, hNew, hNext]
      omega
    · obtain ⟨-, hPid, hBelow⟩ := hOld j hSlot hUsed
      omega
  · intro j k hj hk hPid
    by_cases hSlotJ : j = i
    · by_cases hSlotK : k = i
      · rw [hSlotJ, hSlotK]
      · obtain ⟨-, hPidK, hBelow⟩ := hOld k hSlotK hk
        rw [hSlotJ] at hPid
        omega
    · obtain ⟨hUsedJ, hPidJ, hBelow⟩ := hOld j hSlotJ hj
      by_cases hSlotK : k = i
      · rw [hSlotK] at hPid
        omega
      · obtain ⟨hUsedK, hPidK, -⟩ := hOld k hSlotK hk
        rw [hPidJ, hPidK] at hPid
        exact hNumbered.distinct j k hUsedJ hUsedK hPid

----------
-- The Invariant

structure MachineInvariant (builder : BuilderState) (m : ProcessMachine) : Prop where
  sound : SoundSystem builder m.system
  running : ∀ i ∈ m.running, (m.system.table i).state ≠ .unused ∧ (m.system.table i).mode = .kernel
  numbered : m.creations < 4294967295 → Numbered m.system m.creations

/- Entries that run keep their slots. -/
theorem SystemStep.kernel {created : Bool} (hStep : SystemStep s s' created)
    (hUsed : (s.table i).state ≠ .unused) (hKernel : (s.table i).mode = .kernel) :
    (s'.table i).state ≠ .unused ∧ (s'.table i).mode = .kernel := by
  have hReplace : ∀ {j : Fin 64} {w : SlotState}, Replaced s s' j w →
        (s'.table i).state ≠ .unused ∧ (s'.table i).mode = .kernel := by
    intro j w hReplaced
    by_cases hSlot : i = j
    · subst hSlot
      rw [hReplaced.table_self]
      exact hReplaced.kernel hUsed hKernel
    · rw [hReplaced.table_other hSlot]
      exact ⟨hUsed, hKernel⟩
  cases hStep with
  | same hSame =>
    rw [hSame.table]
    exact ⟨hUsed, hKernel⟩
  | kept j w hReplaced _ => exact hReplace hReplaced
  | added j w hReplaced _ => exact hReplace hReplaced

section

variable (hInv : MachineInvariant builder m)
include hInv

/- A call that creates nothing. -/
theorem MachineInvariant.step_kept (hStep : SystemStep m.system s false) :
    MachineInvariant builder { m with system := s } where
  sound := hInv.sound.step hStep
  running i hi := hStep.kernel (hInv.running i hi).1 (hInv.running i hi).2
  numbered hCount := by
    have hNumbered := hInv.numbered hCount
    cases hStep with
    | same hSame => exact hNumbered.of_same hSame
    | kept i w hReplaced hPids => exact hNumbered.keep hReplaced hPids

/- A call that returns the pid of what it created. -/
theorem MachineInvariant.step_created {pid : Nat}
    (hStep :
      ∃ created, SystemStep m.system s created ∧ pid = if created then m.system.nextPid else 0) :
    MachineInvariant builder (m.created (pid, s)) := by
  obtain ⟨created, hStep, hPid⟩ := hStep
  cases created with
  | false =>
    rw [if_neg (by decide)] at hPid
    subst hPid
    exact hInv.step_kept hStep
  | true =>
    rw [if_pos rfl] at hPid
    refine ⟨hInv.sound.step hStep, fun i hi =>
      hStep.kernel (hInv.running i hi).1 (hInv.running i hi).2, ?_⟩
    intro hCount
    have hMore : m.creations ≤ (m.created (pid, s)).creations := by
      unfold ProcessMachine.created
      dsimp only
      split <;> omega
    have hNumbered := hInv.numbered (by omega)
    -- the next pid has not wrapped around to zero
    have hNonzero : pid ≠ 0 := by
      rw [hPid, hNumbered.nextPid]
      omega
    have hSucc : (m.created (pid, s)).creations = m.creations + 1 := if_neg hNonzero
    rw [hSucc] at hCount ⊢
    cases hStep with
    | added i w hReplaced hPids => exact hNumbered.add hReplaced hPids hCount

theorem MachineInvariant.entered :
    MachineInvariant builder (m.entered (startNextReady m.system).outcome) := by
  rcases hStart : (startNextReady m.system).outcome with ⟨found, s⟩
  obtain ⟨hStep, hEntered⟩ := startNextReady_step hStart
  have hKept := hInv.step_kept hStep
  cases found with
  | none => exact hKept
  | some i =>
    refine ⟨hKept.sound, ?_, hKept.numbered⟩
    intro j hj
    rcases List.mem_cons.mp hj with rfl | hOld
    · exact hEntered j rfl
    · exact hKept.running j hOld

/- The reaping loop is a sequence of reaped slots. -/
theorem MachineInvariant.reapSlots (slots : List (Fin 64)) :
    MachineInvariant builder { m with system := slots.foldl reapSlot m.system } := by
  induction slots generalizing m with
  | nil => exact hInv
  | cons i slots ih =>
    rw [List.foldl_cons]
    have hSlot : MachineInvariant builder { m with system := reapSlot m.system i } := by
      unfold reapSlot
      split
      · exact hInv.step_kept (processReapUser_step _ _)
      · exact hInv
    exact ih hSlot

theorem MachineInvariant.write {address : Nat} (byte : UInt8)
    (hBeside : pageOf address ∉ allBuilderPages.map builder.tables) :
    MachineInvariant builder
      { m with
        system := { m.system with mem := Function.update m.system.mem address byte } } := by
  have hSound := hInv.sound
  refine ⟨⟨hSound.ok, hSound.context, hSound.nodup, hSound.aligned, hSound.bound, hSound.apart, ?_,
    hSound.unused⟩, hInv.running, ?_⟩
  · refine hSound.built.of_agree fun b x hPage => ?_
    refine Function.update_of_ne ?_ _ _
    rintro rfl
    refine hBeside ?_
    rw [hPage]
    exact List.mem_map_of_mem (mem_allBuilderPages b)
  · intro hCount
    exact ⟨(hInv.numbered hCount).nextPid, (hInv.numbered hCount).below,
      (hInv.numbered hCount).distinct⟩

end

theorem MachineInvariant.step (m : ProcessMachine) (call : ProcessCall) (m' : ProcessMachine)
    (hInv : MachineInvariant builder m) (hStep : m.step builder call = some m') :
    MachineInvariant builder m' := by
  cases call with
  | create name entry =>
    cases hStep
    exact hInv.step_created (processCreate_step hInv.sound rfl)
  | createUserImage request =>
    cases hStep
    exact hInv.step_created (processCreateUserImage_step hInv.sound rfl)
  | runNextReady =>
    cases hStep
    exact hInv.entered
  | entryReturns =>
    unfold ProcessMachine.step at hStep
    dsimp only at hStep
    split at hStep
    next => exact absurd hStep (by simp)
    next i rest hRunning =>
      cases hStep
      have hMember : i ∈ m.running := by
        rw [hRunning]
        exact List.mem_cons_self
      have hKept := hInv.step_kept (finishRun_step (hInv.running i hMember).1)
      refine ⟨hKept.sound, ?_, hKept.numbered⟩
      intro j hj
      refine hKept.running j ?_
      show j ∈ m.running
      rw [hRunning]
      exact List.mem_cons_of_mem i hj
  | markUserExited pid exitCode =>
    cases hStep
    exact hInv.step_kept (processMarkUserExited_step _ _ _)
  | reapUser pid =>
    cases hStep
    exact hInv.step_kept (processReapUser_step _ _)
  | reapExitedUserProcesses =>
    have hReaped := hInv.reapSlots (List.finRange 64)
    rw [← Option.some.inj hStep]
    unfold processReapExitedUserProcesses
    exact hReaped
  | write address byte =>
    unfold ProcessMachine.step at hStep
    dsimp only at hStep
    split at hStep
    next => exact absurd hStep (by simp)
    next hBeside =>
      cases hStep
      exact hInv.write byte hBeside

theorem foldl_reapSlot_ledger (slots : List (Fin 64)) (s : ProcessSystem) :
    (slots.foldl reapSlot s).ledger ⊆ s.ledger := by
  induction slots generalizing s with
  | nil => exact List.Subset.refl _
  | cons i slots ih =>
    have hSlot : (reapSlot s i).ledger ⊆ s.ledger := by
      unfold reapSlot
      split
      · exact (processReapUser_step _ _).ledger_subset
      · exact List.Subset.refl _
    rw [List.foldl_cons]
    exact List.Subset.trans (ih _) hSlot

/- The pages a run moves are those it started with. -/
theorem MachineInvariant.ledger_subset {m' : ProcessMachine} {call : ProcessCall}
    (hInv : MachineInvariant builder m) (hStep : m.step builder call = some m') :
    m'.system.ledger ⊆ m.system.ledger := by
  cases call with
  | create name entry =>
    cases hStep
    obtain ⟨_, hSystem, -⟩ := processCreate_step hInv.sound rfl
    exact hSystem.ledger_subset
  | createUserImage request =>
    cases hStep
    obtain ⟨_, hSystem, -⟩ := processCreateUserImage_step hInv.sound rfl
    exact hSystem.ledger_subset
  | runNextReady =>
    cases hStep
    rcases hStart : (startNextReady m.system).outcome with ⟨found, s⟩
    have hSystem := (startNextReady_step hStart).1
    cases found with
    | none => exact hSystem.ledger_subset
    | some i => exact hSystem.ledger_subset
  | entryReturns =>
    unfold ProcessMachine.step at hStep
    dsimp only at hStep
    split at hStep
    next => exact absurd hStep (by simp)
    next i rest hRunning =>
      cases hStep
      refine (finishRun_step (hInv.running i ?_).1).ledger_subset
      rw [hRunning]
      exact List.mem_cons_self
  | markUserExited pid exitCode =>
    cases hStep
    exact (processMarkUserExited_step _ _ _).ledger_subset
  | reapUser pid =>
    cases hStep
    exact (processReapUser_step _ _).ledger_subset
  | reapExitedUserProcesses =>
    have hReaped : (processReapExitedUserProcesses m.system).ledger ⊆ m.system.ledger := by
      unfold processReapExitedUserProcesses
      exact foldl_reapSlot_ledger _ _
    rw [← Option.some.inj hStep]
    dsimp only
    exact hReaped
  | write address byte =>
    unfold ProcessMachine.step at hStep
    dsimp only at hStep
    split at hStep
    next => exact absurd hStep (by simp)
    next =>
      cases hStep
      exact List.Subset.refl _

theorem ProcessBoot.invariant (hBoot : ProcessBoot builder s) :
    MachineInvariant builder (.initialized s) where
  sound := hBoot.sound
  running _ hi := absurd hi List.not_mem_nil
  numbered _ := ⟨rfl, fun _ hUsed => absurd rfl hUsed, fun _ _ hUsed => absurd rfl hUsed⟩

theorem MachineInvariant.of_reachable (hBoot : ProcessBoot builder s)
    (hReach : Reachable (ProcessMachine.step builder) (.initialized s) m) :
    MachineInvariant builder m :=
  hReach.induct MachineInvariant.step hBoot.invariant

/- All pages of a run were free behind the boot. -/
theorem ledger_subset_of_reachable (hBoot : ProcessBoot builder s)
    (hReach : Reachable (ProcessMachine.step builder) (.initialized s) m) :
    m.system.ledger ⊆ s.pmm.stack := by
  have hStart : MachineInvariant builder (.initialized s) ∧
        (ProcessMachine.initialized s).system.ledger ⊆ s.pmm.stack :=
    ⟨hBoot.invariant, fun _ hp => (processInitialize_ledger s) ▸ hp⟩
  have hKept : ∀ (t : ProcessMachine) (call : ProcessCall) (t' : ProcessMachine),
        MachineInvariant builder t ∧ t.system.ledger ⊆ s.pmm.stack →
        t.step builder call = some t' →
        MachineInvariant builder t' ∧ t'.system.ledger ⊆ s.pmm.stack := by
    intro t call t' hInv hStep
    exact ⟨hInv.1.step t call t' hStep, List.Subset.trans (hInv.1.ledger_subset hStep) hInv.2⟩
  exact (hReach.induct hKept hStart).2

----------
-- A Boot With Free Pages

/- A boot with a region of 64 pages and no framebuffer. -/
def wideBoot : BootSummary := { zeroSummary with memoryRegions := [⟨0x200000, 0x40000, 1⟩] }

def widePages (first count : Nat) : List Nat := (List.range count).map fun i => (first - i) * 4096

/- The sixteen pages of the builder, and those left over. -/
theorem wideBoot_stack :
    (pmmInit wideBoot.memoryRegions smallLayout).stack = widePages 575 16 ++ widePages 559 48 := by
  decide +kernel

def wideSystem (builder : BuilderState) (mem : ByteMemory) : ProcessSystem where
  table := fun _ => clearedProcess
  counters := zeroCounters
  context := setPagingContext builder
  nextPid := 1
  nextAddressSpaceId := 1
  kernelScheduleCursor := 0
  userScheduleCursor := 0
  childStatusQueue := []
  pmm := { pmmInit wideBoot.memoryRegions smallLayout with stack := widePages 559 48 }
  mem := mem

theorem wideSystem_manager (builder : BuilderState) (mem : ByteMemory) :
    (wideSystem builder mem).pmm =
      (Account.run pmmLender (Account.opened (pmmInit wideBoot.memoryRegions smallLayout))
        (List.replicate 16 .take)).state := by
  show { pmmInit wideBoot.memoryRegions smallLayout with stack := widePages 559 48 } = _
  decide +kernel

/- The tables of the builder are above 2 MiB. -/
theorem wideSystem_boots_above : ∃ builder mem,
      ProcessBoot builder (wideSystem builder mem) ∧ ∀ b, 0x200000 ≤ builder.tables b := by
  have hPlan :
      (pagingPlanInit smallLayout
        (pmmPlanInit wideBoot.memoryRegions smallLayout)).planOk = true := by
    decide +kernel
  have hNodup : (widePages 575 16 ++ widePages 559 48).Nodup := by decide +kernel
  have hFramebuffer : wideBoot.framebufferRgbFormatOk = false := rfl
  obtain ⟨builder, mem, hRun, hOk, hTables⟩ := pagingBuilderInit_succeeds (fun _ => 0) hPlan rfl
      wideBoot_stack (by decide +kernel) (by decide +kernel)
      (List.nodup_append.mp hNodup).1 (by decide +kernel)
      (by decide +kernel) hFramebuffer tinyImage_loads
  have hMember : ∀ b, builder.tables b ∈ widePages 575 16 := by
    intro b
    rw [hTables]
    exact builderTables_mem (by decide +kernel) b
  refine ⟨builder, mem, ⟨hOk, rfl, ?_, ?_, ?_, ?_⟩, ?_⟩
  · refine ⟨smallLayout, _, wideBoot, tinyImage, _, fun _ => 0, _, mem, ?_, hRun, fun _ _ _ => rfl⟩
    rw [wideBoot_stack]
    exact hNodup
  · exact ⟨_, _, _, wideSystem_manager builder mem⟩
  · exact (List.nodup_append.mp hNodup).2.1
  · intro b hFree
    exact List.disjoint_of_nodup_append hNodup (hMember b) hFree
  · intro b
    have hAbove : ∀ p ∈ widePages 575 16, 0x200000 ≤ p := by decide +kernel
    exact hAbove _ (hMember b)

theorem wideSystem_boots : ∃ builder mem, ProcessBoot builder (wideSystem builder mem) := by
  obtain ⟨builder, mem, hBoot, -⟩ := wideSystem_boots_above
  exact ⟨builder, mem, hBoot⟩

/- An image of sixteen bytes on one page. -/
def shortImage : UserImageRequest where
  path := textBytes "/bin/smoke"
  loadedCodePages := 0x300000
  codeBytes := 16
  entry := 0x400000
  pageCount := 1
  writablePageBitmap := 0

/- A first process of the wide boot is created. -/
theorem wideSystem_creates_valid {builder : BuilderState} {mem mem' : ByteMemory}
    {request : UserImageRequest}
    (hSound : SoundSystem builder { processInitialize (wideSystem builder mem) with mem := mem' })
    (hValid : request.isValid = true) :
    ∃ s, processCreateUserImage request
        { processInitialize (wideSystem builder mem) with mem := mem' } = (1, s) := by
  have hUsable : ∀ k < 12, (widePages 559 48).getD k 0 ≠ 0 := by decide +kernel
  obtain ⟨s, -, hResult, -⟩ := processCreateUserImage_succeeds hSound rfl hValid
      (show _ = some (0 : Fin 64) from rfl) rfl hUsable
  exact ⟨s, hResult⟩

/- The first process of the wide boot is created. -/
theorem wideSystem_creates (hBoot : ProcessBoot builder (wideSystem builder mem)) : ∃ s,
      processCreateUserImage shortImage (processInitialize (wideSystem builder mem)) = (1, s) := by
  have hValid : shortImage.isValid = true := by decide +kernel
  exact @wideSystem_creates_valid builder mem mem shortImage hBoot.sound hValid

----------
-- Ownership

/- Every recorded page has one owner and is not free. -/
structure PageOwnership (s : ProcessSystem) : Prop where
  distinct : s.recordedPages.Nodup
  notFree : ∀ p ∈ s.recordedPages, p ∉ s.pmm.stack
  unused : ∀ i, (s.table i).state = .unused → (s.table i).ownedPages = []

/- The pids in use are distinct and below the next one. -/
structure PidsBelow (s : ProcessSystem) : Prop where
  distinct : ∀ i j, (s.table i).state ≠ .unused →
      (s.table j).state ≠ .unused → (s.table i).pid = (s.table j).pid → i = j
  below : ∀ i, (s.table i).state ≠ .unused → (s.table i).pid < s.nextPid

theorem pageOwnership_of_reachable {m : ProcessMachine} (hBoot : ProcessBoot builder s)
    (hReach : Reachable (ProcessMachine.step builder) (.initialized s) m) :
    PageOwnership m.system ∧ (m.creations < 4294967295 → PidsBelow m.system) := by
  have hInv := MachineInvariant.of_reachable hBoot hReach
  have hNodup := hInv.sound.nodup
  refine ⟨⟨?_, ?_, hInv.sound.unused⟩, ?_⟩
  · exact (List.nodup_append.mp hNodup).1
  · intro p hRecorded hFree
    exact List.disjoint_of_nodup_append hNodup hRecorded hFree
  · intro hCount
    have hNumbered := hInv.numbered hCount
    exact ⟨hNumbered.distinct, hNumbered.below⟩

/- One process created after the wide boot. -/
theorem pageOwnership_of_reachable_wideSystem :
    ∃ builder mem m, ProcessBoot builder (wideSystem builder mem) ∧
        run (ProcessMachine.step builder) (.initialized (wideSystem builder mem))
          [.createUserImage shortImage] = some m ∧
        m.creations = 1 ∧
        PageOwnership m.system ∧
        PidsBelow m.system := by
  obtain ⟨builder, mem, hBoot⟩ := wideSystem_boots
  obtain ⟨s, hCreated⟩ := wideSystem_creates hBoot
  have hStep : ProcessMachine.step builder (.initialized (wideSystem builder mem))
        (.createUserImage shortImage) = some ⟨s, [], 1⟩ := by
    show some (ProcessMachine.created (.initialized (wideSystem builder mem))
      (processCreateUserImage shortImage (processInitialize (wideSystem builder mem)))) = _
    rw [hCreated]
    rfl
  have hRun := run_cons_some hStep []
  obtain ⟨hPages, hPids⟩ := pageOwnership_of_reachable hBoot ⟨_, hRun⟩
  exact ⟨builder, mem, _, hBoot, hRun, rfl, hPages, hPids (by decide : 1 < 4294967295)⟩

end LiamOS.X64
