import LiamOS.I386.Process.Model
import LiamOS.I386.VmmMap

/-
  Loads and runs of user images of the i386 kernel, `core/kernel/arch/i386/ring3.c`.

  `ring3_initialize` prepares the two user pages on its first call and afterwards returns
  `last_status`, in which every later call also leaves its own result. So the first call that is
  rejected is the last that is served.

  What `ring3_prepare_pages` answers and what a program leaves in the two pages before it exits
  are given with the calls. The counters are left out.

  Main declarations: `loadsServed_iff`, `rejected_load_disables`.
-/

namespace LiamOS.I386

variable {codePage stackPage userEip userEsp : Nat} {s : PageState}

----------
-- State

structure Ring3Info where
  initialized : Bool
  ready : Bool
  inProgress : Bool
  completed : Bool
  lastStatus : KernelStatus
  codePhysical : Nat
  stackPhysical : Nat
  userCodeVirtual : Nat
  userStackTop : Nat
  loadedImageSize : Nat
deriving DecidableEq, Repr

/- `ring3_info` with the contents of the two pages. -/
structure Ring3State where
  info : Ring3Info
  codePage : UserPage
  stackPage : UserPage

/- `ring3_loaded_image_t`. -/
structure LoadedImage where
  entry : Nat
  userStackTop : Nat
  imageSize : Nat
deriving DecidableEq, Repr

/- The pages `ring3_prepare_pages` got, or why it got none. -/
abbrev PreparedPages := Except KernelStatus (Nat × Nat)

----------
-- Operations

/- The two pages go back, the stack page first. -/
def ring3FreePages (codePage stackPage : Nat) (s : PageState) : PageState :=
  { s with pmm := pmmFreePage codePage (pmmFreePage stackPage s.pmm) }

/- The two pages are mapped for the user and looked up again. -/
def ring3MapPages (codePage stackPage : Nat) (s : PageState) : PreparedPages × PageState :=
  let flags := vmmPageWritable ||| vmmPageUser
  match vmmMapPage ring3UserCodeVirtual codePage flags s with
  | (false, s) => (.error .outOfMemory, ring3FreePages codePage stackPage s)
  | (true, s) =>
    match vmmMapPage ring3UserStackVirtual stackPage flags s with
    | (false, s) =>
      (.error .outOfMemory,
        ring3FreePages codePage stackPage (vmmUnmapPage ring3UserCodeVirtual s).2)
    | (true, s) =>
      if !vmmValidateMapping ring3UserCodeVirtual flags s ||
          !vmmValidateMapping ring3UserStackVirtual flags s
      then
        (.error .corruptionDetected, ring3FreePages codePage stackPage
            (vmmUnmapPage ring3UserCodeVirtual (vmmUnmapPage ring3UserStackVirtual s).2).2)
      else
        (.ok (codePage, stackPage), s)

/-
  `ring3_prepare_pages`. To the page managers the loop over a page that is zeroed is that over a
  page table.
-/
def ring3PreparePages (s : PageState) : PreparedPages × PageState :=
  let (codePage, pmm) := pmmAllocPage s.pmm
  if codePage = 0 then
    (.error .outOfMemory, { s with pmm := pmm })
  else
    let (stackPage, pmm) := pmmAllocPage pmm
    if stackPage = 0 then
      (.error .outOfMemory, { s with pmm := pmmFreePage codePage pmm })
    else
      ring3MapPages codePage stackPage
        (vmmClearPageTable stackPage 1024 (vmmClearPageTable codePage 1024 { s with pmm := pmm }))

def clearedRing3Info : Ring3Info where
  initialized := true
  ready := false
  inProgress := false
  completed := false
  lastStatus := .ok
  codePhysical := 0
  stackPhysical := 0
  userCodeVirtual := 0
  userStackTop := 0
  loadedImageSize := 0

/- `ring3_zero_page`. -/
def ring3ZeroPage (page : UserPage) : UserPage :=
  (List.range ring3UserPageSize).foldl (fun page i => page.set i 0) page

def ring3Initialize (prepared : PreparedPages) (r : Ring3State) : KernelStatus × Ring3State :=
  if r.info.initialized then
    (r.info.lastStatus, r)
  else
    match prepared with
    | .error status =>
      (status,
        { r with
          info := { clearedRing3Info with lastStatus := status } })
    | .ok (codePage, stackPage) =>
      (.ok,
        { info := { clearedRing3Info with
            ready := true
            codePhysical := codePage
            stackPhysical := stackPage
            userCodeVirtual := ring3UserCodeVirtual
            userStackTop := ring3UserStackTop }
          codePage := ring3ZeroPage r.codePage
          stackPage := ring3ZeroPage r.stackPage })

/- Leave a status behind and return it. -/
def Ring3State.fail (r : Ring3State) (status : KernelStatus) : KernelStatus × Ring3State :=
  (status, { r with info := { r.info with lastStatus := status } })

/- The loop that copies an image to the code page. -/
def ring3CopyImage (image : Nat → UInt8) (imageSize : Nat) (page : UserPage) : UserPage :=
  (List.range imageSize).foldl (fun page i => page.set i (image i)) page

/-
  `ring3_load_user_image`. A null image is `none`; `out` says whether there is a place for the
  description of the image, which is `info` of the state that is returned.
-/
def ring3LoadUserImage (prepared : PreparedPages) (image : Option (Nat → UInt8)) (imageSize : Nat)
    (out : Bool)
    (r : Ring3State) : KernelStatus × Ring3State :=
  match image, out with
  | none, _ => (.invalidArgument, r)
  | some _, false => (.invalidArgument, r)
  | some image, true =>
    let (status, r) := ring3Initialize prepared r
    if status ≠ .ok then
      (status, r)
    else if r.info.ready = false ∨ r.info.codePhysical = 0 ∨ r.info.stackPhysical = 0 then
      r.fail .invalidState
    else if imageSize = 0 ∨ ring3UserPageSize < imageSize then
      r.fail .unsupported
    else
      (.ok,
        { r with
          codePage := ring3CopyImage image imageSize (ring3ZeroPage r.codePage)
          info := { r.info with
            loadedImageSize := imageSize
            lastStatus := .ok } })

/- What a successful load stores for its caller. -/
def Ring3State.loadedImage (r : Ring3State) : LoadedImage where
  entry := r.info.userCodeVirtual
  userStackTop := r.info.userStackTop
  imageSize := r.info.loadedImageSize

/-
  What a program does until its EXIT: the pages as it leaves them and what `syscall_dispatch`
  returns for the EXIT.
-/
structure UserRun where
  codePage : UserPage
  stackPage : UserPage
  exitResult : KernelStatus

/- `ring3_syscall_entry` for the EXIT of a program. -/
def ring3ExitEntry (exitResult : KernelStatus) (info : Ring3Info) : Ring3Info :=
  if info.inProgress ∧ exitResult = .ok then
    { info with completed := true, inProgress := false }
  else
    { info with inProgress := false, lastStatus := .unsupported }

def ring3RunUserImage (prepared : PreparedPages) (userEip userEsp : Nat) (user : UserRun)
    (r : Ring3State) : KernelStatus × Ring3State :=
  let (status, r) := ring3Initialize prepared r
  if status ≠ .ok then
    r.fail status
  else if r.info.ready = false then
    r.fail .invalidState
  else if userEip = 0 ∨ userEsp = 0 then
    r.fail .invalidArgument
  else
    let info :=
      ring3ExitEntry user.exitResult { r.info with inProgress := true, completed := false }
    let r : Ring3State := ⟨info, user.codePage, user.stackPage⟩
    if info.completed = false then
      { r with info := { info with inProgress := false } }.fail
        .invalidState
    else
      r.fail .ok

inductive Ring3Call
| load (image : Option (Nat → UInt8)) (imageSize : Nat) (out : Bool)
| run (userEip userEsp : Nat) (user : UserRun)

def Ring3State.step (prepared : PreparedPages) (r : Ring3State) :
    Ring3Call → KernelStatus × Ring3State
| .load image imageSize out => ring3LoadUserImage prepared image imageSize out r
| .run userEip userEsp user => ring3RunUserImage prepared userEip userEsp user r

----------
-- Pages

theorem foldl_set_apply (byte : Nat → UInt8) (n : Nat) (page : UserPage) (o : Fin 4096) :
    (List.range n).foldl (fun page i => page.set i (byte i)) page o =
      if o.val < n then byte o.val else page o := by
  induction n with
  | zero => rfl
  | succ n ih =>
    rw [List.range_succ, List.foldl_append]
    show (if o.val = n then byte n else _) = _
    rw [ih]
    by_cases hLast : o.val = n
    · rw [if_pos hLast, if_pos (by omega), hLast]
    · rw [if_neg hLast]
      by_cases hBelow : o.val < n
      · rw [if_pos hBelow, if_pos (by omega)]
      · rw [if_neg hBelow, if_neg (by omega)]

/- The image, followed by zeros. -/
def imagePage (image : Nat → UInt8) (imageSize : Nat) : UserPage :=
  fun o => if o.val < imageSize then image o.val else 0

theorem ring3CopyImage_zeroPage (image : Nat → UInt8) (imageSize : Nat) (page : UserPage) :
    ring3CopyImage image imageSize (ring3ZeroPage page) = imagePage image imageSize := by
  funext o
  unfold ring3CopyImage ring3ZeroPage imagePage
  rw [foldl_set_apply, foldl_set_apply (fun _ => 0)]
  rw [if_pos (c := o.val < ring3UserPageSize) o.isLt]

theorem ring3MapPages_pages {pages : Nat × Nat}
    (hPrepared : (ring3MapPages codePage stackPage s).1 = .ok pages) :
    pages = (codePage, stackPage) := by
  unfold ring3MapPages at hPrepared
  dsimp only at hPrepared
  split at hPrepared
  · exact absurd hPrepared nofun
  · split at hPrepared
    · exact absurd hPrepared nofun
    · split at hPrepared
      · exact absurd hPrepared nofun
      · exact (Except.ok.inj hPrepared).symm

/- The pages the user gets are pages. -/
theorem ring3PreparePages_nonzero
    (hPrepared : (ring3PreparePages s).1 = .ok (codePage, stackPage)) :
    codePage ≠ 0 ∧ stackPage ≠ 0 := by
  unfold ring3PreparePages at hPrepared
  dsimp only at hPrepared
  split at hPrepared
  · exact absurd hPrepared nofun
  · next hCode =>
      split at hPrepared
      · exact absurd hPrepared nofun
      · next hStack =>
          have hPages := ring3MapPages_pages hPrepared
          rw [Prod.mk.injEq] at hPages
          rw [hPages.1, hPages.2]
          exact ⟨hCode, hStack⟩

----------
-- Calls

/- A load of an image that fits in the code page. -/
def Ring3Call.GoodLoad : Ring3Call → Prop
| .load (some _) imageSize true => 1 ≤ imageSize ∧ imageSize ≤ ring3UserPageSize
| _ => False

/- A call that leaves an error status behind. -/
def Ring3Call.Rejected : Ring3Call → Prop
| .load (some _) imageSize true => imageSize = 0 ∨ ring3UserPageSize < imageSize
| .load _ _ _ => False
| .run userEip userEsp user => userEip = 0 ∨ userEsp = 0 ∨ user.exitResult ≠ .ok

/- A good load is served with its image in the code page. -/
def LoadServed (prepared : PreparedPages) (r : Ring3State) : Ring3Call → Prop
| .load (some image) imageSize true =>
    1 ≤ imageSize → imageSize ≤ ring3UserPageSize →
      (r.step prepared (.load (some image) imageSize true)).1 = .ok ∧
        (r.step prepared (.load (some image) imageSize true)).2.codePage = imagePage image imageSize
| _ => True

/- Every good load of a list of calls is served in its turn. -/
def LoadsServed (prepared : PreparedPages) : Ring3State → List Ring3Call → Prop
| _, [] => True
| r, call :: calls =>
    LoadServed prepared r call ∧ LoadsServed prepared (r.step prepared call).2 calls

/- The user pages are prepared. -/
structure PagesPrepared (r : Ring3State) : Prop where
  initialized : r.info.initialized = true
  ready : r.info.ready = true
  code : r.info.codePhysical ≠ 0
  stack : r.info.stackPhysical ≠ 0

variable {prepared : PreparedPages}
variable {r : Ring3State}

theorem ring3Initialize_prepared (hPages : PagesPrepared r) :
    ring3Initialize prepared r = (r.info.lastStatus, r) :=
  if_pos hPages.initialized

/- A load with all its arguments once the pages are there. -/
theorem ring3LoadUserImage_prepared (hPages : PagesPrepared r) (image : Nat → UInt8)
    (imageSize : Nat) :
    ring3LoadUserImage prepared (some image) imageSize true r = if r.info.lastStatus ≠ .ok then
        (r.info.lastStatus, r)
      else if imageSize = 0 ∨ ring3UserPageSize < imageSize then
        r.fail .unsupported
      else
        (.ok,
          { r with
            codePage := imagePage image imageSize
            info := { r.info with
              loadedImageSize := imageSize
              lastStatus := .ok } }) := by
  have hReady : ¬ (r.info.ready = false ∨ r.info.codePhysical = 0 ∨ r.info.stackPhysical = 0) := by
    rintro (hReady | hCode | hStack)
    · rw [hPages.ready] at hReady
      exact absurd hReady (by decide)
    · exact hPages.code hCode
    · exact hPages.stack hStack
  unfold ring3LoadUserImage
  dsimp only
  rw [ring3Initialize_prepared hPages]
  dsimp only
  rw [if_neg hReady, ring3CopyImage_zeroPage]

/- A run that enters user mode. -/
theorem ring3RunUserImage_entered (hPages : PagesPrepared r) (hStatus : r.info.lastStatus = .ok)
    (hArguments : ¬ (userEip = 0 ∨ userEsp = 0)) (user : UserRun) :
    ring3RunUserImage prepared userEip userEsp user r = if user.exitResult = .ok then
        (.ok,
          { info := { r.info with
              completed := true
              inProgress := false
              lastStatus := .ok }
            codePage := user.codePage
            stackPage := user.stackPage })
      else
        (.invalidState,
          { info := { r.info with
              completed := false
              inProgress := false
              lastStatus := .invalidState }
            codePage := user.codePage
            stackPage := user.stackPage }) := by
  have hReady : ¬ r.info.ready = false := by
    rw [hPages.ready]
    decide
  unfold ring3RunUserImage
  rw [ring3Initialize_prepared hPages]
  dsimp only
  rw [if_neg (not_not.mpr hStatus), if_neg hReady, if_neg hArguments]
  unfold ring3ExitEntry
  by_cases hExit : user.exitResult = .ok
  · rw [if_pos hExit]
    simp [hExit, Ring3State.fail]
  · rw [if_neg hExit]
    simp [hExit, Ring3State.fail]

/- A run that is refused in front of user mode. -/
theorem ring3RunUserImage_refused (hPages : PagesPrepared r) (user : UserRun)
    (hRefused : r.info.lastStatus ≠ .ok ∨ userEip = 0 ∨ userEsp = 0) :
    ring3RunUserImage prepared userEip userEsp user r = r.fail
        (if r.info.lastStatus ≠ .ok then
          r.info.lastStatus
        else
          .invalidArgument) := by
  have hReady : ¬ r.info.ready = false := by
    rw [hPages.ready]
    decide
  unfold ring3RunUserImage
  rw [ring3Initialize_prepared hPages]
  dsimp only
  by_cases hStatus : r.info.lastStatus ≠ .ok
  · rw [if_pos hStatus, if_pos hStatus]
  · rw [if_neg hStatus, if_neg hStatus, if_neg hReady, if_pos (hRefused.resolve_left hStatus)]

----------
-- One Call

/- No call takes the pages away. -/
theorem PagesPrepared.step (hPages : PagesPrepared r) (call : Ring3Call) :
    PagesPrepared (r.step prepared call).2 := by
  cases call with
  | load image imageSize out =>
    show PagesPrepared (ring3LoadUserImage prepared image imageSize out r).2
    match image, out with
    | none, _ => exact hPages
    | some _, false => exact hPages
    | some image, true =>
      rw [ring3LoadUserImage_prepared hPages]
      split
      · exact hPages
      · split <;>
          exact ⟨hPages.initialized, hPages.ready, hPages.code, hPages.stack⟩
  | run userEip userEsp user =>
    show PagesPrepared (ring3RunUserImage prepared userEip userEsp user r).2
    by_cases hRefused : r.info.lastStatus ≠ .ok ∨ userEip = 0 ∨ userEsp = 0
    · rw [ring3RunUserImage_refused hPages user hRefused]
      exact ⟨hPages.initialized, hPages.ready, hPages.code, hPages.stack⟩
    · rw [not_or, not_not] at hRefused
      rw [ring3RunUserImage_entered hPages hRefused.1 hRefused.2]
      split <;>
        exact ⟨hPages.initialized, hPages.ready, hPages.code, hPages.stack⟩

/- After an error status every call leaves an error status. -/
theorem step_disabled (hPages : PagesPrepared r) (hStatus : r.info.lastStatus ≠ .ok)
    (call : Ring3Call) :
    (r.step prepared call).2.info.lastStatus ≠ .ok ∧
      (LoadServed prepared r call → ¬ call.GoodLoad) := by
  cases call with
  | load image imageSize out =>
    match image, out with
    | none, _ => exact ⟨hStatus, fun _ hGood => hGood⟩
    | some _, false => exact ⟨hStatus, fun _ hGood => hGood⟩
    | some image, true =>
      have hLoad : r.step prepared (.load (some image) imageSize true) = (r.info.lastStatus, r) :=
        (ring3LoadUserImage_prepared hPages image imageSize).trans (if_pos hStatus)
      refine ⟨?_, ?_⟩
      · rw [hLoad]
        exact hStatus
      · intro hServed hGood
        have hOk := (hServed hGood.1 hGood.2).1
        rw [hLoad] at hOk
        exact hStatus hOk
  | run userEip userEsp user =>
    refine ⟨?_, fun _ hGood => hGood⟩
    show (ring3RunUserImage prepared userEip userEsp user r).2.info.lastStatus ≠ .ok
    rw [ring3RunUserImage_refused hPages user (Or.inl hStatus), if_pos hStatus]
    exact hStatus

/- Before one, a call is served, and leaves one if rejected. -/
theorem step_enabled (hPages : PagesPrepared r) (hStatus : r.info.lastStatus = .ok)
    (call : Ring3Call) :
    ((r.step prepared call).2.info.lastStatus = .ok ↔ ¬ call.Rejected) ∧
      LoadServed prepared r call := by
  cases call with
  | load image imageSize out =>
    match image, out with
    | none, _ => exact ⟨iff_of_true hStatus not_false, trivial⟩
    | some _, false => exact ⟨iff_of_true hStatus not_false, trivial⟩
    | some image, true =>
      have hLoad := @ring3LoadUserImage_prepared prepared r hPages image imageSize
      rw [if_neg (not_not.mpr hStatus)] at hLoad
      have hStep : r.step prepared (.load (some image) imageSize true) =
            ring3LoadUserImage prepared (some image) imageSize true r := rfl
      rw [hStep, hLoad]
      refine ⟨?_, ?_⟩
      · by_cases hSize : imageSize = 0 ∨ ring3UserPageSize < imageSize
        · rw [if_pos hSize]
          exact iff_of_false (by simp [Ring3State.fail]) (not_not.mpr hSize)
        · rw [if_neg hSize]
          exact iff_of_true rfl hSize
      · intro hLow hHigh
        rw [hStep, hLoad, if_neg (by omega)]
        exact ⟨rfl, rfl⟩
  | run userEip userEsp user =>
    refine ⟨?_, trivial⟩
    show (ring3RunUserImage prepared userEip userEsp user
      r).2.info.lastStatus = .ok ↔ ¬ (userEip = 0 ∨ userEsp = 0 ∨ user.exitResult ≠ .ok)
    by_cases hArguments : userEip = 0 ∨ userEsp = 0
    · rw [ring3RunUserImage_refused hPages user (Or.inr hArguments), if_neg (not_not.mpr hStatus)]
      exact iff_of_false (by simp [Ring3State.fail]) (by tauto)
    · rw [ring3RunUserImage_entered hPages hStatus hArguments]
      by_cases hExit : user.exitResult = .ok
      · rw [if_pos hExit]
        exact iff_of_true rfl (by tauto)
      · rw [if_neg hExit]
        exact iff_of_false (by simp) (by tauto)

----------
-- Runs

/- After an error status no good load may come. -/
theorem loadsServed_disabled (hPages : PagesPrepared r) (hStatus : r.info.lastStatus ≠ .ok)
    (calls : List Ring3Call) :
    LoadsServed prepared r calls → ∀ call ∈ calls, ¬ call.GoodLoad := by
  induction calls generalizing r with
  | nil => exact fun _ call hCall => absurd hCall List.not_mem_nil
  | cons first calls ih =>
    rintro ⟨hServed, hRest⟩ call hCall
    obtain ⟨hNext, hBad⟩ := @step_disabled prepared r hPages hStatus first
    rcases List.mem_cons.mp hCall with rfl | hLater
    · exact hBad hServed
    · exact ih (hPages.step first) hNext hRest call hLater

theorem loadServed_of_not_good {call : Ring3Call} (hCall : ¬ call.GoodLoad) :
    LoadServed prepared r call := by
  cases call with
  | load image imageSize out =>
    match image, out with
    | none, _ => trivial
    | some _, false => trivial
    | some image, true => exact fun hLow hHigh => absurd ⟨hLow, hHigh⟩ hCall
  | run userEip userEsp user => trivial

theorem loadsServed_of_not_good {calls : List Ring3Call}
    (hCalls : ∀ call ∈ calls, ¬ call.GoodLoad) :
    LoadsServed prepared r calls := by
  induction calls generalizing r with
  | nil => trivial
  | cons call calls ih =>
    rw [List.forall_mem_cons] at hCalls
    exact ⟨loadServed_of_not_good hCalls.1, ih hCalls.2⟩

theorem loadsServed_enabled (hPages : PagesPrepared r) (hStatus : r.info.lastStatus = .ok)
    (calls : List Ring3Call) :
    LoadsServed prepared r calls ↔ calls.Pairwise fun earlier later =>
        earlier.Rejected → ¬ later.GoodLoad := by
  induction calls generalizing r with
  | nil => exact iff_of_true trivial List.Pairwise.nil
  | cons call calls ih =>
    obtain ⟨hNext, hServed⟩ := @step_enabled prepared r hPages hStatus call
    have hPages' := @PagesPrepared.step prepared r hPages call
    rw [List.pairwise_cons]
    by_cases hRejected : call.Rejected
    · have hDisabled := mt hNext.mp (not_not.mpr hRejected)
      constructor
      · rintro ⟨-, hRest⟩
        have hBad := loadsServed_disabled hPages' hDisabled calls hRest
        refine ⟨fun later hLater _ => hBad later hLater, ?_⟩
        exact List.pairwise_of_forall_mem_list fun _ _ later hLater _ => hBad later hLater
      · rintro ⟨hFirst, -⟩
        exact ⟨hServed, loadsServed_of_not_good fun later hLater => hFirst later hLater hRejected⟩
    · have hEnabled := hNext.mpr hRejected
      constructor
      · rintro ⟨-, hRest⟩
        exact ⟨fun _ _ hFalse => absurd hFalse hRejected, (ih hPages' hEnabled).mp hRest⟩
      · rintro ⟨-, hRest⟩
        exact ⟨hServed, (ih hPages' hEnabled).mpr hRest⟩

/-
  From the first initialisation on, every load of an image that fits is served exactly if it comes
  behind no rejected load and no run that was refused or did not complete.
-/
theorem loadsServed_iff {r : Ring3State} {codePage stackPage : Nat}
    (hFresh : r.info.initialized = false) (hCode : codePage ≠ 0) (hStack : stackPage ≠ 0)
    (calls : List Ring3Call) :
    LoadsServed (.ok (codePage, stackPage))
        (ring3Initialize (.ok (codePage, stackPage)) r).2 calls ↔
      calls.Pairwise fun earlier later =>
        earlier.Rejected → ¬ later.GoodLoad := by
  have hFirst : ¬ r.info.initialized = true := by
    rw [hFresh]
    decide
  apply loadsServed_enabled
  · unfold ring3Initialize
    rw [if_neg hFirst]
    exact ⟨rfl, rfl, hCode, hStack⟩
  · unfold ring3Initialize
    rw [if_neg hFirst]
    rfl

/- `ring3_info` and the pages as the boot loader leaves them. -/
def freshRing3 : Ring3State where
  info := { clearedRing3Info with initialized := false }
  codePage := .zero
  stackPage := .zero

/- Two loads, a run between them, and no rejected call. -/
theorem loadsServed_iff_fresh :
    LoadsServed (.ok (0x200000, 0x201000)) (ring3Initialize (.ok (0x200000, 0x201000)) freshRing3).2
      [.load (some fun _ => 0x90) 4096 true, .run 0x10000000 0x10001FF0 ⟨.zero, .zero, .ok⟩,
        .load (some fun _ => 0xF4) 1 true] := by
  refine (loadsServed_iff rfl (by decide) (by decide) _).mpr ?_
  simp [Ring3Call.Rejected, Ring3Call.GoodLoad, ring3UserPageSize]

/- An image that is one byte too large and one of four bytes. -/
theorem rejected_load_disables :
    (Calls.run (Ring3State.step (.ok (0x200000, 0x201000)))
        (ring3Initialize (.ok (0x200000, 0x201000)) freshRing3).2
        [.load (some fun _ => 0x90) 4097 true, .load (some fun _ => 0x90) 4 true]).1 =
      [.unsupported, .unsupported] :=
  rfl

end LiamOS.I386
