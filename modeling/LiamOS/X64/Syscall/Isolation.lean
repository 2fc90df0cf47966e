import LiamOS.X64.Keyboard.Events
import LiamOS.X64.Syscall.Dispatch
import LiamOS.X64.Vfs.Session

/-
  What the x86_64 system calls store for user mode.

  A service checks the range of its output argument, not the tables of the program. `Checked` says
  what such a service does: a range that is refused gives EFAULT, any other does not, and the
  stores stay in the range. Every service is checked in this sense, and from that alone follows
  when a call respects the pages of the program.

  Main declarations: `syscallDispatch_isolated_iff`.
-/

namespace LiamOS.X64

open Word BoundedText PageTable Transition

variable {out : SyscallOutcome} {arg0 arg1 turns : Nat} {bytes : List UInt8} {k : KeyboardDriver}
variable {s : DispatchSystem}
variable {view : ByteMemory} {arg2 buffer i path spins spins' value : Nat} {store : Nat × UInt8}
variable {stores : List (Nat × UInt8)} {serial : List (List UInt8)} {k' : KeyboardDriver}

----------
-- Output Arguments

def InBuffer (start size address : Nat) : Prop := start ≤ address ∧ address < start + size

/- The bytes the output arguments of a call stand for. -/
def Designated (call : SyscallCall) (address : Nat) : Prop :=
  match syscallService call.number.toNat with
  | some .read => InBuffer call.arg1.toNat call.arg2.toNat address
  | some .stat => InBuffer call.arg1.toNat 8 address
  | some .getArg => InBuffer call.arg1.toNat call.arg2.toNat address
  | some .ps => InBuffer call.arg0.toNat call.arg1.toNat address
  | some .wait => InBuffer call.arg0.toNat 4 address ∨ InBuffer call.arg1.toNat 4 address
  | some .desktopStatus => InBuffer call.arg0.toNat call.arg1.toNat address
  | some .inputStatus => InBuffer call.arg0.toNat call.arg1.toNat address
  | some .inputEvents => InBuffer call.arg0.toNat (call.arg1.toNat * 24) address
  | _ => False

/- A range that is not between the code and the half way. -/
def RangeRefused (address size : Nat) : Prop :=
  0 < size ∧ (address < 0x400000 ∨ 0x800000000000 < address + size)

/- A path that ends in time and inside the same bounds. -/
def PathReadable (view : ByteMemory) (path : Nat) : Prop :=
  0x400000 ≤ path ∧ ∃ n < 64, path + n < 0x800000000000 ∧ view (path + n) = 0

/- The calls with an output that is refused for its address. -/
def OutputRefused (view : ByteMemory) (call : SyscallCall) : Prop :=
  match syscallService call.number.toNat with
  | some .read => RangeRefused call.arg1.toNat call.arg2.toNat
  | some .stat => ¬ PathReadable view call.arg0.toNat ∨ RangeRefused call.arg1.toNat 8
  | some .getArg => call.arg0.toNat = 0 ∧ RangeRefused call.arg1.toNat call.arg2.toNat
  | some .ps => RangeRefused call.arg0.toNat call.arg1.toNat
  | some .wait => RangeRefused call.arg0.toNat 4 ∨ RangeRefused call.arg1.toNat 4
  | some .desktopStatus => RangeRefused call.arg0.toNat call.arg1.toNat
  | some .inputStatus => RangeRefused call.arg0.toNat call.arg1.toNat
  | some .inputEvents => call.arg1.toNat ≤ 64 ∧ RangeRefused call.arg0.toNat (call.arg1.toNat * 24)
  | _ => False

/-
  Every byte that is stored belongs to user mode, and a call that stands for another byte ends
  with EFAULT and stores nothing.
-/
structure SyscallIsolated (user designated : Nat → Prop) (out : SyscallOutcome) : Prop where
  stores : ∀ store ∈ out.stores, user store.1
  refusal : (∃ a, designated a ∧ ¬ user a) → out.result = some syscallRetEfault ∧ out.stores = []

/- What a service with an output argument does. -/
structure Checked (designated : Nat → Prop) (refused : Prop) (out : SyscallOutcome) : Prop where
  refuses : refused → out.result = some syscallRetEfault ∧ out.stores = []
  accepts : ¬ refused → (∃ a, designated a) → out.result ≠ some syscallRetEfault
  stores : ∀ store ∈ out.stores, designated store.1

theorem Checked.isolated_iff {designated : Nat → Prop} {refused : Prop}
    (hChecked : Checked designated refused out) (user : Nat → Prop) :
    SyscallIsolated user designated out ↔ (∀ a, designated a → user a) ∨ refused := by
  constructor
  · intro hIsolated
    by_cases hRefused : refused
    · exact Or.inr hRefused
    · left
      intro a hDesignated
      by_contra hOutside
      have hFault := hIsolated.refusal ⟨a, hDesignated, hOutside⟩
      exact hChecked.accepts hRefused ⟨a, hDesignated⟩ hFault.1
  · rintro (hInside | hRefused)
    · refine ⟨?_, ?_⟩
      · intro store hStore
        exact hInside _ (hChecked.stores store hStore)
      · rintro ⟨a, hDesignated, hOutside⟩
        exact absurd (hInside a hDesignated) hOutside
    · have hFault := hChecked.refuses hRefused
      refine ⟨?_, fun _ => hFault⟩
      intro store hStore
      rw [hFault.2] at hStore
      exact absurd hStore List.not_mem_nil

----------
-- Ranges And Paths

theorem userRangeOk_eq_false_iff {address size : Nat} (hAddress : address < 18446744073709551616)
    (hSize : size < 18446744073709551616) :
    userRangeOk address size = false ↔ RangeRefused address size := by
  unfold userRangeOk RangeRefused userCodeBase userCanonicalLimit u64
  dsimp only
  split_ifs <;> simp <;> omega

/- The string test looks for the first byte that is zero. -/
theorem userCstringValid_iff (hBase : 0x400000 ≤ path)
    (hTurns : path + i + turns < 18446744073709551616) :
    userCstringValid view path turns i = true ↔
      ∃ n, i ≤ n ∧ n < i + turns ∧ path + n < 0x800000000000 ∧ view (path + n) = 0 := by
  induction turns generalizing i with
  | zero =>
    rw [userCstringValid]
    constructor
    · intro hFalse
      exact absurd hFalse (by decide)
    · rintro ⟨n, hLow, hHigh, -⟩
      omega
  | succ turns ih =>
    have hAddress : u64 (path + i) = path + i := u64_of_lt (by omega)
    have hRange : userRangeOk (path + i) 1 = false ↔ 0x800000000000 ≤ path + i := by
      rw [userRangeOk_eq_false_iff (by omega) (by decide)]
      unfold RangeRefused
      omega
    rw [userCstringValid, hAddress]
    by_cases hBeyond : 0x800000000000 ≤ path + i
    · rw [if_pos (hRange.mpr hBeyond)]
      constructor
      · intro hFalse
        exact absurd hFalse (by decide)
      · rintro ⟨n, hLow, -, hLimit, -⟩
        omega
    · rw [if_neg (fun hFalse => hBeyond (hRange.mp hFalse))]
      by_cases hZero : view (path + i) = 0
      · rw [if_pos hZero]
        exact ⟨fun _ => ⟨i, by omega, by omega, by omega, hZero⟩, fun _ => rfl⟩
      · rw [if_neg hZero, ih (by omega)]
        constructor
        · rintro ⟨n, hLow, hHigh, hRest⟩
          exact ⟨n, by omega, by omega, hRest⟩
        · rintro ⟨n, hLow, hHigh, hRest⟩
          have hOther : n ≠ i := by
            rintro rfl
            exact hZero hRest.2
          exact ⟨n, by omega, by omega, hRest⟩

theorem userPathOk_iff (hPath : path < 18446744073709551616) :
    userPathOk view path = true ↔ PathReadable view path := by
  have hRange := userRangeOk_eq_false_iff hPath (show 1 < 18446744073709551616 by decide)
  unfold userPathOk PathReadable
  rw [Bool.and_eq_true]
  by_cases hRefused : RangeRefused path 1
  · rw [hRange.mpr hRefused]
    unfold RangeRefused at hRefused
    constructor
    · rintro ⟨hFalse, -⟩
      exact absurd hFalse (by decide)
    · rintro ⟨hBase, n, -, hLimit, -⟩
      omega
  · have hOk : userRangeOk path 1 = true := by
      rw [← Bool.not_eq_false, hRange]
      exact hRefused
    unfold RangeRefused at hRefused
    rw [hOk, userCstringValid_iff (by omega)
      (show path + 0 + vfsPathMaxBytes < 18446744073709551616 by
        unfold vfsPathMaxBytes; omega)]
    unfold vfsPathMaxBytes
    constructor
    · rintro ⟨-, n, -, hLess, hRest⟩
      exact ⟨by omega, n, by omega, hRest⟩
    · rintro ⟨-, n, hLess, hRest⟩
      exact ⟨rfl, n, by omega, by omega, hRest⟩

----------
-- Lengths

theorem mem_storesAt {address : Nat} (hStore : store ∈ storesAt address bytes) :
    InBuffer address bytes.length store.1 := by
  obtain ⟨⟨byte, i⟩, hPair, rfl⟩ := List.mem_map.mp hStore
  have hIndex := List.snd_lt_of_mem_zipIdx hPair
  unfold InBuffer
  dsimp only at hIndex ⊢
  omega

theorem mem_storesFrom {address size : Nat} (hWithin : Within size stores)
    (hStore : store ∈ storesFrom address stores) :
    InBuffer address size store.1 := by
  obtain ⟨inner, hInner, rfl⟩ := List.mem_map.mp hStore
  have hIndex := hWithin inner hInner
  unfold InBuffer
  dsimp only
  omega

theorem InBuffer.mono {start size size' address : Nat} (hIn : InBuffer start size address)
    (hSize : size ≤ size') :
    InBuffer start size' address := by
  unfold InBuffer at *
  omega

theorem takeCharacters_length_le {size : Nat} (hBytes : bytes.length ≤ size) (k : KeyboardDriver) :
    (takeCharacters size turns bytes k).1.length ≤ size := by
  induction turns generalizing bytes k with
  | zero => exact hBytes
  | succ turns ih =>
    rw [takeCharacters]
    split
    · next hMore =>
        apply ih
        rw [List.length_append, List.length_singleton]
        omega
    · exact hBytes

theorem keyboardRead_length_le (buffer size : Nat) (k : KeyboardDriver) :
    (keyboardRead buffer size k).1.length ≤ size := by
  unfold keyboardRead
  split
  · exact Nat.zero_le _
  · exact takeCharacters_length_le (Nat.zero_le _) _

theorem readStdin_length_le (buffer size : Nat) (ready : List UInt8) (k : KeyboardDriver) :
    (readStdin buffer size ready k).1.length ≤ size := by
  have hTyped := keyboardRead_length_le buffer size k
  unfold readStdin
  rcases hRead : keyboardRead buffer size k with ⟨bytes, k'⟩
  rw [hRead] at hTyped
  dsimp only at hTyped ⊢
  split
  · have hSerial :
        (serialRead (buffer + bytes.length)
          (size - bytes.length) ready).length ≤ size - bytes.length := by
      unfold serialRead
      split
      · exact Nat.zero_le _
      · exact List.length_take_le _ _
    rw [List.length_append]
    omega
  · exact hTyped

theorem pollStdin_length_le {size : Nat}
    (hPoll : pollStdin buffer size serial spins k = (some bytes, spins', k')) :
    bytes.length ≤ size := by
  induction serial generalizing spins k with
  | nil => cases hPoll
  | cons ready serial ih =>
    have hLength := readStdin_length_le buffer size ready k
    rw [pollStdin] at hPoll
    rcases hRead : readStdin buffer size ready k with ⟨found, k₁⟩
    rw [hRead] at hPoll hLength
    cases found with
    | nil => exact ih hPoll
    | cons byte rest =>
      cases hPoll
      exact hLength

theorem readStdinBlocking_length_le {size : Nat}
    (hRead : readStdinBlocking buffer size serial spins k = (some bytes, spins', k')) :
    bytes.length ≤ size := by
  unfold readStdinBlocking at hRead
  split at hRead
  · cases hRead
    exact Nat.zero_le _
  · exact pollStdin_length_le hRead

/- A read returns an error or the number of bytes it stores. -/
theorem vfsRead_value (images : VfsImages) (fd : Nat) (buffer : Bool) (size : Nat)
    (session : SessionStorage) (state : VfsState) :
    (vfsRead images fd buffer size session state).1.bytes.length ≤ size ∧
      ((vfsRead images fd buffer size session state).1.value = vfsRetEinval ∨
        (vfsRead images fd buffer size session state).1.value = vfsRetEbadf ∨
        (vfsRead images fd buffer size session state).1.value ≤ size) := by
  unfold vfsRead
  split
  · exact ⟨Nat.zero_le _, Or.inl rfl⟩
  · split
    · exact ⟨Nat.zero_le _, Or.inr (Or.inl rfl)⟩
    · split
      · exact ⟨Nat.zero_le _, Or.inr (Or.inl rfl)⟩
      · dsimp only
        split
        · exact ⟨Nat.zero_le _, Or.inr (Or.inr (Nat.zero_le _))⟩
        · rw [List.length_map, List.length_range]
          dsimp only
          split
          · exact ⟨Nat.le_refl _, Or.inr (Or.inr (Nat.le_refl _))⟩
          · next hMore =>
              exact ⟨not_lt.mp hMore, Or.inr (Or.inr (not_lt.mp hMore))⟩

theorem vfsStat_value (images : VfsImages) (path scratch : ByteBuffer) (session : SessionStorage) :
    (vfsStat images path scratch session).bytes.length ≤ 8 ∧
      ((vfsStat images path scratch session).value = vfsRetEnoent ∨
        (vfsStat images path scratch session).value = vfsRetOk) := by
  unfold vfsStat vfsLookup
  cases (vfsFindNode path scratch).join with
  | none => exact ⟨Nat.zero_le _, Or.inl rfl⟩
  | some nodeIndex =>
    dsimp only
    cases (vfsNodes images)[nodeIndex]? with
    | none => exact ⟨Nat.zero_le _, Or.inl rfl⟩
    | some node =>
      dsimp only
      rw [bytesLE_length]
      exact ⟨Nat.le_refl _, Or.inr rfl⟩

theorem copyStringArg_le (buffer size : Nat) (value : List UInt8) :
    (copyStringArg buffer size value).1 ≤ size ∧
      (copyStringArg buffer size value).2.length ≤ size := by
  have hTaken := List.length_take_le (size - 1) value
  unfold copyStringArg
  split
  · exact ⟨Nat.zero_le _, Nat.zero_le _⟩
  · dsimp only
    rw [List.length_append, List.length_singleton]
    omega

theorem collectEvents_length_le {current maxEvents cursor : Nat} {events : List InputEvent}
    (hEvents : events.length ≤ maxEvents) :
    (collectEvents k current maxEvents turns i events cursor).1.length ≤ maxEvents := by
  induction turns generalizing i events cursor with
  | zero => exact hEvents
  | succ turns ih =>
    rw [collectEvents]
    split
    · dsimp only
      split
      · apply ih
        rw [List.length_append, List.length_singleton]
        omega
      · exact ih hEvents
    · exact hEvents

theorem inputEventsReadFrom_length_le (cursor events maxEvents : Nat) (k : KeyboardDriver) :
    (inputEventsReadFrom cursor events maxEvents k).1.length ≤ maxEvents := by
  unfold inputEventsReadFrom
  split
  · exact Nat.zero_le _
  · dsimp only
    split
    · exact Nat.zero_le _
    · exact collectEvents_length_le (Nat.zero_le _)

theorem length_inputEventBytes (events : List InputEvent) :
    (events.flatMap inputEventBytes).length = events.length * 24 := by
  induction events with
  | nil => rfl
  | cons event events ih =>
    have hEvent : (inputEventBytes event).length = 24 := by simp [inputEventBytes, bytesLE_length]
    rw [List.flatMap_cons, List.length_append, ih, hEvent, List.length_cons]
    omega

----------
-- Checked Services

variable {designated : Nat → Prop}
variable {refused : Prop}
variable {address size : Nat}

theorem checked_refused (hRefused : refused) (s : DispatchSystem) :
    Checked designated refused (s.reply syscallRetEfault []) :=
  ⟨fun _ => ⟨rfl, rfl⟩, fun hAccepted => absurd hRefused hAccepted,
    fun _ hStore => absurd hStore List.not_mem_nil⟩

theorem checked_accepted (hAccepted : ¬ refused) (hValue : value ≠ syscallRetEfault)
    (hStores : ∀ store ∈ stores, designated store.1) :
    Checked designated refused (s.reply value stores) :=
  ⟨fun hRefused => absurd hRefused hAccepted,
    fun _ _ hResult => hValue (Option.some.inj hResult), hStores⟩

/- A service without an output argument stores nothing. -/
theorem checked_nothing (hStores : out.stores = []) : Checked (fun _ => False) False out := by
  refine ⟨False.elim, fun _ ⟨_, hNone⟩ => hNone.elim, ?_⟩
  intro store hStore
  rw [hStores] at hStore
  exact absurd hStore List.not_mem_nil

/- The range check in front of a service. -/
theorem checked_range (hAddress : address < 18446744073709551616)
    (hSize : size < 18446744073709551616)
    (hOut : ¬ RangeRefused address size → Checked designated (RangeRefused address size) out) :
    Checked designated (RangeRefused address size)
      (if userRangeOk address size = false then
        s.reply syscallRetEfault []
      else
        out) := by
  have hRange := userRangeOk_eq_false_iff hAddress hSize
  by_cases hRefused : RangeRefused address size
  · rw [if_pos (hRange.mpr hRefused)]
    exact checked_refused hRefused s
  · rw [if_neg (fun hFalse => hRefused (hRange.mp hFalse))]
    exact hOut hRefused

/- An accepted range is too short for an error code. -/
theorem ne_efault_of_le (hAccepted : ¬ RangeRefused address size) (hValue : value ≤ size) :
    value ≠ syscallRetEfault := by
  unfold RangeRefused at hAccepted
  unfold syscallRetEfault
  omega

/- A service whose value is the number of its bytes. -/
theorem checked_bytes (hAccepted : ¬ RangeRefused address size) (hBytes : bytes.length ≤ size) :
    Checked (InBuffer address size) (RangeRefused address size)
      (s.reply bytes.length (storesAt address bytes)) := by
  apply checked_accepted hAccepted
  · exact ne_efault_of_le hAccepted hBytes
  · intro store hStore
    exact (mem_storesAt hStore).mono hBytes

theorem sysRead_checked (env : SyscallEnv) (s : DispatchSystem)
    (hArg1 : arg1 < 18446744073709551616) (hArg2 : arg2 < 18446744073709551616) :
    Checked (InBuffer arg1 arg2) (RangeRefused arg1 arg2) (sysRead env arg0 arg1 arg2 s) := by
  unfold sysRead
  apply checked_range hArg1 hArg2
  intro hAccepted
  by_cases hStdin : arg0 = 0
  · rw [if_pos hStdin]
    by_cases hBlocking : s.state.blockingReadEnabled = true
    · rw [if_pos hBlocking]
      rcases hRead : readStdinBlocking arg1 arg2 env.serial s.state.blockingReadSpins s.keyboard
        with ⟨_ | bytes, spins, k⟩
      · -- the call still waits
        exact ⟨fun hRefused => absurd hRefused hAccepted, fun _ _ => nofun,
          fun _ hStore => absurd hStore List.not_mem_nil⟩
      · exact checked_bytes hAccepted (readStdinBlocking_length_le hRead)
    · rw [if_neg hBlocking]
      have hLength := readStdin_length_le arg1 arg2 (env.serial.headD []) s.keyboard
      rcases hRead : readStdin arg1 arg2 (env.serial.headD []) s.keyboard with ⟨bytes, k⟩
      rw [hRead] at hLength
      exact checked_bytes hAccepted hLength
  · rw [if_neg hStdin]
    obtain ⟨hBytes, hValue⟩ :=
      vfsRead_value env.images arg0 (decide (arg1 ≠ 0)) arg2 s.session s.state.vfs
    rcases hRead : vfsRead env.images arg0 (decide (arg1 ≠ 0)) arg2 s.session s.state.vfs
      with ⟨reply, vfs⟩
    rw [hRead] at hBytes hValue
    apply checked_accepted hAccepted
    · rcases hValue with hInvalid | hBad | hCount
      · rw [hInvalid]
        decide
      · rw [hBad]
        decide
      · exact ne_efault_of_le hAccepted hCount
    · intro store hStore
      exact (mem_storesAt hStore).mono hBytes

theorem sysStat_checked (env : SyscallEnv) (s : DispatchSystem)
    (hArg0 : arg0 < 18446744073709551616) (hArg1 : arg1 < 18446744073709551616) :
    Checked (InBuffer arg1 8) (¬ PathReadable env.view arg0 ∨ RangeRefused arg1 8)
      (sysStat env arg0 arg1 s) := by
  have hCheck : (userPathOk env.view arg0 = false ∨ userRangeOk arg1 8 = false) ↔
        (¬ PathReadable env.view arg0 ∨ RangeRefused arg1 8) := by
    rw [userRangeOk_eq_false_iff hArg1 (by decide), ← Bool.not_eq_true, userPathOk_iff hArg0]
  unfold sysStat
  by_cases hRefused : ¬ PathReadable env.view arg0 ∨ RangeRefused arg1 8
  · rw [if_pos (hCheck.mpr hRefused)]
    exact checked_refused hRefused s
  · rw [if_neg (fun hFalse => hRefused (hCheck.mp hFalse))]
    obtain ⟨hBytes, hValue⟩ :=
      vfsStat_value env.images (bufferAt env.view arg0) env.scratch s.session
    apply checked_accepted hRefused
    · rcases hValue with hMissing | hFound
      · rw [hMissing]
        decide
      · rw [hFound]
        decide
    · intro store hStore
      exact (mem_storesAt hStore).mono hBytes

theorem sysGetArg_checked (s : DispatchSystem) (hArg1 : arg1 < 18446744073709551616)
    (hArg2 : arg2 < 18446744073709551616) :
    Checked (InBuffer arg1 arg2) (arg0 = 0 ∧ RangeRefused arg1 arg2)
      (sysGetArg arg0 arg1 arg2 s) := by
  unfold sysGetArg
  by_cases hOther : arg0 = 0
  · have hSame : (arg0 = 0 ∧ RangeRefused arg1 arg2) = RangeRefused arg1 arg2 :=
      propext ⟨And.right, fun hRange => ⟨hOther, hRange⟩⟩
    rw [if_neg (not_not.mpr hOther), hSame]
    apply checked_range hArg1 hArg2
    intro hAccepted
    split
    · exact checked_accepted hAccepted (by decide) (fun _ hStore => absurd hStore List.not_mem_nil)
    · obtain ⟨hWritten, hBytes⟩ := copyStringArg_le arg1 arg2 (textBytes "interactive")
      rcases hCopy : copyStringArg arg1 arg2 (textBytes "interactive") with ⟨written, bytes⟩
      rw [hCopy] at hWritten hBytes
      apply checked_accepted hAccepted
      · exact ne_efault_of_le hAccepted hWritten
      · intro store hStore
        exact (mem_storesAt hStore).mono hBytes
  · rw [if_pos hOther]
    exact checked_accepted (fun hBoth => hOther hBoth.1)
      (by decide) (fun _ hStore => absurd hStore List.not_mem_nil)

theorem sysPs_checked (s : DispatchSystem) (hArg0 : arg0 < 18446744073709551616)
    (hArg1 : arg1 < 18446744073709551616) :
    Checked (InBuffer arg0 arg1) (RangeRefused arg0 arg1) (sysPs arg0 arg1 s) := by
  unfold sysPs
  apply checked_range hArg0 hArg1
  intro hAccepted
  apply checked_accepted hAccepted
  · exact ne_efault_of_le hAccepted (processSnapshot_value arg0 arg1 s.processes)
  · intro store hStore
    exact mem_storesFrom (processSnapshot_within arg0 arg1 s.processes) hStore

theorem sysDesktopStatus_checked (env : SyscallEnv) (s : DispatchSystem)
    (hArg0 : arg0 < 18446744073709551616) (hArg1 : arg1 < 18446744073709551616) :
    Checked (InBuffer arg0 arg1) (RangeRefused arg0 arg1) (sysDesktopStatus env arg0 arg1 s) := by
  unfold sysDesktopStatus
  apply checked_range hArg0 hArg1
  intro hAccepted
  apply checked_accepted hAccepted
  · exact ne_efault_of_le hAccepted (desktopServicesSnapshot_value arg0 arg1 _ s.desktop)
  · intro store hStore
    exact mem_storesFrom (desktopServicesSnapshot_within arg0 arg1 _ s.desktop) hStore

theorem sysInputStatus_checked (s : DispatchSystem) (hArg0 : arg0 < 18446744073709551616)
    (hArg1 : arg1 < 18446744073709551616) :
    Checked (InBuffer arg0 arg1) (RangeRefused arg0 arg1) (sysInputStatus arg0 arg1 s) := by
  unfold sysInputStatus
  apply checked_range hArg0 hArg1
  intro hAccepted
  rcases keyboardGetState s.keyboard with ⟨keyboard, k⟩
  have hValue := formatInputStatus_value arg1 keyboard
  apply checked_accepted hAccepted
  · unfold syscallRetEfault
    omega
  · intro store hStore
    exact mem_storesFrom (formatInputStatus_within arg1 keyboard) hStore

/- The child's pid and exit code go to two addresses. -/
theorem sysWait_checked (s : DispatchSystem) (hArg0 : arg0 < 18446744073709551616)
    (hArg1 : arg1 < 18446744073709551616) :
    Checked (fun a => InBuffer arg0 4 a ∨ InBuffer arg1 4 a)
      (RangeRefused arg0 4 ∨ RangeRefused arg1 4)
      (sysWait arg0 arg1 s) := by
  have hCheck : (userRangeOk arg0 4 = false ∨ userRangeOk arg1 4 = false) ↔
        (RangeRefused arg0 4 ∨ RangeRefused arg1 4) := by
    rw [userRangeOk_eq_false_iff hArg0 (by decide), userRangeOk_eq_false_iff hArg1 (by decide)]
  unfold sysWait
  by_cases hRefused : RangeRefused arg0 4 ∨ RangeRefused arg1 4
  · rw [if_pos (hCheck.mpr hRefused)]
    exact checked_refused hRefused s
  · rw [if_neg (fun hFalse => hRefused (hCheck.mp hFalse))]
    rcases processWaitChild s.state.currentPid s.processes with ⟨_ | child, processes⟩
    · exact checked_accepted hRefused (by decide) (fun _ hStore => absurd hStore List.not_mem_nil)
    · apply checked_accepted hRefused (by decide)
      intro store hStore
      rcases List.mem_append.mp hStore with hPid | hCode
      · left
        have hIn := mem_storesAt hPid
        rw [bytesLE_length] at hIn
        exact hIn
      · right
        have hIn := mem_storesAt hCode
        rw [bytesLE_length] at hIn
        exact hIn

theorem sysInputEvents_checked (s : DispatchSystem) (hArg0 : arg0 < 18446744073709551616) :
    Checked (InBuffer arg0 (arg1 * 24)) (arg1 ≤ 64 ∧ RangeRefused arg0 (arg1 * 24))
      (sysInputEvents arg0 arg1 s) := by
  unfold sysInputEvents inputEventBytesCount inputEventQueueCapacity
  dsimp only
  by_cases hCount : arg1 ≤ 64
  · have hBytes : u64 (arg1 * 24) = arg1 * 24 := u64_of_lt (by omega)
    have hSame : (arg1 ≤ 64 ∧ RangeRefused arg0 (arg1 * 24)) = RangeRefused arg0 (arg1 * 24) :=
      propext ⟨And.right, fun hRange => ⟨hCount, hRange⟩⟩
    rw [hBytes, hSame, if_neg (by omega)]
    apply checked_range hArg0 (by omega)
    intro hAccepted
    have hLength := inputEventsReadFrom_length_le s.state.inputEventCursor arg0 arg1 s.keyboard
    rcases hRead : inputEventsReadFrom s.state.inputEventCursor arg0 arg1 s.keyboard
      with ⟨events, cursor, k⟩
    rw [hRead] at hLength
    dsimp only at hLength
    apply checked_accepted hAccepted
    · dsimp only
      unfold syscallRetEfault
      omega
    · intro store hStore
      refine (mem_storesAt hStore).mono ?_
      rw [length_inputEventBytes]
      exact Nat.mul_le_mul_right 24 hLength
  · rw [if_pos (Or.inl (by omega))]
    exact checked_accepted (fun hBoth => hCount hBoth.1)
      (by decide) (fun _ hStore => absurd hStore List.not_mem_nil)

----------
-- Services That Store Nothing

theorem sysWrite_stores (env : SyscallEnv) (arg0 arg1 arg2 : Nat) (s : DispatchSystem) :
    (sysWrite env arg0 arg1 arg2 s).stores = [] := by
  unfold sysWrite
  split
  · rfl
  · split <;> rfl

theorem sysOpen_stores (env : SyscallEnv) (arg0 arg1 : Nat) (s : DispatchSystem) :
    (sysOpen env arg0 arg1 s).stores = [] := by
  unfold sysOpen
  split <;> rfl

theorem sysExec_stores (env : SyscallEnv) (arg0 : Nat) (s : DispatchSystem) :
    (sysExec env arg0 s).stores = [] := by
  unfold sysExec
  dsimp only
  split
  · rfl
  · split <;> rfl

theorem sysSpawn_stores (env : SyscallEnv) (arg0 : Nat) (s : DispatchSystem) :
    (sysSpawn env arg0 s).stores = [] := by
  unfold sysSpawn
  dsimp only
  split
  · rfl
  · split <;> rfl

theorem sysSleepTicks_stores (env : SyscallEnv) (arg0 : Nat) (s : DispatchSystem) :
    (sysSleepTicks env arg0 s).stores = [] := by
  unfold sysSleepTicks
  split <;> rfl

----------
-- Dispatch

/- The whole dispatcher, one case for each service. -/
theorem syscallDispatch_checked (env : SyscallEnv) (call : SyscallCall) (s : DispatchSystem) :
    Checked (Designated call) (OutputRefused env.view call) (syscallDispatch env call s) := by
  have hArg0 : call.arg0.toNat < 18446744073709551616 := call.arg0.toNat_lt
  have hArg1 : call.arg1.toNat < 18446744073709551616 := call.arg1.toNat_lt
  have hArg2 : call.arg2.toNat < 18446744073709551616 := call.arg2.toNat_lt
  have hDesignated : Designated call = fun a => Designated call a := rfl
  rw [hDesignated]
  unfold Designated OutputRefused syscallDispatch
  dsimp only
  cases syscallService call.number.toNat with
  | none => exact checked_nothing rfl
  | some service =>
    cases service with
    | exit => exact checked_nothing rfl
    | write => exact checked_nothing (sysWrite_stores _ _ _ _ _)
    | openFile => exact checked_nothing (sysOpen_stores _ _ _ _)
    | read => exact sysRead_checked _ _ hArg1 hArg2
    | close => exact checked_nothing rfl
    | stat => exact sysStat_checked _ _ hArg0 hArg1
    | getArg => exact sysGetArg_checked _ hArg1 hArg2
    | exec => exact checked_nothing (sysExec_stores _ _ _)
    | getpid => exact checked_nothing rfl
    | yield => exact checked_nothing rfl
    | ps => exact sysPs_checked _ hArg0 hArg1
    | wait => exact sysWait_checked _ hArg0 hArg1
    | desktopStatus => exact sysDesktopStatus_checked _ _ hArg0 hArg1
    | windowPresent => exact checked_nothing rfl
    | ticks => exact checked_nothing rfl
    | sleepTicks => exact checked_nothing (sysSleepTicks_stores _ _ _)
    | inputStatus => exact sysInputStatus_checked _ hArg0 hArg1
    | inputEvents => exact sysInputEvents_checked _ hArg0
    | spawn => exact checked_nothing (sysSpawn_stores _ _ _)

----------
-- The Tables Of A Program

/-
  The tables of the running program: those of the builder, with the pages of the first image, or
  those of a process with the pages of the image it was created for.
-/
inductive ProgramTables : ByteMemory → Nat → Nat → Prop
| builder
    {builder : BuilderState}
    {mem : ByteMemory}
    (hRan : BuilderRan builder mem)
    (hOk : builder.builderOk = true) :
    ProgramTables mem (builder.tables .pml4Table) builder.image.userImagePages
| process
    {builder : BuilderState}
    {request : UserImageRequest}
    {s s' : ProcessSystem}
    {m : ProcessMachine}
    {pid : Nat}
    {i : Fin 64}
    (hBoot : ProcessBoot builder s)
    (hReach : Reachable (ProcessMachine.step builder) (.initialized s) m)
    (hRun : processCreateUserImage request m.system = (pid, s'))
    (hPid : pid ≠ 0)
    (hUnused : (m.system.table i).state = .unused)
    (hUsed : (s'.table i).state ≠ .unused) :
    ProgramTables s'.mem ((s'.table i).pages .cr3) request.pageCount.toNat

/- The pages of the code and the page of the stack. -/
def InProgram (pageCount address : Nat) : Prop :=
  (0x400000 ≤ address ∧ address < 0x400000 + pageCount * 4096) ∨
    (0x7FFFF000 ≤ address ∧ address < 0x80000000)

theorem ProgramTables.userAt_iff {mem : ByteMemory} {cr3 pageCount : Nat}
    (hTables : ProgramTables mem cr3 pageCount) (a : Nat) :
    UserAt mem cr3 a ↔ InProgram pageCount a := by
  cases hTables with
  | builder hRan hOk => exact (builderSpace_inMemory (hRan.built hOk)).userAt_iff a
  | @process builder request s s' m pid i hBoot hReach hRun hPid
      hUnused hUsed =>
      have hSound := (MachineInvariant.of_reachable hBoot hReach).sound
      have hValid := isValid_of_created hRun hPid
      rcases processCreateUserImage_cases hSound hRun with ⟨hFailed, -⟩ | ⟨-, j, w, hCreated, -⟩
      · exact absurd hFailed hPid
      · -- the only slot that changes is that of the creation
        have hSlot : i = j := by
          by_contra hOther
          rw [hCreated.replaced.table_other hOther] at hUsed
          exact hUsed hUnused
        rw [hSlot, hCreated.replaced.table_self, hCreated.replaced.mem]
        have hSeparation := hCreated.image.separation (isValid_pageCount hValid).2
        exact hSeparation.user a

/-
  A call respects the pages of the program exactly if the bytes it stands for are all on these
  pages, or it is refused for an address in front of the code or above the lower half.
-/
theorem syscallDispatch_isolated_iff {mem : ByteMemory} {cr3 pageCount : Nat}
    (hTables : ProgramTables mem cr3 pageCount) (env : SyscallEnv) (call : SyscallCall)
    (s : DispatchSystem) :
    SyscallIsolated (UserAt mem cr3) (Designated call) (syscallDispatch env call s) ↔
      (∀ a, Designated call a → InProgram pageCount a) ∨ OutputRefused env.view call := by
  have hChecked := syscallDispatch_checked env call s
  rw [hChecked.isolated_iff]
  constructor
  · rintro (hUser | hRefused)
    · left
      intro a hDesignated
      exact (hTables.userAt_iff a).mp (hUser a hDesignated)
    · exact Or.inr hRefused
  · rintro (hProgram | hRefused)
    · left
      intro a hDesignated
      exact (hTables.userAt_iff a).mpr (hProgram a hDesignated)
    · exact Or.inr hRefused

/- A shell that reads, with one character on the line. -/
def typedEnv : SyscallEnv where
  images := noImages
  view := fun _ => 0
  scratch := fun _ => 0
  serial := [[0x61]]
  ticksAfter := 0
  drawn := false

def shellSystem (processes : ProcessSystem) : DispatchSystem where
  state := initializeLiveDispatcher 0x100000 1 idleKeyboard
  session := ⟨fun _ => 0, 0⟩
  keyboard := idleKeyboard
  timer := ⟨1, 1, 1, 100, 0, 1, 1⟩
  desktop := ⟨true, 5, 0, 0⟩
  processes := processes
  serialOutput := []
  shellInteractiveRequested := true

/- One byte of the standard input to an address. -/
def readOneByte (address : UInt64) : SyscallCall := ⟨4, 0, address, 1, 0, 0, 0⟩

theorem designated_readOneByte (address : UInt64) (a : Nat) :
    Designated (readOneByte address) a ↔ a = address.toNat := by
  change InBuffer address.toNat 1 a ↔ _
  unfold InBuffer
  omega

/- The stack page of the program is read into. -/
theorem syscallDispatch_isolated_stack :
    ∃ builder mem, BuilderRan builder mem ∧ builder.builderOk = true ∧
        SyscallIsolated (UserAt mem (builder.tables .pml4Table))
          (Designated (readOneByte 0x7FFFF000))
          (syscallDispatch typedEnv (readOneByte 0x7FFFF000)
            (shellSystem (wideSystem builder mem))) := by
  obtain ⟨builder, mem, hBoot⟩ := wideSystem_boots
  refine ⟨builder, mem, hBoot.ran, hBoot.ok, ?_⟩
  apply (syscallDispatch_isolated_iff (ProgramTables.builder hBoot.ran hBoot.ok) _ _ _).mpr
  left
  intro a hDesignated
  rw [designated_readOneByte] at hDesignated
  rw [hDesignated]
  right
  decide

/-
  An address of the identity map passes the range check, so the kernel stores to a page that user
  mode cannot reach.
-/
theorem read_stores_to_supervisor_page :
    ∃ builder mem, BuilderRan builder mem ∧ builder.builderOk = true ∧
        (syscallDispatch typedEnv (readOneByte 0x600000)
          (shellSystem (wideSystem builder mem))).result = some 1 ∧
        (syscallDispatch typedEnv (readOneByte 0x600000)
          (shellSystem (wideSystem builder mem))).stores = [(0x600000, 0x61)] ∧
        ¬ UserAt mem (builder.tables .pml4Table) 0x600000 ∧
        ¬ SyscallIsolated (UserAt mem (builder.tables .pml4Table))
          (Designated (readOneByte 0x600000))
          (syscallDispatch typedEnv (readOneByte 0x600000)
            (shellSystem (wideSystem builder mem))) := by
  obtain ⟨builder, mem, hBoot⟩ := wideSystem_boots
  have hStores :
      (syscallDispatch typedEnv (readOneByte 0x600000)
        (shellSystem (wideSystem builder mem))).stores = [(0x600000, 0x61)] := rfl
  have hOutside : ¬ UserAt mem (builder.tables .pml4Table) 0x600000 := by
    have hTables := ProgramTables.builder hBoot.ran hBoot.ok
    have hCount := (hBoot.ran.built hBoot.ok).imagePages_le
    intro hUser
    have hProgram := (hTables.userAt_iff 0x600000).mp hUser
    unfold InProgram at hProgram
    omega
  refine ⟨builder, mem, hBoot.ran, hBoot.ok, rfl, hStores, hOutside, ?_⟩
  intro hIsolated
  apply hOutside
  apply hIsolated.stores (0x600000, 0x61)
  rw [hStores]
  exact List.mem_singleton.mpr rfl

end LiamOS.X64
