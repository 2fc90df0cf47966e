import LiamOS.I386.Syscall.Model

/-
  What the i386 system calls do to user memory.

  `Touches` says which addresses the bytes read and written between two states may have, and that
  memory differs only by the bytes on record. Each copy routine touches what its check admits,
  each service what its copies touch.

  Main declarations: `syscallDispatch_isolated`.
-/

namespace LiamOS.I386

open Word

variable {address buffer length path : Nat}
variable {arg2 arg3 arguments index number page source : Nat} {s : SyscallKernel}
variable {result : Nat × SyscallKernel}

----------
-- Addresses

def InUserPages (address : Nat) : Prop := 0x10000000 ≤ address ∧ address < 0x10002000

/- The addresses of a buffer. -/
def InBuffer (start length address : Nat) : Prop := start ≤ address ∧ address < start + length

/-
  The output buffer a call designates: of READ and GET_ARG the second argument with the length in
  the third, of STAT the record at the second argument. No other call has one.
-/
def Designated (number arg2 arg3 address : Nat) : Prop :=
  match number with
  | 7 => InBuffer arg2 arg3 address
  | 9 => InBuffer arg2 20 address
  | 11 => InBuffer arg2 arg3 address
  | _ => False

/- The calls with an output buffer. -/
def HasOutputBuffer (number : Nat) : Prop := number = 7 ∨ number = 9 ∨ number = 11

/- A buffer on one of the two user pages. -/
def OnOnePage (address length : Nat) : Prop :=
  (0x10000000 ≤ address ∧ address + length ≤ 0x10001000) ∨
    (0x10001000 ≤ address ∧ address + length ≤ 0x10002000)

theorem syscallUserRangeContains_iff (hAddress : address < 4294967296) (hSome : length ≠ 0)
    (hLength : length < 4294967296) (hPage : page ≤ 0x10001000) :
    syscallUserRangeContains address length page ring3UserPageSize = true ↔
      page ≤ address ∧ address + length ≤ page + 4096 := by
  unfold syscallUserRangeContains ring3UserPageSize
  rw [if_neg hSome]
  dsimp only
  by_cases hWrap : u32 (address + length - 1) < address
  · rw [if_pos hWrap]
    unfold u32 at hWrap
    refine ⟨nofun, fun hInside => ?_⟩
    omega
  · rw [if_neg hWrap, Bool.and_eq_true, decide_eq_true_iff, decide_eq_true_iff]
    unfold u32 at hWrap ⊢
    omega

/- The buffers that pass the check. -/
theorem syscallUserBufferIsValid_iff (hAddress : address < 4294967296) (hSome : length ≠ 0)
    (hLength : length < 4294967296) :
    syscallUserBufferIsValid address length = true ↔ OnOnePage address length := by
  have hCode := syscallUserRangeContains_iff hAddress hSome hLength
      (show ring3UserCodeVirtual ≤ 0x10001000 by decide)
  have hStack := syscallUserRangeContains_iff hAddress hSome hLength
      (show ring3UserStackVirtual ≤ 0x10001000 by decide)
  unfold syscallUserBufferIsValid OnOnePage
  by_cases hNull : address = 0
  · rw [if_pos (Or.inl hNull)]
    refine ⟨nofun, fun hPage => ?_⟩
    omega
  rw [if_neg (not_or.mpr ⟨hNull, hSome⟩), Bool.if_true_left,
    Bool.if_true_left, Bool.or_false, Bool.or_eq_true,
    decide_eq_true_iff, decide_eq_true_iff, hCode, hStack]
  rfl

/- Every byte of a buffer that passes the check. -/
theorem syscallUserBufferIsValid_range (hAddress : address < 4294967296)
    (hLength : length < 4294967296) (hValid : syscallUserBufferIsValid address length = true) :
    0x10000000 ≤ address ∧ address + length ≤ 0x10002000 := by
  by_cases hNone : length = 0
  · rw [syscallUserBufferIsValid, if_pos (Or.inr hNone)] at hValid
    exact absurd hValid nofun
  · have hPage := (syscallUserBufferIsValid_iff hAddress hNone hLength).mp hValid
    unfold OnOnePage at hPage
    omega

----------
-- Memory

theorem pageIndex_eq_some_iff {i : Fin 4096} :
    pageIndex page address = some i ↔ address = page + i.val := by
  unfold pageIndex
  by_cases hIn : page ≤ address ∧ address < page + 4096
  · rw [dif_pos hIn, Option.some.injEq, Fin.ext_iff]
    dsimp only
    omega
  · rw [dif_neg hIn]
    have hLt := i.isLt
    refine ⟨nofun, fun hEq => ?_⟩
    omega

theorem load_store (s : SyscallKernel) (address x : Nat) (byte : UInt8) :
    (s.store address byte).load x = if x = address then byte else s.load x := by
  unfold SyscallKernel.store SyscallKernel.load
  by_cases hSame : x = address
  · subst hSame
    rw [if_pos rfl]
    cases pageIndex ring3UserCodeVirtual x with
    | some i => simp [UserPage.set]
    | none =>
      cases pageIndex ring3UserStackVirtual x with
      | some i => simp [UserPage.set]
      | none => simp
  · rw [if_neg hSame]
    -- on one page two addresses have two indices
    have hOther : ∀ {page i j},
        pageIndex page address = some i → pageIndex page x = some j → j.val ≠ i.val := by
      intro page i j hi hj
      rw [pageIndex_eq_some_iff] at hi hj
      omega
    cases hCode : pageIndex ring3UserCodeVirtual address with
    | some i =>
      cases hx : pageIndex ring3UserCodeVirtual x with
      | some j => exact if_neg (hOther hCode hx)
      | none => rfl
    | none =>
      cases hStack : pageIndex ring3UserStackVirtual address with
      | some i =>
        cases hx : pageIndex ring3UserStackVirtual x with
        | some j => simp [UserPage.set, hOther hStack hx]
        | none => rfl
      | none => simp [Function.update_of_ne hSame]

/- The byte at an address behind a list of accesses. -/
def replayAt (address : Nat) : UInt8 → List Access → UInt8
| byte, [] => byte
| byte, .read _ :: rest => replayAt address byte rest
| byte, .write x written :: rest => replayAt address (if address = x then written else byte) rest

theorem replayAt_append (address : Nat) (byte : UInt8) (xs ys : List Access) :
    replayAt address byte (xs ++ ys) = replayAt address (replayAt address byte xs) ys := by
  induction xs generalizing byte with
  | nil => rfl
  | cons access xs ih =>
    cases access with
    | read x => exact ih byte
    | write x written => exact ih _

/- An address that is not written keeps its byte. -/
theorem replayAt_of_not_written {accesses : List Access}
    (hNot : ∀ byte, .write address byte ∉ accesses) (byte : UInt8) :
    replayAt address byte accesses = byte := by
  induction accesses generalizing byte with
  | nil => rfl
  | cons access rest ih =>
    have hRest : ∀ byte, .write address byte ∉ rest :=
      fun b hIn => hNot b (List.mem_cons_of_mem access hIn)
    cases access with
    | read x => exact ih hRest byte
    | write x written =>
      have hNe : address ≠ x := by
        intro hSame
        apply hNot written
        rw [hSame]
        exact List.mem_cons_self
      rw [replayAt, if_neg hNe]
      exact ih hRest byte

----------
-- Touching Memory

def Access.Within (Reads Writes : Nat → Prop) : Access → Prop
| .read address => Reads address
| .write address _ => Writes address

/-
  From `s` to `s'` only addresses in `Reads` are read and only addresses in `Writes` are written.
-/
def Touches (Reads Writes : Nat → Prop) (s s' : SyscallKernel) : Prop :=
  ∃ new, s'.accesses = s.accesses ++ new ∧ (∀ access ∈ new, access.Within Reads Writes) ∧
      ∀ address, s'.load address = replayAt address (s.load address) new

/- Nothing is written. -/
def NoWrite (_ : Nat) : Prop := False

section Touches

variable {Reads Writes : Nat → Prop}
variable {s s₁ s₂ : SyscallKernel}

theorem Touches.refl (s : SyscallKernel) : Touches Reads Writes s s :=
  ⟨[], (List.append_nil _).symm, nofun, fun _ => rfl⟩

theorem Touches.trans (hFirst : Touches Reads Writes s s₁) (hSecond : Touches Reads Writes s₁ s₂) :
    Touches Reads Writes s s₂ := by
  obtain ⟨xs, hxs, hxsIn, hxsLoad⟩ := hFirst
  obtain ⟨ys, hys, hysIn, hysLoad⟩ := hSecond
  refine ⟨xs ++ ys, ?_, ?_, ?_⟩
  · rw [hys, hxs, List.append_assoc]
  · intro access hIn
    rcases List.mem_append.mp hIn with hx | hy
    · exact hxsIn access hx
    · exact hysIn access hy
  · intro address
    rw [hysLoad, hxsLoad, replayAt_append]

theorem Touches.mono {Reads' Writes' : Nat → Prop} (hTouches : Touches Reads Writes s s₁)
    (hReads : ∀ a, Reads a → Reads' a) (hWrites : ∀ a, Writes a → Writes' a) :
    Touches Reads' Writes' s s₁ := by
  obtain ⟨new, hNew, hIn, hLoad⟩ := hTouches
  refine ⟨new, hNew, ?_, hLoad⟩
  intro access hAccess
  cases access with
  | read a => exact hReads a (hIn _ hAccess)
  | write a byte => exact hWrites a (hIn _ hAccess)

theorem Touches.more (hTouches : Touches Reads NoWrite s s₁) (Writes' : Nat → Prop) :
    Touches Reads Writes' s s₁ :=
  hTouches.mono (fun _ h => h) (fun _ h => h.elim)

/- A step that leaves memory and record alone. -/
theorem Touches.of_same (hAccesses : s₁.accesses = s.accesses)
    (hCode : s₁.processes.codePage = s.processes.codePage)
    (hStack : s₁.processes.stackPage = s.processes.stackPage)
    (hOther : s₁.otherMemory = s.otherMemory) :
    Touches Reads Writes s s₁ := by
  refine ⟨[], by rw [hAccesses, List.append_nil], nofun, ?_⟩
  intro address
  unfold SyscallKernel.load
  rw [hCode, hStack, hOther]
  rfl

theorem readUser_touches (hRead : Reads address) :
    Touches Reads Writes s (s.readUser address).2 := by
  refine ⟨[.read address], rfl, ?_, fun _ => rfl⟩
  intro access hIn
  rw [List.mem_singleton.mp hIn]
  exact hRead

theorem writeUser_touches (byte : UInt8) (hWrite : Writes address) :
    Touches Reads Writes s (s.writeUser address byte) := by
  have hKept : (s.store address byte).accesses = s.accesses := by
    unfold SyscallKernel.store
    split
    · rfl
    · split
      · rfl
      · rfl
  refine ⟨[.write address byte], ?_, ?_, ?_⟩
  · change (s.store address byte).accesses ++ _ = _
    rw [hKept]
  · intro access hIn
    rw [List.mem_singleton.mp hIn]
    exact hWrite
  · exact fun x => load_store s address x byte

----------
-- Copies

theorem readUserBytes_touches (n : Nat) (hWord : address + n ≤ 4294967295)
    (hRead : ∀ a, InBuffer address n a → Reads a) :
    Touches Reads Writes s (readUserBytes n address s).2 := by
  induction n generalizing address s with
  | zero => exact Touches.refl s
  | succ n ih =>
    have hNext : u32 (address + 1) = address + 1 := u32_of_lt (by omega)
    have hFirst : Reads address := hRead address ⟨by omega, by omega⟩
    refine Touches.trans (readUser_touches hFirst) ?_
    refine ih ?_ ?_
    · rw [hNext]
      omega
    · intro a ha
      rw [hNext] at ha
      exact hRead a ⟨by have := ha.1; omega, by have := ha.2; omega⟩

theorem writeUserBytes_touches (bytes : List UInt8) (hWord : address + bytes.length ≤ 4294967295)
    (hWrite : ∀ a, InBuffer address bytes.length a → Writes a) :
    Touches Reads Writes s (writeUserBytes bytes address s) := by
  induction bytes generalizing address s with
  | nil => exact Touches.refl s
  | cons byte bytes ih =>
    rw [List.length_cons] at hWord hWrite
    have hNext : u32 (address + 1) = address + 1 := u32_of_lt (by omega)
    have hFirst : Writes address := hWrite address ⟨by omega, by omega⟩
    refine Touches.trans (writeUser_touches byte hFirst) ?_
    refine ih ?_ ?_
    · rw [hNext]
      omega
    · intro a ha
      rw [hNext] at ha
      exact hWrite a ⟨by have := ha.1; omega, by have := ha.2; omega⟩

theorem syscallCopyFromUser_touches (hSource : source < 4294967296)
    (hLength : length < 4294967296) :
    Touches InUserPages Writes s (syscallCopyFromUser source length s).2 := by
  unfold syscallCopyFromUser
  split
  · exact Touches.refl s
  · split
    · exact Touches.refl s
    · next hNot =>
        have hValid : syscallUserBufferIsValid source length = true := by simpa using hNot
        have hRange := syscallUserBufferIsValid_range hSource hLength hValid
        refine readUserBytes_touches length (by omega) ?_
        intro a ha
        exact ⟨by have := ha.1; omega, by have := ha.2; omega⟩

/- A copy to user memory is refused or writes its buffer. -/
theorem syscallCopyToUser_touches {destination : Nat} {source : List UInt8}
    (hDestination : destination < 4294967296) (hLength : source.length < 4294967296) :
    ((syscallCopyToUser destination source s).1 = .ok ∧ Touches InUserPages (fun a =>
            InUserPages a ∧ InBuffer destination source.length a) s
          (syscallCopyToUser destination source s).2) ∨
      syscallCopyToUser destination source s = (.permissionDenied, s) := by
  unfold syscallCopyToUser
  split
  · exact Or.inl ⟨rfl, Touches.refl s⟩
  · split
    · exact Or.inr rfl
    · next hNot =>
        have hValid : syscallUserBufferIsValid destination source.length = true := by
          simpa using hNot
        have hRange := syscallUserBufferIsValid_range hDestination hLength hValid
        refine Or.inl ⟨rfl, writeUserBytes_touches source (by omega) ?_⟩
        intro a ha
        exact ⟨⟨by have := ha.1; omega, by have := ha.2; omega⟩, ha⟩

theorem copyUserStringLoop_touches (n : Nat) (hAddress : address < 4294967296) :
    Touches InUserPages Writes s (copyUserStringLoop n address s).2 := by
  induction n generalizing address s with
  | zero => exact Touches.refl s
  | succ n ih =>
    unfold copyUserStringLoop
    split
    · exact Touches.refl s
    · next hNot =>
        have hValid : syscallUserBufferIsValid address 1 = true := by simpa using hNot
        have hRange := syscallUserBufferIsValid_range hAddress (by omega) hValid
        have hByte : InUserPages address := ⟨hRange.1, by omega⟩
        have hRead : Touches InUserPages Writes s (s.readUser address).2 := readUser_touches hByte
        dsimp only
        split
        · exact hRead
        · exact hRead.trans (ih (u32_lt _))

theorem syscallCopyUserString_touches {maxLength : Nat} (hSource : source < 4294967296) :
    Touches InUserPages Writes s (syscallCopyUserString source maxLength s).2 := by
  unfold syscallCopyUserString
  split
  · exact Touches.refl s
  · exact copyUserStringLoop_touches maxLength hSource

----------
-- Kernel Data

/- Open files and processes lie outside user memory. -/
theorem fdTableOpenCurrent_touches (path : List UInt8) (flags : Nat) :
    Touches Reads Writes s (fdTableOpenCurrent path flags s).2 := by
  unfold fdTableOpenCurrent
  split
  · exact Touches.refl s
  · split
    · exact Touches.refl s
    · split
      · exact Touches.refl s
      · split
        · exact Touches.refl s
        · split
          · exact Touches.refl s
          · exact Touches.of_same rfl rfl rfl rfl

/- A read of an open file changes at most its offset. -/
theorem fdTableReadCurrent_spec (fd length : Nat) (s : SyscallKernel) :
    Touches Reads Writes s (fdTableReadCurrent fd length s).2 ∧
      ∀ bytes, (fdTableReadCurrent fd length s).1 = .ok bytes → bytes.length ≤ length := by
  unfold fdTableReadCurrent
  split
  · exact ⟨Touches.refl s, nofun⟩
  · split
    · exact ⟨Touches.refl s, nofun⟩
    · split
      · exact ⟨Touches.refl s, nofun⟩
      · split
        · exact ⟨Touches.refl s, nofun⟩
        · split
          · exact ⟨Touches.refl s, nofun⟩
          · split
            · exact ⟨Touches.refl s, nofun⟩
            · next hRead =>
                refine ⟨Touches.of_same rfl rfl rfl rfl, ?_⟩
                intro bytes hBytes
                cases hBytes
                exact (vfsReadNode_length hRead).1

theorem fdTableCloseCurrent_touches (fd : Nat) :
    Touches Reads Writes s (fdTableCloseCurrent fd s).2 := by
  unfold fdTableCloseCurrent
  split
  · exact Touches.refl s
  · split
    · exact Touches.refl s
    · split
      · exact Touches.refl s
      · exact Touches.of_same rfl rfl rfl rfl

theorem processCreate_pages (k : ProcessKernel) (entry userStack : Nat) :
    (processCreate k entry userStack).2.codePage = k.codePage ∧
      (processCreate k entry userStack).2.stackPage = k.stackPage := by
  unfold processCreate
  split
  · exact ⟨rfl, rfl⟩
  · split
    · exact ⟨rfl, rfl⟩
    · exact ⟨rfl, rfl⟩

theorem execCreateWithArgs_touches (path : List UInt8) (arguments : Option (List UInt8)) :
    Touches Reads Writes s (execCreateWithArgs path arguments s).2 := by
  unfold execCreateWithArgs
  split
  · exact Touches.refl s
  · split
    · next hCreate hSlot =>
        have hPages := processCreate_pages s.processes ring3UserCodeVirtual ring3UserStackVirtual
        rw [hCreate] at hPages
        exact Touches.of_same rfl hPages.1 hPages.2 rfl
    · exact Touches.refl s

----------
-- Services

theorem syscallWriteLoop_touches (turns : Nat) {totalWritten : Nat} :
    Touches InUserPages Writes s (syscallWriteLoop turns buffer length totalWritten s).2 := by
  induction turns generalizing totalWritten s with
  | zero => exact Touches.refl s
  | succ turns ih =>
    unfold syscallWriteLoop
    split
    · dsimp only
      generalize hChunk :
        (if syscallCopyChunkMax < length - totalWritten then
          syscallCopyChunkMax
        else
          length - totalWritten) = chunkLength
      have hSmall : chunkLength < 4294967296 := by
        rw [← hChunk]
        unfold syscallCopyChunkMax
        split
        · omega
        · omega
      have hCopy : Touches InUserPages Writes s
            (syscallCopyFromUser (u32 (buffer + totalWritten)) chunkLength s).2 :=
        syscallCopyFromUser_touches (u32_lt _) hSmall
      split
      · next hEq =>
          rw [hEq] at hCopy
          exact hCopy
      · next hEq =>
          rw [hEq] at hCopy
          refine hCopy.trans (Touches.trans ?_ ih)
          exact Touches.of_same rfl rfl rfl rfl
    · exact Touches.refl s

theorem syscallWrite_touches : Touches InUserPages Writes s (syscallWrite buffer length s).2 := by
  unfold syscallWrite
  split
  · exact Touches.refl s
  · exact syscallWriteLoop_touches _

theorem syscallOpen_touches {flags : Nat} (hPath : path < 4294967296) :
    Touches InUserPages Writes s (syscallOpen path flags s).2 := by
  have hCopy : Touches InUserPages Writes s (syscallCopyUserString path vfsPathMax s).2 :=
    syscallCopyUserString_touches hPath
  unfold syscallOpen
  split
  · next hEq =>
      rw [hEq] at hCopy
      exact hCopy
  · next kernelPath s₁ hEq =>
      rw [hEq] at hCopy
      have hOpen : Touches InUserPages Writes s₁ (fdTableOpenCurrent kernelPath flags s₁).2 :=
        fdTableOpenCurrent_touches kernelPath flags
      split
      · next hOpened =>
          rw [hOpened] at hOpen
          exact hCopy.trans hOpen
      · next hOpened =>
          rw [hOpened] at hOpen
          exact hCopy.trans hOpen

theorem copyExecArguments_touches (hArguments : arguments < 4294967296) :
    Touches InUserPages Writes s (copyExecArguments arguments s).2 := by
  unfold copyExecArguments
  split
  · exact Touches.refl s
  · exact syscallCopyUserString_touches hArguments

theorem syscallExec_touches (hPath : path < 4294967296) (hArguments : arguments < 4294967296) :
    Touches InUserPages Writes s (syscallExec path arguments s).2 := by
  have hCopy : Touches InUserPages Writes s (syscallCopyUserString path vfsPathMax s).2 :=
    syscallCopyUserString_touches hPath
  unfold syscallExec
  split
  · next hEq =>
      rw [hEq] at hCopy
      exact hCopy
  · next kernelPath s₁ hEq =>
      rw [hEq] at hCopy
      have hLine : Touches InUserPages Writes s₁ (copyExecArguments arguments s₁).2 :=
        copyExecArguments_touches hArguments
      split
      · next hCopied =>
          rw [hCopied] at hLine
          exact hCopy.trans hLine
      · next kernelArguments s₂ hCopied =>
          rw [hCopied] at hLine
          have hExec :
              Touches InUserPages Writes s₂ (execCreateWithArgs kernelPath kernelArguments s₂).2 :=
            execCreateWithArgs_touches kernelPath kernelArguments
          split
          · next hCreated =>
              rw [hCreated] at hExec
              exact (hCopy.trans hLine).trans hExec
          · next hCreated =>
              rw [hCreated] at hExec
              exact (hCopy.trans hLine).trans hExec

/-
  A service with an output buffer writes nothing, or writes the buffer and returns a number that
  is no error.
-/
def OutputLaw (Writes : Nat → Prop) (s : SyscallKernel) (result : Nat × SyscallKernel) : Prop :=
  Touches InUserPages NoWrite s result.2 ∨ (result.1 ≤ 512 ∧ Touches InUserPages Writes s result.2)

theorem syscallRead_output {fd : Nat} (hBuffer : buffer < 4294967296) :
    OutputLaw (fun a => InUserPages a ∧ InBuffer buffer length a) s
      (syscallRead fd buffer length s) := by
  unfold syscallRead
  split
  · exact Or.inl (Touches.refl s)
  · dsimp only
    generalize hShort :
      (if syscallCopyChunkMax < length then syscallCopyChunkMax else length) = readLength
    have hBound : readLength ≤ length ∧ readLength ≤ 512 := by
      rw [← hShort]
      unfold syscallCopyChunkMax
      split
      · omega
      · omega
    split
    · exact Or.inl (Touches.refl s)
    · obtain ⟨hRead, hBytes⟩ := @fdTableReadCurrent_spec InUserPages NoWrite fd readLength s
      split
      · next hEq =>
          rw [hEq] at hRead
          exact Or.inl hRead
      · next bytes s₁ hEq =>
          rw [hEq] at hRead hBytes
          have hShorter := hBytes bytes rfl
          rcases @syscallCopyToUser_touches s₁ buffer bytes hBuffer (by omega) with
            ⟨hOk, hCopied⟩ | hDenied
          · have hPair :
                syscallCopyToUser buffer bytes s₁ = (.ok, (syscallCopyToUser buffer bytes s₁).2) :=
              Prod.ext hOk rfl
            rw [hPair]
            refine Or.inr ⟨by dsimp only; omega, ?_⟩
            refine (hRead.more _).trans (hCopied.mono (fun _ h => h) ?_)
            intro a ha
            exact ⟨ha.1, ha.2.1, by have := ha.2.2; omega⟩
          · rw [hDenied]
            exact Or.inl hRead

theorem syscallStat_output {outStat : Nat} (hPath : path < 4294967296)
    (hOut : outStat < 4294967296) :
    OutputLaw (fun a => InUserPages a ∧ InBuffer outStat 20 a) s (syscallStat path outStat s) := by
  have hCopy : Touches InUserPages NoWrite s (syscallCopyUserString path vfsPathMax s).2 :=
    syscallCopyUserString_touches hPath
  unfold syscallStat
  split
  · next hEq =>
      rw [hEq] at hCopy
      exact Or.inl hCopy
  · next kernelPath s₁ hEq =>
      rw [hEq] at hCopy
      split
      · exact Or.inl hCopy
      · next stat hStat =>
          rcases @syscallCopyToUser_touches s₁ outStat stat.bytes hOut
              (by rw [stat.bytes_length]; omega) with
            ⟨hOk, hCopied⟩ | hDenied
          · rw [hOk]
            exact Or.inr ⟨Nat.zero_le 512, (hCopy.more _).trans hCopied⟩
          · rw [hDenied]
            exact Or.inl hCopy

theorem processGetCurrentArgument_length {argument : List UInt8}
    (hGet : processGetCurrentArgument index length s = .ok argument) :
    argument.length < length := by
  unfold processGetCurrentArgument at hGet
  split at hGet
  · exact absurd hGet nofun
  · split at hGet
    · exact absurd hGet nofun
    · split at hGet
      · exact absurd hGet nofun
      · split at hGet
        · exact absurd hGet nofun
        · cases hGet
          omega

theorem syscallGetArg_output (hBuffer : buffer < 4294967296) :
    OutputLaw (fun a => InUserPages a ∧ InBuffer buffer length a) s
      (syscallGetArg index buffer length s) := by
  unfold syscallGetArg
  split
  · exact Or.inl (Touches.refl s)
  · split
    · exact Or.inl (Touches.refl s)
    · next argument hGet =>
        have hShort : argument.length < 64 := processGetCurrentArgument_length hGet
        split
        · exact Or.inl (Touches.refl s)
        · next hFits =>
            have hText : (argument ++ [0]).length = argument.length + 1 := by simp
            rcases @syscallCopyToUser_touches s buffer (argument ++ [0]) hBuffer
                (by rw [hText]; omega) with
              ⟨hOk, hCopied⟩ | hDenied
            · have hPair : syscallCopyToUser buffer (argument ++ [0]) s =
                    (.ok, (syscallCopyToUser buffer (argument ++ [0]) s).2) :=
                Prod.ext hOk rfl
              rw [hPair]
              refine Or.inr ⟨by dsimp only; omega, ?_⟩
              refine hCopied.mono (fun _ h => h) ?_
              intro a ha
              rw [hText] at ha
              exact ⟨ha.1, ha.2.1, by have := ha.2.2; omega⟩
            · rw [hDenied]
              exact Or.inl (Touches.refl s)

end Touches

----------
-- All Calls

/-
  Every call touches user pages only and writes only the buffer it designates; a call with an
  output buffer that is denied has written nothing.
-/
structure IsolationLaw (number arg2 arg3 : Nat) (s : SyscallKernel)
    (result : Nat × SyscallKernel) : Prop where
  touches : Touches InUserPages (fun a => InUserPages a ∧ Designated number arg2 arg3 a) s result.2
  denied : HasOutputBuffer number →
      result.1 = KernelStatus.permissionDenied.word → Touches InUserPages NoWrite s result.2

theorem IsolationLaw.of_input (hTouches : Touches InUserPages NoWrite s result.2) :
    IsolationLaw number arg2 arg3 s result :=
  ⟨hTouches.more _, fun _ _ => hTouches⟩

theorem IsolationLaw.of_output
    (hOutput : OutputLaw (fun a =>
          InUserPages a ∧ Designated number arg2 arg3 a) s result) :
    IsolationLaw number arg2 arg3 s result := by
  rcases hOutput with hNone | ⟨hSmall, hTouches⟩
  · exact .of_input hNone
  · refine ⟨hTouches, fun _ hDenied => ?_⟩
    have hLarge : 512 < KernelStatus.permissionDenied.word := by decide
    omega

theorem syscallDispatch_law (s : SyscallKernel) (number arg1 arg2 arg3 : UInt32) :
    IsolationLaw number.toNat arg2.toNat arg3.toNat s
      (syscallDispatch number.toNat arg1.toNat arg2.toNat arg3.toNat s) := by
  unfold syscallDispatch
  generalize number.toNat = n
  split
  · refine .of_input ?_
    unfold processMarkExit
    split
    · exact Touches.refl s
    · exact Touches.of_same rfl rfl rfl rfl
  · exact .of_input syscallWrite_touches
  · exact .of_input (Touches.refl s)
  · exact .of_input (Touches.refl s)
  · exact .of_input (Touches.refl s)
  · exact .of_input (syscallOpen_touches arg1.toNat_lt)
  · exact .of_output (syscallRead_output arg2.toNat_lt)
  · exact .of_input (fdTableCloseCurrent_touches _)
  · exact .of_output (syscallStat_output arg1.toNat_lt arg2.toNat_lt)
  · exact .of_input (Touches.refl s)
  · exact .of_output (syscallGetArg_output arg2.toNat_lt)
  · exact .of_input (syscallExec_touches arg1.toNat_lt arg2.toNat_lt)
  · exact .of_input (Touches.refl s)

/-
  For every state and every call: the bytes read through user addresses lie in the user pages, the
  bytes written lie there and in the designated buffer, memory differs by the written bytes only,
  and a call with an output buffer that returns PERMISSION_DENIED leaves every byte as it was.
-/
theorem syscallDispatch_isolated (s : SyscallKernel) (number arg1 arg2 arg3 : UInt32) : ∃ new,
      (syscallDispatch number.toNat arg1.toNat arg2.toNat
          arg3.toNat s).2.accesses = s.accesses ++ new ∧
        (∀ address, .read address ∈ new → InUserPages address) ∧
        (∀ address byte, .write address byte ∈ new →
          InUserPages address ∧ Designated number.toNat arg2.toNat arg3.toNat address) ∧
        (∀ address,
          (syscallDispatch number.toNat arg1.toNat arg2.toNat arg3.toNat s).2.load address =
            replayAt address (s.load address) new) ∧
        (HasOutputBuffer number.toNat →
          (syscallDispatch number.toNat arg1.toNat arg2.toNat arg3.toNat s).1 =
            KernelStatus.permissionDenied.word →
          (∀ address byte, .write address byte ∉ new) ∧ ∀ address,
              (syscallDispatch number.toNat arg1.toNat arg2.toNat arg3.toNat s).2.load address =
                s.load address) := by
  have hLaw := syscallDispatch_law s number arg1 arg2 arg3
  obtain ⟨new, hNew, hWithin, hLoad⟩ := hLaw.touches
  refine ⟨new, hNew, fun a hIn => hWithin _ hIn, fun a byte hIn => hWithin _ hIn, hLoad, ?_⟩
  intro hBuffer hDenied
  obtain ⟨new', hNew', hWithin', -⟩ := hLaw.denied hBuffer hDenied
  have hSame : new' = new := List.append_cancel_left (hNew'.symm.trans hNew)
  have hNone : ∀ address byte, .write address byte ∉ new := by
    intro address byte hIn
    rw [← hSame] at hIn
    exact hWithin' _ hIn
  refine ⟨hNone, fun address => ?_⟩
  rw [hLoad]
  exact replayAt_of_not_written (hNone address) _

/- A run of calls changes no byte that none of them designates. -/
theorem syscallRun_isolated (s : SyscallKernel) (calls : List (UInt32 × UInt32 × UInt32 × UInt32)) :
    Touches InUserPages
      (fun a => InUserPages a ∧ ∃ c ∈ calls, Designated c.1.toNat c.2.2.1.toNat c.2.2.2.toNat a) s
      (calls.foldl (fun s c =>
        (syscallDispatch c.1.toNat c.2.1.toNat c.2.2.1.toNat c.2.2.2.toNat s).2) s) := by
  induction calls generalizing s with
  | nil => exact Touches.refl s
  | cons c calls ih =>
    have hFirst := (syscallDispatch_law s c.1 c.2.1 c.2.2.1 c.2.2.2).touches
    refine (hFirst.mono (fun _ => id) ?_).trans ((ih _).mono (fun _ => id) ?_)
    · exact fun _ hWrite => ⟨hWrite.1, c, List.mem_cons_self, hWrite.2⟩
    · rintro a ⟨hPages, d, hLater, hBuffer⟩
      exact ⟨hPages, d, .tail c hLater, hBuffer⟩

end LiamOS.I386
