import LiamOS.I386.Syscall.Isolation

/-
  What WRITE of the i386 kernel returns and prints.

  The buffer is checked and printed in chunks of 512 bytes, and a chunk passes if it lies on one
  of the two user pages. So the outcome depends on the place of the boundary between the pages in
  a chunk, and a chunk that is refused comes behind the ones that are on the screen.

  Main declarations: `writeLaw_iff`.
-/

namespace LiamOS.I386

open Word

----------
-- Chunks

/- The bytes of a user buffer. -/
def userBytes (s : SyscallKernel) (address length : Nat) : List UInt8 :=
  (List.range length).map fun i => s.load (address + i)

theorem userBytes_add (s : SyscallKernel) (address m n : Nat) :
    userBytes s address (m + n) = userBytes s address m ++ userBytes s (address + m) n := by
  unfold userBytes
  rw [List.range_add, List.map_append, List.map_map]
  congr 1
  apply List.map_congr_left
  intro i _
  rw [Function.comp_apply, Nat.add_assoc]

/- The state once the bytes of a buffer have been read. -/
def SyscallKernel.readAll (s : SyscallKernel) (address length : Nat) : SyscallKernel :=
  { s with accesses := s.accesses ++ (List.range length).map fun i => .read (address + i) }

/- The state once a chunk has been printed. -/
def SyscallKernel.printed (s : SyscallKernel) (address length : Nat) : SyscallKernel :=
  { s.readAll address length with screen := s.screen ++ userBytes s address length }

theorem readUserBytes_eq (n : Nat) {address : Nat} (hWord : address + n ≤ 4294967295)
    (s : SyscallKernel) :
    readUserBytes n address s = (userBytes s address n, s.readAll address n) := by
  induction n generalizing address s with
  | zero =>
    unfold SyscallKernel.readAll
    rw [List.range_zero, List.map_nil, List.append_nil]
    rfl
  | succ n ih =>
    have hNext : u32 (address + 1) = address + 1 := u32_of_lt (by omega)
    have hStep : ∀ i, address + 1 + i = address + (i + 1) := by
      intro i
      omega
    have hBytes : userBytes s address (n + 1) = s.load address :: userBytes s (address + 1) n := by
      rw [Nat.add_comm n 1, userBytes_add]
      rfl
    rw [readUserBytes, hNext, hBytes]
    dsimp only [SyscallKernel.readUser]
    rw [ih (by omega)]
    unfold SyscallKernel.readAll SyscallKernel.record
    dsimp only
    rw [List.range_succ_eq_map, List.map_cons, List.map_map,
      List.append_assoc, List.singleton_append]
    simp only [hStep, Nat.add_zero]
    rfl

/- The bytes of the chunk that starts at an offset. -/
def chunkAt (length totalWritten : Nat) : Nat := min syscallCopyChunkMax (length - totalWritten)

theorem chunkAt_eq (length totalWritten : Nat) :
    (if syscallCopyChunkMax < length - totalWritten then
      syscallCopyChunkMax
    else
      length - totalWritten) =
      chunkAt length totalWritten := by
  unfold chunkAt
  split
  · omega
  · omega

----------
-- The Loop

section Loop

variable {buffer length totalWritten : Nat}

theorem syscallWriteLoop_done (turns : Nat) (hDone : length ≤ totalWritten) (s : SyscallKernel) :
    syscallWriteLoop turns buffer length totalWritten s = (totalWritten, s) := by
  cases turns with
  | zero => rfl
  | succ turns => rw [syscallWriteLoop, if_neg (by omega)]

/- The check of a chunk, also where its address wraps. -/
theorem chunk_valid_iff (hBuffer : buffer < 4294967296) (hLength : length ≤ 4096)
    (hMore : totalWritten < length) :
    syscallUserBufferIsValid (u32 (buffer + totalWritten)) (chunkAt length totalWritten) = true ↔
      OnOnePage (buffer + totalWritten) (chunkAt length totalWritten) := by
  have hChunk : chunkAt length totalWritten ≠ 0 ∧ chunkAt length totalWritten < 4294967296 := by
    unfold chunkAt syscallCopyChunkMax
    omega
  rw [syscallUserBufferIsValid_iff (u32_lt _) hChunk.1 hChunk.2]
  unfold OnOnePage u32
  omega

theorem syscallWriteLoop_printed (turns : Nat) (hBuffer : buffer < 4294967296)
    (hLength : length ≤ 4096) (hMore : totalWritten < length)
    (hPage : OnOnePage (buffer + totalWritten) (chunkAt length totalWritten)) (s : SyscallKernel) :
    syscallWriteLoop (turns + 1) buffer length totalWritten s =
      syscallWriteLoop turns buffer length (totalWritten + chunkAt length totalWritten)
        (s.printed (buffer + totalWritten) (chunkAt length totalWritten)) := by
  have hValid := (chunk_valid_iff hBuffer hLength hMore).mpr hPage
  have hSome : chunkAt length totalWritten ≠ 0 := by
    unfold chunkAt syscallCopyChunkMax
    omega
  have hRange : buffer + totalWritten + chunkAt length totalWritten ≤ 0x10002000 := by
    unfold OnOnePage at hPage
    omega
  have hAddress : u32 (buffer + totalWritten) = buffer + totalWritten := u32_of_lt (by omega)
  rw [syscallWriteLoop, if_pos hMore]
  dsimp only
  rw [chunkAt_eq, syscallCopyFromUser, if_neg hSome, hValid, Bool.not_true,
    if_neg nofun, hAddress, readUserBytes_eq _ (by omega)]
  rfl

theorem syscallWriteLoop_refused (turns : Nat) (hBuffer : buffer < 4294967296)
    (hLength : length ≤ 4096) (hMore : totalWritten < length)
    (hPage : ¬ OnOnePage (buffer + totalWritten) (chunkAt length totalWritten))
    (s : SyscallKernel) :
    syscallWriteLoop (turns + 1) buffer length totalWritten s =
      (KernelStatus.permissionDenied.word, s) := by
  have hValid : syscallUserBufferIsValid (u32 (buffer + totalWritten))
        (chunkAt length totalWritten) = false := by
    rw [← Bool.not_eq_true, chunk_valid_iff hBuffer hLength hMore]
    exact hPage
  have hSome : chunkAt length totalWritten ≠ 0 := by
    unfold chunkAt syscallCopyChunkMax
    omega
  rw [syscallWriteLoop, if_pos hMore]
  dsimp only
  rw [chunkAt_eq, syscallCopyFromUser, if_neg hSome, hValid, Bool.not_false, if_pos rfl]

/- What is on the screen stays there. -/
theorem syscallWriteLoop_screen (turns : Nat) (hBuffer : buffer < 4294967296)
    (hLength : length ≤ 4096) (s : SyscallKernel) :
    s.screen.length ≤ (syscallWriteLoop turns buffer length totalWritten s).2.screen.length := by
  induction turns generalizing totalWritten s with
  | zero => exact Nat.le_refl _
  | succ turns ih =>
    by_cases hMore : totalWritten < length
    · by_cases hPage : OnOnePage (buffer + totalWritten) (chunkAt length totalWritten)
      · rw [syscallWriteLoop_printed turns hBuffer hLength hMore hPage]
        apply Nat.le_trans _ (ih _)
        unfold SyscallKernel.printed
        rw [List.length_append]
        exact Nat.le_add_right _ _
      · rw [syscallWriteLoop_refused turns hBuffer hLength hMore hPage]
    · rw [syscallWriteLoop_done _ (by omega)]

/- If every chunk passes, the rest of the buffer is printed. -/
theorem syscallWriteLoop_all (turns : Nat) (hBuffer : buffer < 4294967296) (hLength : length ≤ 4096)
    (hChunks : ∀ c < length, c % 512 = 0 → OnOnePage (buffer + c) (chunkAt length c))
    (hStart : totalWritten = length ∨ totalWritten % 512 = 0) (hInside : totalWritten ≤ length)
    (hTurns : length - totalWritten < turns) (s : SyscallKernel) :
    (syscallWriteLoop turns buffer length totalWritten s).1 = length ∧
      (syscallWriteLoop turns buffer length totalWritten s).2.screen =
        s.screen ++ userBytes s (buffer + totalWritten) (length - totalWritten) := by
  induction turns generalizing totalWritten s with
  | zero => omega
  | succ turns ih =>
    by_cases hMore : totalWritten < length
    · have hPage := hChunks totalWritten hMore (by omega)
      rw [syscallWriteLoop_printed turns hBuffer hLength hMore hPage]
      have hSplit : length - totalWritten = chunkAt length totalWritten +
              (length - (totalWritten + chunkAt length totalWritten)) := by
        unfold chunkAt
        omega
      have hNext : totalWritten + chunkAt length totalWritten = length ∨
            (totalWritten + chunkAt length totalWritten) % 512 = 0 := by
        unfold chunkAt syscallCopyChunkMax
        omega
      have hSome : 0 < chunkAt length totalWritten := by
        unfold chunkAt syscallCopyChunkMax
        omega
      obtain ⟨hResult, hScreen⟩ := ih hNext (by omega) (by omega)
          (s.printed (buffer + totalWritten) (chunkAt length totalWritten))
      refine ⟨hResult, ?_⟩
      rw [hScreen, hSplit, userBytes_add, ← Nat.add_assoc, ← List.append_assoc]
      rfl
    · have hDone : totalWritten = length := by omega
      rw [syscallWriteLoop_done _ (by omega), hDone, Nat.sub_self]
      exact ⟨rfl, (List.append_nil _).symm⟩

/- If a chunk does not, the call ends with its refusal. -/
theorem syscallWriteLoop_fails (turns : Nat) (hBuffer : buffer < 4294967296)
    (hLength : length ≤ 4096) {c : Nat} (hc : c < length) (hAligned : c % 512 = 0)
    (hRefused : ¬ OnOnePage (buffer + c) (chunkAt length c)) (hStart : totalWritten % 512 = 0)
    (hBefore : totalWritten ≤ c) (hTurns : c - totalWritten < turns) (s : SyscallKernel) :
    (syscallWriteLoop turns buffer length totalWritten s).1 =
      KernelStatus.permissionDenied.word := by
  induction turns generalizing totalWritten s with
  | zero => omega
  | succ turns ih =>
    have hMore : totalWritten < length := by omega
    by_cases hPage : OnOnePage (buffer + totalWritten) (chunkAt length totalWritten)
    · have hOther : totalWritten ≠ c := by
        rintro rfl
        exact hRefused hPage
      have hChunk : chunkAt length totalWritten = 512 := by
        unfold chunkAt syscallCopyChunkMax
        omega
      rw [syscallWriteLoop_printed turns hBuffer hLength hMore hPage, hChunk]
      exact ih (by omega) (by omega) (by omega) _
    · rw [syscallWriteLoop_refused turns hBuffer hLength hMore hPage]

end Loop

----------
-- All Or Nothing

/- Every byte WRITE is asked for lies on the user pages. -/
def WriteInside (buffer length : Nat) : Prop := ∀ i < min length 4096, InUserPages (buffer + i)

/- WRITE prints what it is asked for, up to 4096 bytes, or returns an error and prints nothing. -/
structure WriteLaw (buffer length : Nat) (s : SyscallKernel) : Prop where
  inside : WriteInside buffer length → (syscallWrite buffer length s).1 = min length 4096 ∧
        (syscallWrite buffer length s).2.screen = s.screen ++ userBytes s buffer (min length 4096)
  outside : ¬ WriteInside buffer length →
      (∃ status : KernelStatus, status ≠ .ok ∧ (syscallWrite buffer length s).1 = status.word) ∧
        (syscallWrite buffer length s).2.screen = s.screen

/-
  Of a buffer on the user pages no chunk crosses from one to the other, of any other the first
  chunk is refused.
-/
structure ChunksDecide (buffer length : Nat) : Prop where
  inside : WriteInside buffer length →
      buffer % 512 = 0 ∨ 0x10001000 ≤ buffer ∨ buffer + min length 4096 ≤ 0x10001000
  outside : ¬ WriteInside buffer length → buffer ≠ 0 ∧ ¬ OnOnePage buffer (min length 512)

theorem writeInside_iff (buffer length : Nat) : WriteInside buffer length ↔
      length = 0 ∨ (0x10000000 ≤ buffer ∧ buffer + min length 4096 ≤ 0x10002000) := by
  unfold WriteInside InUserPages
  constructor
  · intro hAll
    by_cases hNone : length = 0
    · exact Or.inl hNone
    · have hFirst := hAll 0 (by omega)
      have hLast := hAll (min length 4096 - 1) (by omega)
      omega
  · intro hRange i hi
    omega

theorem KernelStatus.word_large {status : KernelStatus} (hError : status ≠ .ok) :
    4096 < status.word := by
  cases status with
  | ok => exact absurd rfl hError
  | _ => decide

theorem syscallWrite_loop {buffer length : Nat} (hNull : buffer ≠ 0) (hSome : length ≠ 0)
    (s : SyscallKernel) :
    syscallWrite buffer length s =
      syscallWriteLoop (min length 4096 + 1) buffer (min length 4096) 0 s := by
  have hCap :
      (if syscallWriteMaxBytes < length then
        syscallWriteMaxBytes
      else
        length) = min length 4096 := by
    unfold syscallWriteMaxBytes
    split
    · omega
    · omega
  rw [syscallWrite, if_neg (not_or.mpr ⟨hNull, hSome⟩), hCap]

theorem chunkAt_zero (length : Nat) : chunkAt (min length 4096) 0 = min length 512 := by
  unfold chunkAt syscallCopyChunkMax
  omega

section Write

variable {buffer length : Nat}

/- A buffer on the user pages, by the place of its chunks. -/
theorem writeLaw_inside_iff (hBuffer : buffer < 4294967296) (hSome : length ≠ 0)
    (hInside : WriteInside buffer length) (s : SyscallKernel) :
    WriteLaw buffer length s ↔
      buffer % 512 = 0 ∨ 0x10001000 ≤ buffer ∨ buffer + min length 4096 ≤ 0x10001000 := by
  have hRange := ((writeInside_iff buffer length).mp hInside).resolve_left hSome
  have hLoop := syscallWrite_loop (show buffer ≠ 0 by omega) hSome s
  have hCap : min length 4096 ≤ 4096 := Nat.min_le_right _ _
  generalize hCount : min length 4096 = count at hRange hLoop hCap
  constructor
  · intro hLaw
    by_contra hCross
    -- the chunk with the boundary between the pages
    have hFails := syscallWriteLoop_fails (count + 1) hBuffer hCap
        (show (0x10001000 - buffer) / 512 * 512 < count by omega)
        (by omega)
        (by
          unfold OnOnePage chunkAt syscallCopyChunkMax
          omega)
        (Nat.zero_mod 512) (Nat.zero_le _) (by omega) s
    have hResult := (hLaw.inside hInside).1
    have hLarge : 4096 < KernelStatus.permissionDenied.word := by decide
    rw [hLoop, hFails, hCount] at hResult
    omega
  · intro hPlace
    refine ⟨fun _ => ?_, fun hOutside => absurd hInside hOutside⟩
    rw [hLoop, hCount]
    apply syscallWriteLoop_all (count + 1) hBuffer hCap _
      (Or.inr (Nat.zero_mod 512)) (Nat.zero_le _) (by omega)
    intro c hc hAligned
    unfold OnOnePage chunkAt syscallCopyChunkMax
    omega

/- Any other buffer, by its first chunk. -/
theorem writeLaw_outside_iff (hBuffer : buffer < 4294967296) (hSome : length ≠ 0)
    (hOutside : ¬ WriteInside buffer length) (s : SyscallKernel) :
    WriteLaw buffer length s ↔ buffer ≠ 0 ∧ ¬ OnOnePage buffer (min length 512) := by
  have hCap : min length 4096 ≤ 4096 := Nat.min_le_right _ _
  have hMore : 0 < min length 4096 := by omega
  rw [← chunkAt_zero]
  constructor
  · intro hLaw
    obtain ⟨⟨status, hError, hResult⟩, hScreen⟩ := hLaw.outside hOutside
    have hNull : buffer ≠ 0 := by
      intro hNull
      have hLarge := KernelStatus.word_large hError
      rw [syscallWrite, if_pos (Or.inl hNull)] at hResult
      omega
    refine ⟨hNull, fun hPage => ?_⟩
    -- the first chunk is on the screen
    rw [syscallWrite_loop hNull hSome, syscallWriteLoop_printed _ hBuffer hCap hMore hPage]
      at hScreen
    have hGrows := @syscallWriteLoop_screen buffer (min length 4096)
        (0 + chunkAt (min length 4096) 0) (min length 4096)
        hBuffer hCap
        (s.printed (buffer + 0) (chunkAt (min length 4096) 0))
    have hFirst : (s.printed (buffer + 0) (chunkAt (min length 4096) 0)).screen.length =
        s.screen.length + chunkAt (min length 4096) 0 := by
      unfold SyscallKernel.printed userBytes
      rw [List.length_append, List.length_map, List.length_range]
    have hChunk : 0 < chunkAt (min length 4096) 0 := by
      rw [chunkAt_zero]
      omega
    rw [hScreen, hFirst] at hGrows
    omega
  · rintro ⟨hNull, hPage⟩
    refine ⟨fun hInside => absurd hInside hOutside, fun _ => ?_⟩
    rw [syscallWrite_loop hNull hSome, syscallWriteLoop_refused _ hBuffer hCap hMore hPage]
    exact ⟨⟨.permissionDenied, nofun, rfl⟩, rfl⟩

end Write

/- WRITE keeps to its law exactly if the chunks decide alike. -/
theorem writeLaw_iff (s : SyscallKernel) (buffer length : UInt32) :
    WriteLaw buffer.toNat length.toNat s ↔ ChunksDecide buffer.toNat length.toNat := by
  have hBuffer : buffer.toNat < 4294967296 := buffer.toNat_lt
  by_cases hNone : length.toNat = 0
  · have hInside : WriteInside buffer.toNat length.toNat := (writeInside_iff _ _).mpr (Or.inl hNone)
    have hLaw : WriteLaw buffer.toNat length.toNat s := by
      refine ⟨fun _ => ?_, fun h => absurd hInside h⟩
      rw [hNone, syscallWrite, if_pos (Or.inr rfl)]
      exact ⟨rfl, (List.append_nil _).symm⟩
    refine ⟨fun _ => ⟨fun _ => ?_, ?_⟩, fun _ => hLaw⟩
    · omega
    · exact fun h => absurd hInside h
  by_cases hInside : WriteInside buffer.toNat length.toNat
  · rw [writeLaw_inside_iff hBuffer hNone hInside]
    constructor
    · intro hPlace
      exact ⟨fun _ => hPlace, fun h => absurd hInside h⟩
    · intro hDecide
      exact hDecide.inside hInside
  · rw [writeLaw_outside_iff hBuffer hNone hInside]
    constructor
    · intro hFirst
      exact ⟨fun h => absurd h hInside, fun _ => hFirst⟩
    · intro hDecide
      exact hDecide.outside hInside

/- The system calls of a kernel that has just booted. -/
def bootedSyscalls : SyscallKernel where
  processes := ProcessKernel.booted
  name := fun _ => []
  argv := fun _ => []
  files := fun _ _ => closedFile
  fdTableInitialized := true
  vfs := ⟨true, none⟩
  ticks := 0
  screen := []
  otherMemory := fun _ => 0
  accesses := []

/-
  The last 512 bytes of the stack page and 512 more: the first half is printed, then the call is
  refused.
-/
theorem write_prints_then_fails :
    (syscallWrite 0x10001E00 1024 bootedSyscalls).1 = KernelStatus.permissionDenied.word ∧
      (syscallWrite 0x10001E00 1024 bootedSyscalls).2.screen.length = 512 ∧
      ¬ WriteLaw 0x10001E00 1024 bootedSyscalls := by
  have hBuffer : 0x10001E00 < 4294967296 := by decide
  have hOutside : ¬ WriteInside 0x10001E00 1024 := by
    rw [writeInside_iff]
    decide
  have hRun : syscallWrite 0x10001E00 1024 bootedSyscalls =
        (KernelStatus.permissionDenied.word, bootedSyscalls.printed 0x10001E00 512) := by
    rw [syscallWrite_loop (by decide) (by decide),
      syscallWriteLoop_printed _ hBuffer (by decide) (by decide) (Or.inr (by decide))]
    exact syscallWriteLoop_refused 1023 hBuffer
      (show 1024 ≤ 4096 by decide) (show 512 < 1024 by decide)
      (by unfold OnOnePage; decide) _
  refine ⟨by rw [hRun], ?_, ?_⟩
  · rw [hRun, SyscallKernel.printed, List.length_append,
      userBytes, List.length_map, List.length_range]
    rfl
  · rw [writeLaw_outside_iff hBuffer (by decide) hOutside]
    unfold OnOnePage
    decide

end LiamOS.I386
