import LiamOS.X64.Vfs.Session

/-
  What becomes of the session file's bytes when it is truncated.

  Truncation sets the length to zero and leaves both the bytes and the offsets of other
  descriptors. A write through a descriptor that stands beyond the new length makes the bytes in
  front of it visible again. Beside the state runs a record of the positions written since the
  file was last truncated.

  Main declarations: `truncationLaw_iff_gapClear`, `truncated_bytes_return`,
  `vfsOpen_failure_keeps_iff`, `full_open_truncates`.
-/

namespace LiamOS.X64

open Word

variable {images : VfsImages} {s : VfsSystem} {c : VfsCall}

----------
-- Positions Written Since a Truncation

/- `fresh` marks the positions written since the last open that truncated the file and succeeded. -/
structure TrackedVfs where
  system : VfsSystem
  fresh : Nat → Bool

/- The bytes a write stores: where they start and how many. -/
def storedRange (images : VfsImages) (s : VfsSystem) : VfsCall → Option (Nat × Nat)
| .writeFile d fd (some _) size =>
    ((s.states d).openSlot fd.toNat).bind fun slot =>
      let entry := (s.states d).fd slot
      if entry.flags &&& vfsOpenWrite = 0 ∨
          (vfsNodes images)[entry.nodeIndex]?.any vfsIsSessionStorageNode = false then
        none
      else
        some (entry.offset, min size.toNat (256 - entry.offset))
| _ => none

/- An open that truncates the file and gives a descriptor. -/
def truncates (images : VfsImages) (s : VfsSystem) : VfsCall → Bool
| .openFile d path scratch flags =>
    decide (flags.toNat &&& vfsOpenTruncate ≠ 0) &&
      (vfsOpenNode images path scratch flags.toNat).isOk &&
      (firstFreeSlot (s.states d)).isSome
| _ => false

def TrackedVfs.step (images : VfsImages) (t : TrackedVfs) (c : VfsCall) : VfsReply × TrackedVfs :=
  ((t.system.step images c).1,
    { system := (t.system.step images c).2
      fresh := fun i =>
        if truncates images t.system c then
          false
        else
          match storedRange images t.system c with
          | none => t.fresh i
          | some (offset, n) => t.fresh i || decide (offset ≤ i ∧ i < offset + n) })

/- The start: nothing has been truncated yet. -/
def TrackedVfs.start (s : VfsSystem) : TrackedVfs where
  system := s
  fresh := fun _ => true

----------
-- The Law

/- Every byte of the file is fresh or zero. -/
def Clean (t : TrackedVfs) : Prop :=
  ∀ i, i < t.system.session.size → t.fresh i = true ∨ t.system.session.bytes i = 0

/-
  Bytes below the length that were not written since the truncation are zero, and no read of the
  session file returns another byte from before it.
-/
def TruncationLaw (images : VfsImages) (t : TrackedVfs) : Prop :=
  Clean t ∧ ∀ (d fd : Nat) (slot : Fin 4) (size k : Nat) (byte : UInt8),
      (t.system.states d).openSlot fd = some slot →
      ((t.system.states d).fd slot).nodeIndex = sessionNode →
      (vfsRead images fd true size t.system.session (t.system.states d)).1.bytes[k]? = some byte →
        t.fresh (((t.system.states d).fd slot).offset + k) = true ∨ byte = 0

theorem sessionNode_get (images : VfsImages) :
    ∃ node, (vfsNodes images)[sessionNode]? = some node ∧ vfsIsSessionStorageNode node = true :=
  ⟨{ path := textBytes "/tmp/session.txt"
     data := none
     type := .file }, rfl, rfl⟩

/- What reads return lies below the length. -/
theorem truncationLaw_iff_clean (images : VfsImages) (t : TrackedVfs) :
    TruncationLaw images t ↔ Clean t := by
  refine ⟨fun hLaw => hLaw.1, fun hClean => ⟨hClean, ?_⟩⟩
  intro d fd slot size k byte hSlot hSession hByte
  obtain ⟨node, hNode, hIs⟩ := sessionNode_get images
  rw [← hSession] at hNode
  have hSize : vfsNodeSize t.system.session node = t.system.session.size := if_pos hIs
  have hData : vfsNodeData t.system.session node = t.system.session.bytes := if_pos hIs
  rw [vfsRead_eq size hSlot hNode, hSize, hData, List.getElem?_map] at hByte
  obtain ⟨i, hi, rfl⟩ := Option.map_eq_some_iff.mp hByte
  obtain ⟨hk, hEq⟩ := List.getElem?_eq_some_iff.mp hi
  rw [List.length_range] at hk
  rw [List.getElem_range] at hEq
  subst hEq
  exact hClean _ (by omega)

/- A write that starts beyond the length finds only fresh or zero bytes in between. -/
def GapClear (images : VfsImages) (t : TrackedVfs) (c : VfsCall) : Prop :=
  ∀ offset n, storedRange images t.system c = some (offset, n) → n ≠ 0 →
    ∀ i, t.system.session.size ≤ i → i < offset → t.fresh i = true ∨ t.system.session.bytes i = 0

----------
-- One Call

/- A call that stores nothing leaves the session file as it is or makes it empty. -/
theorem session_of_storedRange_none (hNone : storedRange images s c = none) :
    ((s.step images c).2.session = s.session ∧ truncates images s c = false) ∨
      (s.step images c).2.session.size = 0 := by
  cases c with
  | init d => exact Or.inl ⟨rfl, rfl⟩
  | openFile d path scratch flags =>
    dsimp only [VfsSystem.step, truncates]
    cases hOpen : vfsOpenNode images path scratch flags.toNat with
    | error code =>
      rw [vfsOpen_error hOpen]
      refine Or.inl ⟨rfl, ?_⟩
      rw [Except.isOk, Except.toBool, Bool.and_false, Bool.false_and]
    | ok node =>
      have hOpened :
          (s.session.opened flags.toNat = s.session ∧
              decide (flags.toNat &&& vfsOpenTruncate ≠ 0) = false) ∨
            (s.session.opened flags.toNat).size = 0 := by
        unfold SessionStorage.opened
        by_cases hFlags : flags.toNat &&& vfsOpenTruncate ≠ 0
        · rw [if_pos hFlags]
          exact Or.inr rfl
        · rw [if_neg hFlags]
          exact Or.inl ⟨rfl, decide_eq_false hFlags⟩
      cases hFree : firstFreeSlot (s.states d) with
      | none =>
        rw [vfsOpen_full hOpen s.session hFree]
        rcases hOpened with ⟨hSame, hKeep⟩ | hZero
        · exact Or.inl ⟨hSame, by rw [hKeep]; rfl⟩
        · exact Or.inr hZero
      | some slot =>
        rw [vfsOpen_slot hOpen s.session hFree]
        rcases hOpened with ⟨hSame, hKeep⟩ | hZero
        · exact Or.inl ⟨hSame, by rw [hKeep]; rfl⟩
        · exact Or.inr hZero
  | readFile d fd buffer size => exact Or.inl ⟨rfl, rfl⟩
  | closeFile d fd => exact Or.inl ⟨rfl, rfl⟩
  | writeFile d fd buffer size =>
    refine Or.inl ⟨?_, rfl⟩
    dsimp only [VfsSystem.step]
    cases buffer with
    | none => rfl
    | some buffer =>
      cases hSlot : (s.states d).openSlot fd.toNat with
      | none =>
        rw [vfsWrite_bad hSlot]
        rfl
      | some slot =>
        dsimp only [storedRange] at hNone
        rw [hSlot] at hNone
        dsimp only [Option.bind] at hNone
        split at hNone
        · next hWhy =>
            rw [vfsWrite_refused hSlot hWhy]
            rfl
        · exact absurd hNone nofun

/- The session file behind a write that is let through. -/
theorem session_of_storedRange_some {offset n : Nat}
    (hSome : storedRange images s c = some (offset, n)) :
    ∃ buffer, (s.step images c).2.session = s.session.written buffer offset n ∧
        truncates images s c = false := by
  cases c with
  | init d => exact absurd hSome nofun
  | openFile d path scratch flags => exact absurd hSome nofun
  | readFile d fd buffer size => exact absurd hSome nofun
  | closeFile d fd => exact absurd hSome nofun
  | writeFile d fd buffer size =>
    cases buffer with
    | none => exact absurd hSome nofun
    | some buffer =>
      refine ⟨buffer, ?_, rfl⟩
      dsimp only [storedRange] at hSome
      dsimp only [VfsSystem.step]
      cases hSlot : (s.states d).openSlot fd.toNat with
      | none =>
        rw [hSlot] at hSome
        exact absurd hSome nofun
      | some slot =>
        rw [hSlot] at hSome
        dsimp only [Option.bind] at hSome
        split at hSome
        · exact absurd hSome nofun
        · next hWhy =>
            cases hSome
            have hAny :
                (vfsNodes images)[((s.states d).fd
                  slot).nodeIndex]?.any vfsIsSessionStorageNode = true := by
              by_contra hNot
              exact hWhy (Or.inr (Bool.eq_false_iff.mpr hNot))
            rw [vfsWrite_eq buffer size.toNat hSlot (fun h => hWhy (Or.inl h)) hAny]
            rfl

/- A write of `n` bytes from an offset on, in the record. -/
theorem clean_written_iff {t : TrackedVfs} (hClean : Clean t) (s : VfsSystem) (buffer : ByteBuffer)
    (offset n : Nat) (hSession : s.session = t.system.session.written buffer offset n) :
    Clean
        ⟨s, fun i =>
          t.fresh i || decide (offset ≤ i ∧ i < offset + n)⟩ ↔
      (n ≠ 0 → ∀ i, t.system.session.size ≤ i → i < offset →
          t.fresh i = true ∨ t.system.session.bytes i = 0) := by
  unfold Clean
  dsimp only
  rw [hSession]
  unfold SessionStorage.written
  dsimp only
  by_cases hn : n = 0
  · subst hn
    rw [if_pos rfl]
    refine ⟨fun _ hNe => absurd rfl hNe, fun _ i hi => ?_⟩
    rw [sessionStore_apply, if_neg (by omega), Bool.or_eq_true]
    exact (hClean i hi).imp Or.inl id
  rw [if_neg hn]
  constructor
  · intro hAll _ i hLow hHigh
    have hByte := hAll i (by omega)
    rw [sessionStore_apply, if_neg (by omega), Bool.or_eq_true, decide_eq_true_iff] at hByte
    rcases hByte with (hFresh | hIn) | hZero
    · exact Or.inl hFresh
    · omega
    · exact Or.inr hZero
  · intro hGap i hi
    rw [sessionStore_apply, Bool.or_eq_true, decide_eq_true_iff]
    by_cases hIn : offset ≤ i ∧ i < offset + n
    · exact Or.inl (Or.inr hIn)
    rw [if_neg hIn]
    -- Below the old length, or in the gap in front of the write.
    have hOld : t.fresh i = true ∨ t.system.session.bytes i = 0 := by
      by_cases hBelow : i < t.system.session.size
      · exact hClean i hBelow
      · exact hGap hn i (by omega) (by omega)
    exact hOld.imp Or.inl id

/- A call keeps the file clean exactly if it does not write over a gap with old bytes in it. -/
theorem clean_step_iff (images : VfsImages) (t : TrackedVfs) (c : VfsCall) (hClean : Clean t) :
    Clean (t.step images c).2 ↔ GapClear images t c := by
  unfold TrackedVfs.step GapClear
  cases hRange : storedRange images t.system c with
  | none =>
    refine ⟨fun _ => nofun, fun _ i hi => ?_⟩
    dsimp only at hi ⊢
    rcases session_of_storedRange_none hRange with ⟨hSame, hKeep⟩ | hZero
    · rw [hSame] at hi
      rw [hKeep, hSame]
      exact hClean i hi
    · rw [hZero] at hi
      omega
  | some range =>
    obtain ⟨offset, n⟩ := range
    obtain ⟨buffer, hSession, hKeep⟩ := session_of_storedRange_some hRange
    rw [hKeep]
    refine Iff.trans
      (clean_written_iff hClean (t.system.step images c).2 buffer offset n hSession) ?_
    constructor
    · intro hGap offset' n' hEq
      cases hEq
      exact hGap
    · intro hGap
      exact hGap offset n rfl

----------
-- Runs

/-
  Along every list of calls, from every content of the file and every state of the descriptors:
  truncated bytes stay away in all states exactly if no write leaves a gap of old bytes in front
  of it.
-/
theorem truncationLaw_iff_gapClear (images : VfsImages) (s : VfsSystem) (calls : List VfsCall) :
    Calls.Always (TrackedVfs.step images) (TruncationLaw images) (.start s) calls ↔
      Calls.EachStep (TrackedVfs.step images) (GapClear images) (.start s) calls := by
  refine Calls.always_iff_eachStep ?_ ?_ calls
  · intro t c hLaw
    rw [truncationLaw_iff_clean] at hLaw ⊢
    exact clean_step_iff images t c hLaw
  · rw [truncationLaw_iff_clean]
    exact fun _ _ => Or.inl rfl

/- An empty session file and no open descriptor. -/
def emptySession : VfsSystem where
  session := ⟨fun _ => 0, 0⟩
  states := fun _ => vfsInit

def sessionPath : Option ByteBuffer := some (cString (textBytes "/tmp/session.txt"))

/-
  Six bytes are written through one descriptor, a second open truncates the file, one more byte is
  written through the first descriptor, and a third one reads the file.
-/
def truncateAndWrite : List VfsCall :=
  [.openFile 0 sessionPath (fun _ => 0) 1, .writeFile 0 3 (some (cString (textBytes "secret"))) 6,
    .openFile 0 sessionPath (fun _ => 0) 5,
    .writeFile 0 3 (some (cString (textBytes "!"))) 1,
    .openFile 0 sessionPath (fun _ => 0) 0,
    .readFile 0 5 true 7]

/- The read returns what was written before the truncation. -/
theorem truncated_bytes_return :
    (Calls.run (TrackedVfs.step noImages) (.start emptySession) truncateAndWrite).1 =
      [.code 3, .code 6, .code 4, .code 1, .code 5, ⟨7, textBytes "secret!"⟩] ∧
      ¬ Calls.Always (TrackedVfs.step noImages) (TruncationLaw noImages) (.start emptySession)
        truncateAndWrite := by
  refine ⟨by decide +kernel, ?_⟩
  rintro ⟨-, -, -, -, hLaw, -⟩
  rcases hLaw.1 0 (by decide +kernel) with hFresh | hZero
  · exact absurd hFresh (by decide +kernel)
  · exact absurd hZero (by decide +kernel)

----------
-- Opens That Fail

def NamesSession (path : Option ByteBuffer) (scratch : ByteBuffer) : Prop :=
  ∃ p, path = some p ∧ (vfsFindNode p scratch).join = some sessionNode

/- An open that truncates the session file although no slot is left for it. -/
structure TruncatesInVain (path : Option ByteBuffer) (scratch : ByteBuffer) (flags : Nat)
    (session : SessionStorage) (state : VfsState) : Prop where
  supported : flags < 8
  truncate : flags &&& vfsOpenTruncate ≠ 0
  names : NamesSession path scratch
  full : ∀ slot, (state.fd slot).used = true
  filled : session.size ≠ 0

theorem flags_supported_iff {flags : Nat} (hFlags : flags < 18446744073709551616) :
    flags &&& not64 (vfsOpenWrite ||| vfsOpenCreate ||| vfsOpenTruncate) = 0 ↔ flags < 8 := by
  have hLow := @and_not64_low flags 3 (by decide) hFlags
  rw [show vfsOpenWrite ||| vfsOpenCreate ||| vfsOpenTruncate = 2 ^ 3 - 1 from rfl, hLow]
  omega

/- What an open with the truncate flag is accepted for. -/
theorem vfsOpenNode_truncate_iff (images : VfsImages) (path : Option ByteBuffer)
    (scratch : ByteBuffer) {flags : Nat} (hFlags : flags < 18446744073709551616)
    (hTruncate : flags &&& vfsOpenTruncate ≠ 0) :
    (∃ node, vfsOpenNode images path scratch flags = .ok node) ↔
      flags < 8 ∧ NamesSession path scratch := by
  have hWrites : flags ≠ vfsOpenRead := by
    rintro rfl
    exact hTruncate rfl
  rw [← flags_supported_iff hFlags]
  unfold vfsOpenNode NamesSession
  cases path with
  | none =>
    refine ⟨?_, ?_⟩
    · rintro ⟨node, hOpen⟩
      cases hOpen
    · rintro ⟨-, p, hPath, -⟩
      cases hPath
  | some p =>
    dsimp only
    cases hFind : (vfsFindNode p scratch).join with
    | none =>
      refine ⟨?_, ?_⟩
      · rintro ⟨node, hOpen⟩
        cases hOpen
      · rintro ⟨-, q, hPath, hNode⟩
        cases hPath
        rw [hFind] at hNode
        cases hNode
    | some node =>
      have hSession := sessionNode_iff images (vfsFindNode_lt hFind)
      dsimp only
      by_cases hSupported : flags &&& not64 (vfsOpenWrite ||| vfsOpenCreate ||| vfsOpenTruncate) = 0
      · rw [if_neg (not_not.mpr hSupported)]
        by_cases hNode : node = sessionNode
        · rw [if_neg (by simp [hSession.mpr hNode])]
          exact ⟨fun _ => ⟨hSupported, p, rfl, hNode ▸ hFind⟩, fun _ => ⟨node, rfl⟩⟩
        · rw [if_pos ⟨hWrites, Bool.eq_false_iff.mpr fun hAny => hNode (hSession.mp hAny)⟩]
          refine ⟨?_, ?_⟩
          · rintro ⟨other, hOpen⟩
            cases hOpen
          · rintro ⟨-, q, hPath, hOther⟩
            cases hPath
            rw [hFind] at hOther
            exact absurd (Option.some.inj hOther) hNode
      · rw [if_pos hSupported]
        refine ⟨?_, ?_⟩
        · rintro ⟨other, hOpen⟩
          cases hOpen
        · rintro ⟨hOther, -⟩
          exact absurd hOther hSupported

theorem firstFreeSlot_none_iff (state : VfsState) :
    firstFreeSlot state = none ↔ ∀ slot, (state.fd slot).used = true := by
  unfold firstFreeSlot
  rw [List.find?_eq_none]
  simp

theorem opened_eq_self_iff (session : SessionStorage) (flags : Nat) :
    session.opened flags = session ↔ flags &&& vfsOpenTruncate = 0 ∨ session.size = 0 := by
  unfold SessionStorage.opened
  by_cases hTruncate : flags &&& vfsOpenTruncate = 0
  · rw [if_neg (not_not.mpr hTruncate)]
    exact ⟨fun _ => Or.inl hTruncate, fun _ => rfl⟩
  · rw [if_pos hTruncate]
    constructor
    · intro hSame
      exact Or.inr (congrArg SessionStorage.size hSame).symm
    · rintro (hZero | hZero)
      · exact absurd hZero hTruncate
      · rw [← hZero]

/-
  An open that fails changes nothing exactly if it does not truncate the session file before it
  finds no slot.
-/
theorem vfsOpen_failure_keeps_iff (images : VfsImages) (path : Option ByteBuffer)
    (scratch : ByteBuffer) (flags : UInt64) (session : SessionStorage) (state : VfsState) :
    ((vfsOpen images path scratch flags.toNat session state).1.value = vfsRetEnoent ∨
          (vfsOpen images path scratch flags.toNat session state).1.value = vfsRetEinval →
        (vfsOpen images path scratch flags.toNat session state).2 = (session, state)) ↔
      ¬ TruncatesInVain path scratch flags.toNat session state := by
  have hAccepts := @vfsOpenNode_truncate_iff images path scratch flags.toNat flags.toNat_lt
  cases hOpen : vfsOpenNode images path scratch flags.toNat with
  | error code =>
    rw [vfsOpen_error hOpen]
    refine ⟨fun _ hVain => ?_, fun _ _ => rfl⟩
    obtain ⟨node, hOk⟩ := (hAccepts hVain.truncate).mpr ⟨hVain.supported, hVain.names⟩
    rw [hOpen] at hOk
    cases hOk
  | ok node =>
    cases hSlot : firstFreeSlot state with
    | none =>
      have hFull := (firstFreeSlot_none_iff state).mp hSlot
      rw [vfsOpen_full hOpen session hSlot, Prod.mk.injEq, opened_eq_self_iff]
      constructor
      · intro hKeeps hVain
        rcases (hKeeps (Or.inr rfl)).1 with hZero | hZero
        · exact hVain.truncate hZero
        · exact hVain.filled hZero
      · intro hNot _
        refine ⟨?_, rfl⟩
        by_contra hBoth
        rw [not_or] at hBoth
        obtain ⟨hSupported, hNames⟩ := (hAccepts hBoth.1).mp ⟨node, hOpen⟩
        exact hNot ⟨hSupported, hBoth.1, hNames, hFull, hBoth.2⟩
    | some slot =>
      rw [vfsOpen_slot hOpen session hSlot]
      constructor
      · intro _ hVain
        have hNone := (firstFreeSlot_none_iff state).mpr hVain.full
        rw [hSlot] at hNone
        cases hNone
      · intro _ hCode
        have hLt := slot.isLt
        unfold VfsReply.code vfsFdBase vfsRetEnoent vfsRetEinval at hCode
        dsimp only at hCode
        omega

/- Four files are open when the session file is truncated. -/
theorem full_open_truncates : vfsOpen noImages sessionPath (fun _ => 0) 4 ⟨fun _ => 0x61, 1⟩
        ⟨true, fun _ => ⟨true, vfsOpenRead, 0, 0⟩⟩ =
      (.code vfsRetEinval, ⟨fun _ => 0x61, 0⟩, ⟨true, fun _ => ⟨true, vfsOpenRead, 0, 0⟩⟩) := by
  have hOpen : vfsOpenNode noImages sessionPath (fun _ => 0) 4 = .ok 20 := by decide +kernel
  exact vfsOpen_full hOpen _ ((firstFreeSlot_none_iff _).mpr fun _ => rfl)

end LiamOS.X64
