import LiamOS.X64.Vfs.Files

/-
  The session file of the x86_64 virtual file system as a byte string with one offset for each
  open descriptor.

  As long as no open truncates the file, the shared buffer, its length and the slots of all
  dispatchers answer every call as that byte string does.

  Main declarations: `session_refines_byteFile`.
-/

namespace LiamOS.X64

open Word

variable {s : VfsSystem} {d : Nat} {slot : Fin 4}
variable {session : SessionStorage} {entry : FdSlot} {fd offset : Nat}

----------
-- A Byte String With Descriptors

/- Bytes written over a byte string from an offset on. -/
def overwrite (contents : List UInt8) (offset : Nat) (bytes : List UInt8) : List UInt8 :=
  contents.take offset ++ bytes ++ contents.drop (offset + bytes.length)

structure Descriptor where
  node : Nat
  writable : Bool
  offset : Nat
deriving DecidableEq, Repr

/- `contents` is the session file; the descriptors are those of each dispatcher. -/
structure ByteFile where
  contents : List UInt8
  descriptors : Nat → Fin 4 → Option Descriptor

def ByteFile.set (t : ByteFile) (d : Nat) (slot : Fin 4)
    (descriptor : Option Descriptor) : ByteFile :=
  { t with
    descriptors :=
      Function.update t.descriptors d (Function.update (t.descriptors d) slot descriptor) }

/- The open descriptor with a number. -/
def ByteFile.find (t : ByteFile) (d fd : Nat) : Option (Fin 4 × Descriptor) :=
  (vfsFdSlot fd).bind fun slot =>
    (t.descriptors d slot).map fun descriptor =>
      (slot, descriptor)

/- The bytes of the other nodes, which never change. -/
def nodeContents (images : VfsImages) (node : Nat) : List UInt8 :=
  ((vfsNodes images)[node]?.bind VfsNode.data).getD []

/- What a descriptor is read from. -/
def ByteFile.source (images : VfsImages) (t : ByteFile) (node : Nat) : List UInt8 :=
  if node = sessionNode then t.contents
  else nodeContents images node

def ByteFile.openFile (images : VfsImages) (t : ByteFile) (d : Nat) (path : Option ByteBuffer)
    (scratch : ByteBuffer)
    (flags : Nat) : VfsReply × ByteFile :=
  match vfsOpenNode images path scratch flags with
  | .error code => (.code code, t)
  | .ok node =>
    match (List.finRange 4).find? fun slot =>
        (t.descriptors d slot).isNone with
    | none => (.code vfsRetEinval, t)
    | some slot =>
      (.code (vfsFdBase + slot.val), t.set d slot (some ⟨node, decide (flags &&& 1 ≠ 0), 0⟩))

/- A read gives the bytes from the offset up to the end. -/
def ByteFile.readFile (images : VfsImages) (t : ByteFile) (d fd size : Nat) : VfsReply × ByteFile :=
  match t.find d fd with
  | none => (.code vfsRetEbadf, t)
  | some (slot, descriptor) =>
    let bytes := ((t.source images descriptor.node).drop descriptor.offset).take size
    (⟨bytes.length, bytes⟩, t.set d slot
        (some { descriptor with offset := descriptor.offset + bytes.length }))

/- A write stores what fits in front of byte 256 and moves its own descriptor behind it. -/
def ByteFile.writeFile (t : ByteFile) (d fd : Nat) (buffer : ByteBuffer)
    (size : Nat) : VfsReply × ByteFile :=
  match t.find d fd with
  | none => (.code vfsRetEbadf, t)
  | some (slot, descriptor) =>
    if descriptor.writable = false ∨ descriptor.node ≠ sessionNode then
      (.code vfsRetEbadf, t)
    else
      let bytes := (List.range (min size (256 - descriptor.offset))).map buffer
      (.code bytes.length,
        { t with contents := overwrite t.contents descriptor.offset bytes }.set d slot
          (some { descriptor with offset := descriptor.offset + bytes.length }))

def ByteFile.closeFile (t : ByteFile) (d fd : Nat) : VfsReply × ByteFile :=
  match t.find d fd with
  | none => (.code vfsRetEbadf, t)
  | some (slot, _) => (.code vfsRetOk, t.set d slot none)

def ByteFile.step (images : VfsImages) (t : ByteFile) : VfsCall → VfsReply × ByteFile
| .init d =>
    (.code vfsRetOk, { t with descriptors := Function.update t.descriptors d fun _ => none })
| .openFile d path scratch flags => t.openFile images d path scratch flags.toNat
| .readFile _ _ false _ => (.code vfsRetEinval, t)
| .readFile d fd true size => t.readFile images d fd.toNat size.toNat
| .writeFile _ _ none _ => (.code vfsRetEinval, t)
| .writeFile d fd (some buffer) size => t.writeFile d fd.toNat buffer size.toNat
| .closeFile d fd => t.closeFile d fd.toNat

----------
-- The View of the Code's State

def FdSlot.view (entry : FdSlot) : Option Descriptor := if entry.used then
    some ⟨entry.nodeIndex, decide (entry.flags &&& vfsOpenWrite ≠ 0), entry.offset⟩
  else
    none

def VfsSystem.byteFile (s : VfsSystem) : ByteFile where
  contents := (List.range s.session.size).map s.session.bytes
  descriptors := fun d slot => ((s.states d).fd slot).view

/- The bounds that hold between calls. Offsets into the session file never pass its length. -/
structure VfsSystem.Consistent (s : VfsSystem) : Prop where
  size : s.session.size ≤ 256
  node :
    ∀ d slot, ((s.states d).fd slot).used = true → ((s.states d).fd slot).nodeIndex < vfsNodeCount
  offset :
    ∀ d slot, ((s.states d).fd slot).used = true → ((s.states d).fd slot).nodeIndex = sessionNode →
        ((s.states d).fd slot).offset ≤ s.session.size

/- With fresh descriptors every content is consistent. -/
theorem consistent_init (hSize : session.size ≤ 256) :
    VfsSystem.Consistent ⟨session, fun _ => vfsInit⟩ :=
  ⟨hSize, fun _ _ hUsed => absurd hUsed nofun, fun _ _ hUsed => absurd hUsed nofun⟩

theorem byteFile_set (s : VfsSystem) (session : SessionStorage) (d : Nat) (slot : Fin 4)
    (entry : FdSlot) :
    ({ s with session := session }.setState d ((s.states d).set slot entry)).byteFile =
      { s.byteFile with
        contents := (List.range session.size).map session.bytes }.set d slot entry.view := by
  unfold VfsSystem.byteFile VfsSystem.setState ByteFile.set VfsState.set
  dsimp only
  rw [ByteFile.mk.injEq]
  refine ⟨rfl, ?_⟩
  funext d' slot'
  by_cases hd : d' = d
  · subst hd
    rw [Function.update_self, Function.update_self]
    by_cases hSlot : slot' = slot
    · subst hSlot
      dsimp only
      rw [Function.update_self, Function.update_self]
    · dsimp only
      rw [Function.update_of_ne hSlot, Function.update_of_ne hSlot]
  · rw [Function.update_of_ne hd, Function.update_of_ne hd]

theorem byteFile_same (s : VfsSystem) (d : Nat) : s.setState d (s.states d) = s := by
  unfold VfsSystem.setState
  rw [Function.update_eq_self]

/-
  Replacing one slot keeps the bounds if the new entry has them and the file has not become
  shorter.
-/
theorem VfsSystem.Consistent.set (hCons : s.Consistent) (hSize : session.size ≤ 256)
    (hGrows : s.session.size ≤ session.size)
    (hNode : entry.used = true → entry.nodeIndex < vfsNodeCount)
    (hOffset : entry.used = true → entry.nodeIndex = sessionNode → entry.offset ≤ session.size) :
    ({ s with session := session }.setState d ((s.states d).set slot entry)).Consistent := by
  have hEntry : ∀ d' slot',
        (({ s with session := session }.setState d
            ((s.states d).set slot entry)).states d').fd slot' =
          entry ∨
        (({ s with session := session }.setState d
            ((s.states d).set slot entry)).states d').fd slot' =
          (s.states d').fd slot' := by
    intro d' slot'
    unfold VfsSystem.setState VfsState.set
    dsimp only
    by_cases hd : d' = d
    · subst hd
      rw [Function.update_self]
      dsimp only
      by_cases hSlot : slot' = slot
      · subst hSlot
        rw [Function.update_self]
        exact Or.inl rfl
      · rw [Function.update_of_ne hSlot]
        exact Or.inr rfl
    · rw [Function.update_of_ne hd]
      exact Or.inr rfl
  refine ⟨hSize, ?_, ?_⟩
  · intro d' slot' hUsed
    rcases hEntry d' slot' with hEq | hEq
    · rw [hEq] at hUsed ⊢
      exact hNode hUsed
    · rw [hEq] at hUsed ⊢
      exact hCons.node d' slot' hUsed
  · intro d' slot' hUsed hSession
    rcases hEntry d' slot' with hEq | hEq
    · rw [hEq] at hUsed hSession ⊢
      exact hOffset hUsed hSession
    · rw [hEq] at hUsed hSession ⊢
      exact Nat.le_trans (hCons.offset d' slot' hUsed hSession) hGrows

/- Reply, view and bounds behind a call, for both machines. -/
def Agrees (code : VfsReply × VfsSystem) (spec : VfsReply × ByteFile) : Prop :=
  code.1 = spec.1 ∧ code.2.byteFile = spec.2 ∧ code.2.Consistent

/- A call that changes nothing. -/
theorem agrees_same (hCons : s.Consistent) (d value : Nat) :
    Agrees (.code value, s.setState d (s.states d)) (.code value, s.byteFile) := by
  rw [byteFile_same]
  exact ⟨rfl, rfl, hCons⟩

----------
-- Descriptors

theorem view_eq_none_iff (entry : FdSlot) : entry.view = none ↔ entry.used = false := by
  unfold FdSlot.view
  cases entry.used with
  | false => exact ⟨fun _ => rfl, fun _ => rfl⟩
  | true => exact ⟨nofun, nofun⟩

theorem view_of_used (hUsed : entry.used = true) :
    entry.view = some ⟨entry.nodeIndex, decide (entry.flags &&& vfsOpenWrite ≠ 0), entry.offset⟩ :=
  if_pos hUsed

/- A used slot with another offset. -/
theorem byteFile_advance (s : VfsSystem) (session : SessionStorage)
    (hUsed : ((s.states d).fd slot).used = true) (offset : Nat) :
    ({ s with session := session }.setState d
        ((s.states d).set slot { (s.states d).fd slot with offset := offset })).byteFile =
      { s.byteFile with contents := (List.range session.size).map session.bytes }.set d slot
        (some ⟨((s.states d).fd slot).nodeIndex,
            decide (((s.states d).fd slot).flags &&& vfsOpenWrite ≠ 0), offset⟩) := by
  rw [byteFile_set]
  congr 1
  exact if_pos hUsed

theorem find_of_openSlot (hSlot : (s.states d).openSlot fd = some slot) :
    s.byteFile.find d fd = some
        (slot, ⟨((s.states d).fd slot).nodeIndex,
            decide (((s.states d).fd slot).flags &&& vfsOpenWrite ≠ 0),
            ((s.states d).fd slot).offset⟩) := by
  obtain ⟨hFd, hUsed⟩ := openSlot_eq_some hSlot
  unfold ByteFile.find VfsSystem.byteFile
  rw [hFd]
  dsimp only [Option.bind]
  rw [view_of_used hUsed]
  rfl

theorem find_of_none (hNone : (s.states d).openSlot fd = none) : s.byteFile.find d fd = none := by
  unfold VfsState.openSlot at hNone
  unfold ByteFile.find VfsSystem.byteFile
  cases hFd : vfsFdSlot fd with
  | none => rfl
  | some slot =>
    rw [hFd] at hNone
    have hFree : ((s.states d).fd slot).used = false := by simpa using hNone
    dsimp only [Option.bind]
    rw [(view_eq_none_iff _).mpr hFree]
    rfl

----------
-- Bytes

theorem overwrite_getElem? {contents : List UInt8} (hOffset : offset ≤ contents.length)
    (bytes : List UInt8) (i : Nat) :
    (overwrite contents offset bytes)[i]? = if offset ≤ i ∧ i < offset + bytes.length then
        bytes[i - offset]?
      else
        contents[i]? := by
  have hTake : (contents.take offset).length = offset := by
    rw [List.length_take]
    omega
  unfold overwrite
  rw [List.append_assoc]
  by_cases hBefore : i < offset
  · rw [if_neg (by omega), List.getElem?_append_left (by omega), List.getElem?_take_of_lt hBefore]
  rw [List.getElem?_append_right (by omega), hTake]
  by_cases hIn : i < offset + bytes.length
  · rw [if_pos ⟨by omega, hIn⟩, List.getElem?_append_left (by omega)]
  · rw [if_neg (by omega), List.getElem?_append_right (by omega), List.getElem?_drop]
    congr 1
    omega

/- The loop of a write overwrites the bytes of the file. -/
theorem store_overwrites (bytes buffer : ByteBuffer) {size : Nat} (hOffset : offset ≤ size)
    (n : Nat) :
    (List.range (max size (offset + n))).map (sessionStore buffer offset n bytes) =
      overwrite ((List.range size).map bytes) offset ((List.range n).map buffer) := by
  have hLength : ((List.range size).map bytes).length = size := by simp
  apply List.ext_getElem?
  intro i
  rw [overwrite_getElem? (by omega)]
  simp only [List.length_map, List.length_range, List.getElem?_map]
  by_cases hIn : offset ≤ i ∧ i < offset + n
  · rw [if_pos hIn, List.getElem?_range (by omega), List.getElem?_range (by omega)]
    simp only [Option.map_some]
    rw [sessionStore_apply, if_pos hIn]
  · rw [if_neg hIn]
    by_cases hSize : i < size
    · rw [List.getElem?_range (by omega), List.getElem?_range hSize]
      simp only [Option.map_some]
      rw [sessionStore_apply, if_neg hIn]
    · rw [List.getElem?_eq_none (by rw [List.length_range]; omega),
        List.getElem?_eq_none (by rw [List.length_range]; omega)]
      rfl

/- Bytes from an offset up to a length. -/
theorem take_drop_map_range (data : ByteBuffer) (size offset n : Nat) :
    (((List.range size).map data).drop offset).take n =
      (List.range (min n (size - offset))).map fun i =>
        data (offset + i) := by
  apply List.ext_getElem?
  intro i
  rw [List.getElem?_take, List.getElem?_map]
  by_cases hi : i < n
  · rw [if_pos hi, List.getElem?_drop, List.getElem?_map]
    by_cases hSize : offset + i < size
    · rw [List.getElem?_range hSize, List.getElem?_range (by omega)]
      rfl
    · rw [List.getElem?_eq_none (by rw [List.length_range]; omega),
        List.getElem?_eq_none (by rw [List.length_range]; omega)]
      rfl
  · rw [if_neg hi, List.getElem?_eq_none (by rw [List.length_range]; omega)]
    rfl

/- The bytes of a node, as a list and as the code reads it. -/
theorem source_eq (images : VfsImages) (s : VfsSystem) {i : Nat} {node : VfsNode}
    (hNode : (vfsNodes images)[i]? = some node) (hi : i < vfsNodeCount) :
    s.byteFile.source images i =
      (List.range (vfsNodeSize s.session node)).map (vfsNodeData s.session node) := by
  have hIff := sessionNode_iff images hi
  rw [hNode] at hIff
  unfold ByteFile.source vfsNodeSize vfsNodeData
  by_cases hSession : i = sessionNode
  · have hIs : vfsIsSessionStorageNode node = true := by simpa using hIff.mpr hSession
    rw [if_pos hSession, if_pos hIs, if_pos hIs]
    rfl
  · have hNot : ¬ vfsIsSessionStorageNode node = true :=
      fun hIs => hSession (hIff.mp (by simpa using hIs))
    rw [if_neg hSession, if_neg hNot, if_neg hNot]
    unfold nodeContents
    rw [hNode]
    change node.data.getD [] = _
    apply List.ext_getElem?
    intro k
    rw [List.getElem?_map]
    by_cases hk : k < (node.data.getD []).length
    · rw [List.getElem?_range hk, List.getElem?_eq_getElem hk]
      simp [hk]
    · rw [List.getElem?_eq_none (by omega),
        List.getElem?_eq_none (by rw [List.length_range]; omega)]
      rfl

----------
-- One Call

/- Opens that do not truncate, and all other calls. -/
def VfsCall.NoTruncate : VfsCall → Prop
| .openFile _ _ _ flags => flags.toNat &&& vfsOpenTruncate = 0
| _ => True

theorem init_simulates (images : VfsImages) (hCons : s.Consistent) (d : Nat) :
    Agrees (s.step images (.init d)) (s.byteFile.step images (.init d)) := by
  refine ⟨rfl, ?_, hCons.size, ?_, ?_⟩
  · unfold VfsSystem.step ByteFile.step VfsSystem.byteFile VfsSystem.setState
    dsimp only
    rw [ByteFile.mk.injEq]
    refine ⟨rfl, ?_⟩
    funext d' slot
    by_cases hd : d' = d
    · subst hd
      rw [Function.update_self, Function.update_self]
      rfl
    · rw [Function.update_of_ne hd, Function.update_of_ne hd]
  · intro d' slot hUsed
    unfold VfsSystem.step VfsSystem.setState at hUsed ⊢
    dsimp only at hUsed ⊢
    by_cases hd : d' = d
    · subst hd
      rw [Function.update_self] at hUsed
      exact absurd hUsed nofun
    · rw [Function.update_of_ne hd] at hUsed ⊢
      exact hCons.node d' slot hUsed
  · intro d' slot hUsed hSession
    unfold VfsSystem.step VfsSystem.setState at hUsed hSession ⊢
    dsimp only at hUsed hSession ⊢
    by_cases hd : d' = d
    · subst hd
      rw [Function.update_self] at hUsed
      exact absurd hUsed nofun
    · rw [Function.update_of_ne hd] at hUsed hSession ⊢
      exact hCons.offset d' slot hUsed hSession

theorem firstFreeSlot_eq (s : VfsSystem) (d : Nat) :
    firstFreeSlot (s.states d) = (List.finRange 4).find? fun slot =>
        (s.byteFile.descriptors d slot).isNone := by
  unfold firstFreeSlot
  congr 1
  funext slot
  change _ = (((s.states d).fd slot).view).isNone
  unfold FdSlot.view
  cases ((s.states d).fd slot).used with
  | false => rfl
  | true => rfl

theorem openFile_simulates (images : VfsImages) (hCons : s.Consistent) (d : Nat)
    (path : Option ByteBuffer) (scratch : ByteBuffer) {flags : UInt64}
    (hKeep : flags.toNat &&& vfsOpenTruncate = 0) :
    Agrees (s.step images (.openFile d path scratch flags))
      (s.byteFile.step images (.openFile d path scratch flags)) := by
  dsimp only [VfsSystem.step, ByteFile.step]
  unfold ByteFile.openFile
  cases hOpen : vfsOpenNode images path scratch flags.toNat with
  | error code =>
    rw [vfsOpen_error hOpen]
    exact agrees_same hCons d code
  | ok node =>
    have hNode := (vfsOpenNode_ok hOpen).1
    have hSession : s.session.opened flags.toNat = s.session := if_neg (not_not.mpr hKeep)
    dsimp only
    rw [← firstFreeSlot_eq]
    cases hFree : firstFreeSlot (s.states d) with
    | none =>
      rw [vfsOpen_full hOpen s.session hFree, hSession]
      exact agrees_same hCons d vfsRetEinval
    | some slot =>
      rw [vfsOpen_slot hOpen s.session hFree, hSession]
      exact ⟨rfl, byteFile_set s s.session d slot _,
        hCons.set hCons.size (Nat.le_refl _) (fun _ => hNode) (fun _ _ => Nat.zero_le _)⟩

/- Every open descriptor has a node. -/
theorem VfsSystem.Consistent.openNode (hCons : s.Consistent) (images : VfsImages)
    (hUsed : ((s.states d).fd slot).used = true) :
    ∃ node, (vfsNodes images)[((s.states d).fd slot).nodeIndex]? = some node := by
  have hBound := hCons.node d slot hUsed
  rw [← vfsNodes_length images] at hBound
  exact ⟨_, List.getElem?_eq_getElem hBound⟩

theorem readFile_simulates (images : VfsImages) (hCons : s.Consistent) (d : Nat) (fd : UInt64)
    (buffer : Bool) (size : UInt64) :
    Agrees (s.step images (.readFile d fd buffer size))
      (s.byteFile.step images (.readFile d fd buffer size)) := by
  dsimp only [VfsSystem.step]
  cases buffer with
  | false => exact agrees_same hCons d vfsRetEinval
  | true =>
    dsimp only [ByteFile.step]
    unfold ByteFile.readFile
    cases hSlot : (s.states d).openSlot fd.toNat with
    | none =>
      rw [vfsRead_bad hSlot, find_of_none hSlot]
      exact agrees_same hCons d vfsRetEbadf
    | some slot =>
      have hUsed := (openSlot_eq_some hSlot).2
      have hBound := hCons.node d slot hUsed
      obtain ⟨node, hNode⟩ := hCons.openNode images hUsed
      rw [vfsRead_eq size.toNat hSlot hNode, find_of_openSlot hSlot]
      dsimp only
      rw [source_eq images s hNode hBound, take_drop_map_range, List.length_map, List.length_range]
      refine ⟨rfl, ?_, ?_⟩
      · exact byteFile_advance s s.session hUsed _
      · refine hCons.set hCons.size (Nat.le_refl _) (fun _ => hBound) ?_
        intro _ hSession
        have hOffset := hCons.offset d slot hUsed hSession
        have hIs : vfsIsSessionStorageNode node = true := by
          have hAny := (sessionNode_iff images hBound).mpr hSession
          rw [hNode] at hAny
          exact hAny
        have hNodeSize : vfsNodeSize s.session node = s.session.size := if_pos hIs
        dsimp only
        rw [hNodeSize]
        omega

theorem writeFile_simulates (images : VfsImages) (hCons : s.Consistent) (d : Nat) (fd : UInt64)
    (buffer : Option ByteBuffer) (size : UInt64) :
    Agrees (s.step images (.writeFile d fd buffer size))
      (s.byteFile.step images (.writeFile d fd buffer size)) := by
  dsimp only [VfsSystem.step]
  cases buffer with
  | none => exact agrees_same hCons d vfsRetEinval
  | some buffer =>
    dsimp only [ByteFile.step]
    unfold ByteFile.writeFile
    cases hSlot : (s.states d).openSlot fd.toNat with
    | none =>
      rw [vfsWrite_bad hSlot, find_of_none hSlot]
      exact agrees_same hCons d vfsRetEbadf
    | some slot =>
      have hUsed := (openSlot_eq_some hSlot).2
      have hBound := hCons.node d slot hUsed
      have hIff := sessionNode_iff images hBound
      rw [find_of_openSlot hSlot]
      dsimp only
      by_cases hWhy : ((s.states d).fd slot).flags &&& vfsOpenWrite = 0 ∨
            (vfsNodes images)[((s.states d).fd slot).nodeIndex]?.any vfsIsSessionStorageNode = false
      · have hSpec : decide (((s.states d).fd slot).flags &&& vfsOpenWrite ≠ 0) = false ∨
              ((s.states d).fd slot).nodeIndex ≠ sessionNode := by
          rcases hWhy with hRead | hOther
          · exact Or.inl (by simpa using hRead)
          · refine Or.inr fun hSession => ?_
            rw [hIff.mpr hSession] at hOther
            exact absurd hOther nofun
        rw [vfsWrite_refused hSlot hWhy, if_pos hSpec]
        exact agrees_same hCons d vfsRetEbadf
      · have hFlags := fun h => hWhy (Or.inl h)
        have hAny :
            (vfsNodes images)[((s.states d).fd
              slot).nodeIndex]?.any vfsIsSessionStorageNode = true := by
          by_contra hNot
          exact hWhy (Or.inr (Bool.eq_false_iff.mpr hNot))
        have hSession := hIff.mp hAny
        have hOffset := hCons.offset d slot hUsed hSession
        have hSize := hCons.size
        have hSpec :
            ¬ (decide (((s.states d).fd slot).flags &&& vfsOpenWrite ≠ 0) = false ∨
                ((s.states d).fd slot).nodeIndex ≠ sessionNode) := by
          rintro (hRead | hOther)
          · exact hFlags (by simpa using hRead)
          · exact hOther hSession
        rw [vfsWrite_eq buffer size.toNat hSlot hFlags hAny,
          if_neg hSpec, List.length_map, List.length_range]
        generalize hCount : min size.toNat (256 - ((s.states d).fd slot).offset) = n
        have hLength : (s.session.written buffer ((s.states d).fd slot).offset n).size =
              max s.session.size (((s.states d).fd slot).offset + n) := by
          unfold SessionStorage.written
          dsimp only
          split
          · omega
          · rfl
        refine ⟨rfl, ?_, ?_⟩
        · dsimp only
          rw [byteFile_advance s _ hUsed, hLength]
          congr 1
          exact congrArg (ByteFile.mk · s.byteFile.descriptors)
            (store_overwrites s.session.bytes buffer hOffset n)
        · refine hCons.set ?_ ?_ (fun _ => hBound) ?_
          · rw [hLength]
            omega
          · rw [hLength]
            omega
          · intro _ _
            dsimp only
            rw [hLength]
            omega

theorem closeFile_simulates (images : VfsImages) (hCons : s.Consistent) (d : Nat) (fd : UInt64) :
    Agrees (s.step images (.closeFile d fd)) (s.byteFile.step images (.closeFile d fd)) := by
  dsimp only [VfsSystem.step, ByteFile.step]
  unfold ByteFile.closeFile
  cases hSlot : (s.states d).openSlot fd.toNat with
  | none =>
    rw [vfsClose_bad hSlot, find_of_none hSlot]
    exact agrees_same hCons d vfsRetEbadf
  | some slot =>
    rw [vfsClose_eq hSlot, find_of_openSlot hSlot]
    exact ⟨rfl, byteFile_set s s.session d slot freeSlot,
      hCons.set hCons.size (Nat.le_refl _) (fun hUsed => absurd hUsed nofun)
        (fun hUsed => absurd hUsed nofun)⟩

----------
-- Other Descriptors

/-
  The slots a call leaves alone: all but the one its descriptor names, for an open all that are in
  use.
-/
def VfsCall.Spares (s : VfsSystem) (d : Nat) (slot : Fin 4) : VfsCall → Prop
| .init d' => d ≠ d'
| .openFile d' _ _ _ => d ≠ d' ∨ ((s.states d).fd slot).used = true
| .readFile d' fd _ _ => d ≠ d' ∨ vfsFdSlot fd.toNat ≠ some slot
| .writeFile d' fd _ _ => d ≠ d' ∨ vfsFdSlot fd.toNat ≠ some slot
| .closeFile d' fd => d ≠ d' ∨ vfsFdSlot fd.toNat ≠ some slot

theorem setState_other (s : VfsSystem) {d' : Nat} (hd : d ≠ d') (state : VfsState) :
    (s.setState d' state).states d = s.states d :=
  Function.update_of_ne hd _ _

theorem setState_self (s : VfsSystem) (d : Nat) (state : VfsState) :
    (s.setState d state).states d = state :=
  Function.update_self _ _ _

theorem set_other (state : VfsState) {slot' : Fin 4} (hSlot : slot ≠ slot') (entry : FdSlot) :
    (state.set slot' entry).fd slot = state.fd slot :=
  Function.update_of_ne hSlot _ _

/- The slots of the state an operation returns for the slots `state` it was given. -/
theorem openFile_spares (images : VfsImages) (path : Option ByteBuffer) (scratch : ByteBuffer)
    (flags : Nat) (session : SessionStorage) {state : VfsState}
    (hUsed : (state.fd slot).used = true) :
    (vfsOpen images path scratch flags session state).2.2.fd slot = state.fd slot := by
  cases hOpen : vfsOpenNode images path scratch flags with
  | error code => rw [vfsOpen_error hOpen]
  | ok node =>
    cases hFree : firstFreeSlot state with
    | none => rw [vfsOpen_full hOpen session hFree]
    | some free =>
      rw [vfsOpen_slot hOpen session hFree]
      have hNot := List.find?_some hFree
      refine set_other state ?_ _
      intro hSame
      rw [← hSame, hUsed] at hNot
      exact absurd hNot nofun

theorem readFile_spares (images : VfsImages) (fd : Nat) (buffer : Bool) (size : Nat)
    (session : SessionStorage) (state : VfsState) (hOther : vfsFdSlot fd ≠ some slot) :
    (vfsRead images fd buffer size session state).2.fd slot = state.fd slot := by
  cases buffer with
  | false => rfl
  | true =>
    cases hSlot : state.openSlot fd with
    | none => rw [vfsRead_bad hSlot]
    | some own =>
      have hNe : slot ≠ own := fun hSame =>
        hOther (hSame ▸ (openSlot_eq_some hSlot).1)
      cases hNode : (vfsNodes images)[(state.fd own).nodeIndex]? with
      | none =>
        unfold vfsRead
        rw [if_neg (show ¬ true = false from nofun), hSlot]
        dsimp only
        rw [hNode]
      | some node =>
        rw [vfsRead_eq size hSlot hNode]
        exact set_other state hNe _

theorem writeFile_spares (images : VfsImages) (fd : Nat) (buffer : Option ByteBuffer) (size : Nat)
    (session : SessionStorage) (state : VfsState) (hOther : vfsFdSlot fd ≠ some slot) :
    (vfsWrite images fd buffer size session state).2.2.fd slot = state.fd slot := by
  cases buffer with
  | none => rfl
  | some buffer =>
    cases hSlot : state.openSlot fd with
    | none => rw [vfsWrite_bad hSlot]
    | some own =>
      have hNe : slot ≠ own := fun hSame =>
        hOther (hSame ▸ (openSlot_eq_some hSlot).1)
      by_cases hFlags : (state.fd own).flags &&& vfsOpenWrite = 0
      · rw [vfsWrite_refused hSlot (Or.inl hFlags)]
      cases hAny : (vfsNodes images)[(state.fd own).nodeIndex]?.any vfsIsSessionStorageNode with
      | false => rw [vfsWrite_refused hSlot (Or.inr hAny)]
      | true =>
        rw [vfsWrite_eq buffer size hSlot hFlags hAny]
        exact set_other state hNe _

theorem closeFile_spares (fd : Nat) (state : VfsState) (hOther : vfsFdSlot fd ≠ some slot) :
    (vfsClose fd state).2.fd slot = state.fd slot := by
  cases hSlot : state.openSlot fd with
  | none => rw [vfsClose_bad hSlot]
  | some own =>
    have hNe : slot ≠ own := fun hSame =>
      hOther (hSame ▸ (openSlot_eq_some hSlot).1)
    rw [vfsClose_eq hSlot]
    exact set_other state hNe _

theorem step_spares (images : VfsImages) (s : VfsSystem) (c : VfsCall)
    (hSpared : c.Spares s d slot) :
    ((s.step images c).2.states d).fd slot = (s.states d).fd slot := by
  cases c with
  | init d' => exact congrArg (VfsState.fd · slot) (setState_other s hSpared _)
  | openFile d' path scratch flags =>
    dsimp only [VfsSystem.step]
    by_cases hd : d = d'
    · subst hd
      rw [setState_self]
      exact openFile_spares images path scratch flags.toNat
        s.session (hSpared.resolve_left (not_not.mpr rfl))
    · exact congrArg (VfsState.fd · slot) (setState_other _ hd _)
  | readFile d' fd buffer size =>
    dsimp only [VfsSystem.step]
    by_cases hd : d = d'
    · subst hd
      rw [setState_self]
      exact readFile_spares images fd.toNat buffer size.toNat s.session (s.states d)
        (hSpared.resolve_left (not_not.mpr rfl))
    · exact congrArg (VfsState.fd · slot) (setState_other _ hd _)
  | writeFile d' fd buffer size =>
    dsimp only [VfsSystem.step]
    by_cases hd : d = d'
    · subst hd
      rw [setState_self]
      exact writeFile_spares images fd.toNat buffer size.toNat s.session (s.states d)
        (hSpared.resolve_left (not_not.mpr rfl))
    · exact congrArg (VfsState.fd · slot) (setState_other _ hd _)
  | closeFile d' fd =>
    dsimp only [VfsSystem.step]
    by_cases hd : d = d'
    · subst hd
      rw [setState_self]
      exact closeFile_spares fd.toNat (s.states d) (hSpared.resolve_left (not_not.mpr rfl))
    · exact congrArg (VfsState.fd · slot) (setState_other _ hd _)

----------
-- Runs

/- The calls of a run in which nothing is truncated. -/
abbrev SessionCall : Type := { c : VfsCall // c.NoTruncate }

theorem step_agrees (images : VfsImages) (hCons : s.Consistent) (c : SessionCall) :
    Agrees (s.step images c.val) (s.byteFile.step images c.val) := by
  obtain ⟨c, hKeep⟩ := c
  cases c with
  | init d => exact init_simulates images hCons d
  | openFile d path scratch flags => exact openFile_simulates images hCons d path scratch hKeep
  | readFile d fd buffer size => exact readFile_simulates images hCons d fd buffer size
  | writeFile d fd buffer size => exact writeFile_simulates images hCons d fd buffer size
  | closeFile d fd => exact closeFile_simulates images hCons d fd

theorem session_simulates (images : VfsImages) : Calls.Simulates
      (fun (s : VfsSystem) (c : SessionCall) =>
        s.step images c.val)
      (fun (t : ByteFile) (c : SessionCall) =>
        t.step images c.val)
      (fun s t => s.byteFile = t ∧ s.Consistent) := by
  rintro s t c ⟨rfl, hCons⟩
  exact step_agrees images hCons c

/-
  Every run without truncation answers as the byte string with its descriptors does and ends in a
  state that stands for it; the bounds hold there, and no further call touches the slot of another
  descriptor.
-/
theorem session_refines_byteFile (images : VfsImages) {s : VfsSystem} (hStart : s.Consistent)
    (calls : List SessionCall) :
    (Calls.run (fun s (c : SessionCall) => s.step images c.val) s calls).1 =
        (Calls.run
          (fun t (c : SessionCall) =>
            ByteFile.step images t c.val) s.byteFile calls).1 ∧
      (Calls.run (fun s (c : SessionCall) => s.step images c.val) s calls).2.byteFile =
        (Calls.run
          (fun t (c : SessionCall) =>
            ByteFile.step images t c.val) s.byteFile calls).2 ∧
      (Calls.run (fun s (c : SessionCall) => s.step images c.val) s calls).2.Consistent ∧
      ∀ (c : VfsCall) (d : Nat) (slot : Fin 4),
        c.Spares (Calls.run (fun s (c : SessionCall) => s.step images c.val) s calls).2 d slot →
          (((Calls.run (fun s (c : SessionCall) => s.step images c.val)
              s calls).2.step images c).2.states d).fd slot =
            ((Calls.run (fun s (c : SessionCall) => s.step images c.val)
              s calls).2.states d).fd slot := by
  obtain ⟨hReplies, hView, hCons⟩ := (session_simulates images).run ⟨rfl, hStart⟩ calls
  exact ⟨hReplies, hView, hCons, fun c d slot hSpared => step_spares images _ c hSpared⟩

/- A session file of three bytes, with no open descriptor. -/
def threeBytes : VfsSystem where
  session := ⟨cString [97, 98, 99], 3⟩
  states := fun _ => vfsInit

def noImages : VfsImages where
  datatest := []
  eventd := []
  hello := []
  inputd := []
  storaged := []
  sysinfo := []
  timed := []
  windowd := []
  windowdService := []

/- Open the session file for reading and read two bytes. -/
def openAndRead : List SessionCall :=
  [⟨.openFile 0 (some (cString (textBytes "/tmp/session.txt"))) (fun _ => 0) 0, rfl⟩,
    ⟨.readFile 0 3 true 2, trivial⟩]

theorem session_refines_byteFile_threeBytes : threeBytes.Consistent ∧
      (Calls.run (fun s (c : SessionCall) => s.step noImages c.val) threeBytes openAndRead).1 =
        (Calls.run
          (fun t (c : SessionCall) =>
            ByteFile.step noImages t c.val) threeBytes.byteFile
          openAndRead).1 :=
  ⟨consistent_init (by decide),
    (session_refines_byteFile noImages (consistent_init (by decide)) openAndRead).1⟩

example : (Calls.run (fun s (c : SessionCall) => s.step noImages c.val) threeBytes openAndRead).1 =
      [⟨3, []⟩, ⟨2, [97, 98]⟩] := by
  decide +kernel

end LiamOS.X64
