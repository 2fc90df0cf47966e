import LiamOS.Lib.Calls
import LiamOS.Lib.Word
import LiamOS.X64.Vfs.Path

/-
  Files and descriptors of the x86_64 virtual file system, `kernel/arch/x86_64/vfs.c`: the node
  table, the descriptor slots of a dispatcher and the session file, the one file that can be
  written.

  The session file's bytes and length are global; every dispatcher has slots of its own. The
  embedded program images are a parameter.

  Key definitions: `VfsNode`, `vfsNodes`, `FdSlot`, `VfsState`, `SessionStorage`, `vfsOpen`,
  `vfsRead`, `vfsWrite`, `vfsClose`, `vfsStat`, `vfsResolve`, `VfsSystem`, `VfsCall`,
  `VfsSystem.step`.
-/

namespace LiamOS.X64

open Word

variable {fd flags i size : Nat} {scratch : ByteBuffer} {images : VfsImages} {state : VfsState}
variable {slot : Fin 4} {session : SessionStorage}
variable {path : Option ByteBuffer} {node : Nat} {buffer : ByteBuffer}

----------
-- Nodes

/- What kind of node an entry of the table is. -/
inductive VfsNodeType
| file
| directory
| executable
deriving DecidableEq, Repr

/- The program images linked into the kernel. -/
structure VfsImages where
  datatest : List UInt8
  eventd : List UInt8
  hello : List UInt8
  inputd : List UInt8
  storaged : List UInt8
  sysinfo : List UInt8
  timed : List UInt8
  windowd : List UInt8
  windowdService : List UInt8

/- `x86_64_vfs_node`; without data it is the session file. -/
structure VfsNode where
  path : List UInt8
  data : Option (List UInt8)
  type : VfsNodeType

def textNode (path : String) (type : VfsNodeType) (text : String) : VfsNode where
  path := textBytes path
  data := some (textBytes text)
  type := type

def imageNode (path : String) (image : List UInt8) : VfsNode where
  path := textBytes path
  data := some image
  type := .executable

def vfsNodes (images : VfsImages) : List VfsNode :=
  [ textNode "/" .directory "bin\netc\nproc\nsbin\ntmp\nusr\n", textNode "/bin" .directory
      "datatest\neventd\nhello\ninputd\nstoraged\nsysinfo\ntimed\nwindowd\nwindowd-service\n",
    textNode "/etc" .directory "motd\nos-release\n",
    textNode "/proc" .directory "version\n",
    textNode "/sbin" .directory "",
    textNode "/tmp" .directory "session.txt\n",
    textNode "/usr" .directory "share\n",
    textNode "/usr/share" .directory "files.txt\nhelp.txt\n",
    imageNode "/bin/datatest" images.datatest,
    imageNode "/bin/eventd" images.eventd,
    imageNode "/bin/hello" images.hello,
    imageNode "/bin/inputd" images.inputd,
    imageNode "/bin/storaged" images.storaged,
    imageNode "/bin/sysinfo" images.sysinfo,
    imageNode "/bin/timed" images.timed,
    imageNode "/bin/windowd" images.windowd,
    imageNode "/bin/windowd-service" images.windowdService,
    textNode "/etc/motd" .file "Liam_OS x86_64 read-only VFS mounted.\n",
    textNode "/etc/os-release" .file "NAME=Liam_OS\nARCH=x86_64\nBUILD=dev\n",
    textNode "/proc/version" .file "Liam_OS Core x86_64 0.8.69-dev\n",
    { path := textBytes "/tmp/session.txt"
      data := none
      type := .file },
    textNode "/usr/share/files.txt" .file
      "/\n/bin\n/bin/datatest\n/bin/eventd\n/bin/hello\n/bin/inputd\n/bin/storaged\n/bin/sysinfo\n/bin/timed\n/bin/windowd\n/bin/windowd-service\n/etc\n/etc/motd\n/etc/os-release\n/proc\n/proc/version\n/sbin\n/tmp\n/tmp/session.txt\n/usr\n/usr/share\n/usr/share/files.txt\n/usr/share/help.txt\n",
    textNode "/usr/share/help.txt" .file
      "Available commands:\nhelp, about, version, pid, ps, deskcheck, wait, echo, ls, cat, stat, exec, clear, exit\nExecutable files:\n/bin/datatest\n/bin/eventd\n/bin/hello\n/bin/inputd\n/bin/storaged\n/bin/sysinfo\n/bin/timed\n/bin/windowd\n/bin/windowd-service\n" ]

def vfsNodeCount : Nat := 23

def vfsNoNode : Nat := 0xFFFFFFFF

----------
-- State

def vfsMaxOpenFiles : Nat := 4

def vfsFdBase : Nat := 3

def vfsRamFileBytes : Nat := 256

def vfsOpenRead : Nat := 0

def vfsOpenWrite : Nat := 1

def vfsOpenCreate : Nat := 2

def vfsOpenTruncate : Nat := 4

def vfsRetOk : Nat := 0

def vfsRetEinval : Nat := 0xFFFFFFFFFFFFFFEA

def vfsRetEnoent : Nat := 0xFFFFFFFFFFFFFFFE

def vfsRetEbadf : Nat := 0xFFFFFFFFFFFFFFF7

/- One descriptor of a dispatcher. -/
structure FdSlot where
  used : Bool
  flags : Nat
  nodeIndex : Nat
  offset : Nat
deriving DecidableEq, Repr

def freeSlot : FdSlot where
  used := false
  flags := vfsOpenRead
  nodeIndex := vfsNoNode
  offset := 0

structure VfsState where
  initialized : Bool
  fd : Fin 4 → FdSlot

def VfsState.set (state : VfsState) (slot : Fin 4) (entry : FdSlot) : VfsState :=
  { state with fd := Function.update state.fd slot entry }

def vfsInit : VfsState where
  initialized := true
  fd := fun _ => freeSlot

/- `x86_64_vfs_session_storage` and its size. -/
structure SessionStorage where
  bytes : ByteBuffer
  size : Nat

def vfsIsSessionStorageNode (node : VfsNode) : Bool := node.data.isNone && node.type == .file

def vfsNodeSize (session : SessionStorage) (node : VfsNode) : Nat :=
  if vfsIsSessionStorageNode node then session.size else (node.data.getD []).length

def vfsNodeData (session : SessionStorage) (node : VfsNode) : ByteBuffer :=
  if vfsIsSessionStorageNode node then session.bytes else fun i => (node.data.getD []).getD i 0

def vfsFdSlot (fd : Nat) : Option (Fin 4) := if fd < vfsFdBase then
    none
  else if hSlot : fd - vfsFdBase < 4 then some ⟨fd - vfsFdBase, hSlot⟩ else none

/- The slot of a descriptor that is open. -/
def VfsState.openSlot (state : VfsState) (fd : Nat) : Option (Fin 4) :=
  (vfsFdSlot fd).filter fun slot => (state.fd slot).used

/- The value a call returns and the bytes it stores. -/
structure VfsReply where
  value : Nat
  bytes : List UInt8
deriving DecidableEq, Repr

def VfsReply.code (value : Nat) : VfsReply := ⟨value, []⟩

----------
-- Operations

def firstFreeSlot (state : VfsState) : Option (Fin 4) :=
  (List.finRange 4).find? fun slot => !(state.fd slot).used

/-
  The checks of `x86_64_vfs_open`: the node to open or the code to return. A missing path is a
  null pointer.
-/
def vfsOpenNode (images : VfsImages) (path : Option ByteBuffer) (scratch : ByteBuffer)
    (flags : Nat) : Except Nat Nat :=
  match path with
  | none => .error vfsRetEinval
  | some path =>
    match (vfsFindNode path scratch).join with
    | none => .error vfsRetEnoent
    | some nodeIndex =>
      let supportedFlags := vfsOpenWrite ||| vfsOpenCreate ||| vfsOpenTruncate
      if flags &&& not64 supportedFlags ≠ 0 then
        .error vfsRetEinval
      else if flags ≠ vfsOpenRead ∧
          ((vfsNodes images)[nodeIndex]?.any vfsIsSessionStorageNode) = false then
        .error vfsRetEinval
      else
        .ok nodeIndex

/- The file is truncated before a slot is looked for. -/
def vfsOpen (images : VfsImages) (path : Option ByteBuffer) (scratch : ByteBuffer) (flags : Nat)
    (session : SessionStorage) (state : VfsState) :
    VfsReply × SessionStorage × VfsState :=
  match vfsOpenNode images path scratch flags with
  | .error code => (.code code, session, state)
  | .ok nodeIndex =>
    let session := if flags &&& vfsOpenTruncate ≠ 0 then { session with size := 0 } else session
    match firstFreeSlot state with
    | none => (.code vfsRetEinval, session, state)
    | some slot =>
      (.code (vfsFdBase + slot.val), session, state.set slot
          { used := true
            flags := flags
            nodeIndex := nodeIndex
            offset := 0 })

/- `x86_64_vfs_read`; `buffer` tells a buffer from a null. -/
def vfsRead (images : VfsImages) (fd : Nat) (buffer : Bool) (size : Nat) (session : SessionStorage)
    (state : VfsState) : VfsReply × VfsState :=
  if buffer = false then
    (.code vfsRetEinval, state)
  else
    match state.openSlot fd with
    | none => (.code vfsRetEbadf, state)
    | some slot =>
      match (vfsNodes images)[(state.fd slot).nodeIndex]? with
      | none => (.code vfsRetEbadf, state)
      | some node =>
        let nodeData := vfsNodeData session node
        let nodeSize := vfsNodeSize session node
        let offset := (state.fd slot).offset
        if nodeSize ≤ offset ∨ size = 0 then
          (.code 0, state)
        else
          let remaining := nodeSize - offset
          let bytes := if size < remaining then size else remaining
          (⟨bytes, (List.range bytes).map fun i =>
                nodeData (offset + i)⟩,
            state.set slot { state.fd slot with offset := offset + bytes })

/- The loop of `x86_64_vfs_write`, up to an index. -/
def sessionStore (buffer : ByteBuffer) (offset : Nat) : Nat → ByteBuffer → ByteBuffer
| 0, storage => storage
| i + 1, storage => Function.update (sessionStore buffer offset i storage) (offset + i) (buffer i)

def vfsWrite (images : VfsImages) (fd : Nat) (buffer : Option ByteBuffer) (size : Nat)
    (session : SessionStorage) (state : VfsState) :
    VfsReply × SessionStorage × VfsState :=
  match buffer with
  | none => (.code vfsRetEinval, session, state)
  | some buffer =>
    match state.openSlot fd with
    | none => (.code vfsRetEbadf, session, state)
    | some slot =>
      if (state.fd slot).flags &&& vfsOpenWrite = 0 then
        (.code vfsRetEbadf, session, state)
      else if ((vfsNodes images)[(state.fd
          slot).nodeIndex]?.any vfsIsSessionStorageNode) = false then
        (.code vfsRetEbadf, session, state)
      else
        let offset := (state.fd slot).offset
        if vfsRamFileBytes ≤ offset ∨ size = 0 then
          (.code 0, session, state)
        else
          let remaining := vfsRamFileBytes - offset
          let bytes := if size < remaining then size else remaining
          (.code bytes,
            { bytes :=
                sessionStore buffer offset bytes session.bytes
              size := if session.size < offset + bytes then offset + bytes else session.size },
            state.set slot { state.fd slot with offset := offset + bytes })

def vfsClose (fd : Nat) (state : VfsState) : VfsReply × VfsState :=
  match state.openSlot fd with
  | none => (.code vfsRetEbadf, state)
  | some slot => (.code vfsRetOk, state.set slot freeSlot)

def vfsOpenCount (state : VfsState) : Nat :=
  (List.finRange 4).countP fun slot => (state.fd slot).used

/- The node of a path, or the code to return. -/
def vfsLookup (images : VfsImages) (path scratch : ByteBuffer) : Except Nat VfsNode :=
  match (vfsFindNode path scratch).join with
  | none => .error vfsRetEnoent
  | some nodeIndex =>
    match (vfsNodes images)[nodeIndex]? with
    | none => .error vfsRetEnoent
    | some node => .ok node

/- `x86_64_vfs_stat`; the size is stored as eight bytes. -/
def vfsStat (images : VfsImages) (path scratch : ByteBuffer)
    (session : SessionStorage) : VfsReply :=
  match vfsLookup images path scratch with
  | .error code => .code code
  | .ok node => ⟨vfsRetOk, bytesLE (vfsNodeSize session node) 8⟩

/- The data, size and type `x86_64_vfs_resolve` hands out. -/
structure VfsResolved where
  data : ByteBuffer
  size : Nat
  type : VfsNodeType

def vfsResolve (images : VfsImages) (path scratch : ByteBuffer) (session : SessionStorage)
    (state : VfsState) : Except Nat VfsResolved :=
  if state.initialized = false then
    .error vfsRetEinval
  else
    match vfsLookup images path scratch with
    | .error code => .error code
    | .ok node =>
      .ok
        { data := vfsNodeData session node
          size := vfsNodeSize session node
          type := node.type }

----------
-- All Dispatchers

/- The session file with the descriptors of all dispatchers. -/
structure VfsSystem where
  session : SessionStorage
  states : Nat → VfsState

inductive VfsCall
| init (dispatcher : Nat)
| openFile
    (dispatcher : Nat)
    (path : Option ByteBuffer)
    (scratch : ByteBuffer)
    (flags : UInt64)
| readFile
    (dispatcher : Nat)
    (fd : UInt64)
    (buffer : Bool)
    (size : UInt64)
| writeFile
    (dispatcher : Nat)
    (fd : UInt64)
    (buffer : Option ByteBuffer)
    (size : UInt64)
| closeFile
    (dispatcher : Nat)
    (fd : UInt64)

def VfsSystem.setState (s : VfsSystem) (dispatcher : Nat) (state : VfsState) : VfsSystem :=
  { s with states := Function.update s.states dispatcher state }

def VfsSystem.step (images : VfsImages) (s : VfsSystem) : VfsCall → VfsReply × VfsSystem
| .init d => (.code vfsRetOk, s.setState d vfsInit)
| .openFile d path scratch flags =>
    let (reply, session, state) := vfsOpen images path scratch flags.toNat s.session (s.states d)
    (reply, { s with session := session }.setState d state)
| .readFile d fd buffer size =>
    let (reply, state) := vfsRead images fd.toNat buffer size.toNat s.session (s.states d)
    (reply, s.setState d state)
| .writeFile d fd buffer size =>
    let (reply, session, state) := vfsWrite images fd.toNat buffer size.toNat s.session (s.states d)
    (reply, { s with session := session }.setState d state)
| .closeFile d fd =>
    let (reply, state) := vfsClose fd.toNat (s.states d)
    (reply, s.setState d state)

----------
-- The Node Table

/- The session file's place in the table. -/
def sessionNode : Nat := 20

theorem vfsNodes_length (images : VfsImages) : (vfsNodes images).length = vfsNodeCount := rfl

theorem findNodeLoop_lt {normalized : ByteBuffer} {paths : List (List UInt8)} {first : Nat}
    (hFind : findNodeLoop normalized first paths = some i) :
    i < first + paths.length := by
  induction paths generalizing first with
  | nil => exact absurd hFind nofun
  | cons path paths ih =>
    rw [List.length_cons]
    unfold findNodeLoop at hFind
    split at hFind
    · cases hFind
      omega
    · have hLater := ih hFind
      omega

theorem vfsFindNode_lt {path : ByteBuffer} (hFind : (vfsFindNode path scratch).join = some i) :
    i < vfsNodeCount := by
  unfold vfsFindNode at hFind
  cases hNormal : vfsNormalizePath path scratch with
  | none =>
    rw [hNormal] at hFind
    exact absurd hFind nofun
  | some result =>
    rw [hNormal] at hFind
    cases result with
    | none => exact absurd hFind nofun
    | some normalized =>
      have hLt := findNodeLoop_lt hFind
      rw [Nat.zero_add] at hLt
      exact hLt

theorem vfsNodes_session (images : VfsImages) : (vfsNodes images).map vfsIsSessionStorageNode =
      List.replicate 20 false ++ [true, false, false] := rfl

/- Only the session file has no data of its own. -/
theorem sessionNode_iff (images : VfsImages) (hi : i < vfsNodeCount) :
    (vfsNodes images)[i]?.any vfsIsSessionStorageNode = true ↔ i = sessionNode := by
  have hAny : (vfsNodes images)[i]?.any vfsIsSessionStorageNode = true ↔
        ((vfsNodes images).map vfsIsSessionStorageNode)[i]? = some true := by
    rw [List.getElem?_map]
    cases (vfsNodes images)[i]? with
    | none => exact ⟨nofun, nofun⟩
    | some node => simp
  rw [hAny, vfsNodes_session]
  have hTable :
      ∀ k : Fin 23, (List.replicate 20 false ++ [true, false, false])[k.val]? = some true ↔
          k.val = sessionNode := by
    decide
  exact hTable ⟨i, hi⟩

/- What is opened is a node, and other than for reading it is
  the session file. -/
theorem vfsOpenNode_ok (hOpen : vfsOpenNode images path scratch flags = .ok node) :
    node < vfsNodeCount ∧ (flags ≠ vfsOpenRead → node = sessionNode) := by
  unfold vfsOpenNode at hOpen
  cases path with
  | none => exact absurd hOpen nofun
  | some path =>
    dsimp only at hOpen
    cases hFind : (vfsFindNode path scratch).join with
    | none =>
      rw [hFind] at hOpen
      exact absurd hOpen nofun
    | some nodeIndex =>
      rw [hFind] at hOpen
      dsimp only at hOpen
      have hLt := vfsFindNode_lt hFind
      by_cases hFlags : flags &&& not64 (vfsOpenWrite ||| vfsOpenCreate ||| vfsOpenTruncate) ≠ 0
      · rw [if_pos hFlags] at hOpen
        exact absurd hOpen nofun
      rw [if_neg hFlags] at hOpen
      by_cases hOther : flags ≠ vfsOpenRead ∧
            (vfsNodes images)[nodeIndex]?.any vfsIsSessionStorageNode = false
      · rw [if_pos hOther] at hOpen
        exact absurd hOpen nofun
      rw [if_neg hOther] at hOpen
      cases hOpen
      refine ⟨hLt, fun hWrites => ?_⟩
      refine (sessionNode_iff images hLt).mp ?_
      by_contra hNot
      exact hOther ⟨hWrites, Bool.eq_false_iff.mpr hNot⟩

----------
-- Stored Bytes

theorem sessionStore_apply (buffer storage : ByteBuffer) (offset n i : Nat) :
    sessionStore buffer offset n storage i = if offset ≤ i ∧ i < offset + n then
        buffer (i - offset)
      else
        storage i := by
  induction n with
  | zero => rw [if_neg (by omega)]; rfl
  | succ n ih =>
    unfold sessionStore
    by_cases hLast : i = offset + n
    · rw [hLast, Function.update_self, if_pos (by omega), Nat.add_sub_cancel_left]
    · rw [Function.update_of_ne hLast, ih]
      by_cases hIn : offset ≤ i ∧ i < offset + n
      · rw [if_pos hIn, if_pos (by omega)]
      · rw [if_neg hIn, if_neg (by omega)]

----------
-- What the Operations Do

theorem openSlot_eq_some (hSlot : state.openSlot fd = some slot) :
    vfsFdSlot fd = some slot ∧ (state.fd slot).used = true := by
  unfold VfsState.openSlot at hSlot
  exact Option.filter_eq_some_iff.mp hSlot

/- Storing an entry that is already there. -/
theorem set_entry_self (state : VfsState) (slot : Fin 4) :
    state.set slot (state.fd slot) = state := by
  unfold VfsState.set
  rw [Function.update_eq_self]

theorem vfsOpen_error {code : Nat} (hOpen : vfsOpenNode images path scratch flags = .error code)
    (session : SessionStorage) (state : VfsState) :
    vfsOpen images path scratch flags session state = (.code code, session, state) := by
  unfold vfsOpen
  rw [hOpen]

/- The session file as an accepted open leaves it. -/
def SessionStorage.opened (session : SessionStorage) (flags : Nat) : SessionStorage :=
  if flags &&& vfsOpenTruncate ≠ 0 then { session with size := 0 } else session

theorem vfsOpen_full (hOpen : vfsOpenNode images path scratch flags = .ok node)
    (session : SessionStorage) (hFull : firstFreeSlot state = none) :
    vfsOpen images path scratch flags session state =
      (.code vfsRetEinval, session.opened flags, state) := by
  unfold vfsOpen SessionStorage.opened
  rw [hOpen, hFull]

theorem vfsOpen_slot (hOpen : vfsOpenNode images path scratch flags = .ok node)
    (session : SessionStorage) (hSlot : firstFreeSlot state = some slot) :
    vfsOpen images path scratch flags session state =
      (.code (vfsFdBase + slot.val), session.opened flags, state.set slot
          { used := true
            flags := flags
            nodeIndex := node
            offset := 0 }) := by
  unfold vfsOpen SessionStorage.opened
  rw [hOpen, hSlot]

theorem vfsRead_bad (hSlot : state.openSlot fd = none) :
    vfsRead images fd true size session state = (.code vfsRetEbadf, state) := by
  unfold vfsRead
  rw [if_neg (show ¬ true = false from nofun), hSlot]

/- The number of bytes a read or write moves. -/
theorem count_eq_min (size remaining : Nat) :
    (if size < remaining then size else remaining) = min size remaining := by
  split
  · omega
  · omega

theorem vfsRead_eq (size : Nat) {node : VfsNode} (hSlot : state.openSlot fd = some slot)
    (hNode : (vfsNodes images)[(state.fd slot).nodeIndex]? = some node) :
    vfsRead images fd true size session state =
      (⟨min size (vfsNodeSize session node - (state.fd slot).offset),
          (List.range (min size (vfsNodeSize session node - (state.fd slot).offset))).map fun i =>
              vfsNodeData session node ((state.fd slot).offset + i)⟩, state.set slot
          { state.fd slot with
            offset := (state.fd slot).offset +
                min size (vfsNodeSize session node - (state.fd slot).offset) }) := by
  unfold vfsRead
  rw [if_neg (show ¬ true = false from nofun), hSlot]
  dsimp only
  rw [hNode]
  dsimp only
  rw [count_eq_min]
  split
  · next hNothing =>
      have hZero : min size (vfsNodeSize session node - (state.fd slot).offset) = 0 := by omega
      rw [hZero, Nat.add_zero, set_entry_self]
      rfl
  · rfl

theorem vfsWrite_bad (hSlot : state.openSlot fd = none) :
    vfsWrite images fd (some buffer) size session state = (.code vfsRetEbadf, session, state) := by
  unfold vfsWrite
  dsimp only
  rw [hSlot]

/- A descriptor of another node or one opened for reading. -/
theorem vfsWrite_refused (hSlot : state.openSlot fd = some slot)
    (hWhy : (state.fd slot).flags &&& vfsOpenWrite = 0 ∨
        (vfsNodes images)[(state.fd slot).nodeIndex]?.any vfsIsSessionStorageNode = false) :
    vfsWrite images fd (some buffer) size session state = (.code vfsRetEbadf, session, state) := by
  unfold vfsWrite
  dsimp only
  rw [hSlot]
  dsimp only
  by_cases hRead : (state.fd slot).flags &&& vfsOpenWrite = 0
  · rw [if_pos hRead]
  · rw [if_neg hRead, if_pos (hWhy.resolve_left hRead)]

/- The session file behind a write. -/
def SessionStorage.written (session : SessionStorage) (buffer : ByteBuffer)
    (offset n : Nat) : SessionStorage where
  bytes := sessionStore buffer offset n session.bytes
  size := if n = 0 then session.size else max session.size (offset + n)

theorem vfsWrite_eq (buffer : ByteBuffer) (size : Nat) (hSlot : state.openSlot fd = some slot)
    (hFlags : ¬ (state.fd slot).flags &&& vfsOpenWrite = 0)
    (hNode : (vfsNodes images)[(state.fd slot).nodeIndex]?.any vfsIsSessionStorageNode = true) :
    vfsWrite images fd (some buffer) size session state =
      (.code (min size (256 - (state.fd slot).offset)),
        session.written buffer (state.fd slot).offset (min size (256 - (state.fd slot).offset)),
        state.set slot
          { state.fd slot with
            offset := (state.fd slot).offset + min size (256 - (state.fd slot).offset) }) := by
  unfold vfsWrite SessionStorage.written vfsRamFileBytes
  dsimp only
  rw [hSlot]
  dsimp only
  rw [if_neg hFlags, if_neg (by rw [hNode]; nofun), count_eq_min]
  split
  · next hNothing =>
      have hZero : min size (256 - (state.fd slot).offset) = 0 := by omega
      rw [hZero, Nat.add_zero, set_entry_self]
      rfl
  · next hSome =>
      have hPos : ¬ min size (256 - (state.fd slot).offset) = 0 := by omega
      rw [if_neg hPos]
      congr 3
      split
      · omega
      · omega

theorem vfsClose_bad (hSlot : state.openSlot fd = none) :
    vfsClose fd state = (.code vfsRetEbadf, state) := by
  unfold vfsClose
  rw [hSlot]

theorem vfsClose_eq (hSlot : state.openSlot fd = some slot) :
    vfsClose fd state = (.code vfsRetOk, state.set slot freeSlot) := by
  unfold vfsClose
  rw [hSlot]

end LiamOS.X64
