import LiamOS.I386.Process.Model

/-
  The read-only file system of the i386 kernel, `core/kernel/fs/vfs.c`: a tree of nodes, lookup by
  absolute path, reads at an offset and the records `stat` returns.

  Paths and names are the bytes in front of the terminating zero. The counters and texts kept for
  the shell are left out.

  Key definitions: `VfsNode`, `Vfs`, `vfsFindChild`, `vfsLookup`, `vfsReadNode`, `vfsStatPath`,
  `OpenFile`.
-/

namespace LiamOS.I386

open Word

----------
-- Nodes

inductive VfsNodeType
| directory
| file
| device
deriving DecidableEq, Repr

def VfsNodeType.code : VfsNodeType → Nat
| .directory => 1
| .file => 2
| .device => 3

/- `vfs_node_t`, with the fields its functions read. -/
structure VfsNode where
  name : Option (List UInt8)
  type : VfsNodeType
  data : Option (List UInt8)
  size : Nat
  mode : Nat
  flags : Nat
  children : List (Option VfsNode)

structure Vfs where
  initialized : Bool
  root : Option VfsNode

def vfsReadChunkMax : Nat := 512

def vfsPathMax : Nat := 128

----------
-- Lookup

def vfsFindChild (directory : VfsNode) (name : List UInt8) : Except KernelStatus VfsNode :=
  if directory.type ≠ .directory then
    .error .invalidState
  else
    match directory.children.findSome? fun child =>
        child.filter fun node => node.name = some name with
    | some child => .ok child
    | none => .error .notFound

def slash : UInt8 := 0x2F

/-
  The loop of `vfs_lookup` over what is left of the path. Each turn takes one component, so the
  length of the path is enough turns.
-/
def vfsWalk : Nat → VfsNode → List UInt8 → Except KernelStatus VfsNode
| 0, current, _ => .ok current
| turns + 1, current, path =>
    let rest := path.dropWhile (· == slash)
    if rest = [] then
      .ok current
    else
      let name := rest.takeWhile (· != slash)
      match vfsFindChild current name with
      | .error status => .error status
      | .ok next => vfsWalk turns next (rest.dropWhile (· != slash))

def vfsLookup (vfs : Vfs) (path : List UInt8) : Except KernelStatus VfsNode :=
  if !vfs.initialized then
    .error .notInitialized
  else
    match vfs.root with
    | none => .error .notInitialized
    | some root =>
      if path.head? ≠ some slash then
        .error .invalidArgument
      else if path = [slash] then .ok root else vfsWalk path.length root path.tail

----------
-- Reading

def vfsReadNode (vfs : Vfs) (node : VfsNode) (offset length : Nat) :
    Except KernelStatus (List UInt8) :=
  if !vfs.initialized then
    .error .notInitialized
  else if node.type ≠ .file then
    .error .invalidState
  else
    match node.data with
    | none => .ok []
    | some data =>
      if node.size ≤ offset ∨ length = 0 then
        .ok []
      else
        let available := node.size - offset
        let bytesToRead := if available < length then available else length
        let bytesToRead := if vfsReadChunkMax < bytesToRead then vfsReadChunkMax else bytesToRead
        .ok ((List.range bytesToRead).map fun i =>
          data.getD (offset + i) 0)

/- No read returns more than was asked for. -/
theorem vfsReadNode_length {vfs : Vfs} {node : VfsNode} {offset length : Nat} {bytes : List UInt8}
    (hRead : vfsReadNode vfs node offset length = .ok bytes) :
    bytes.length ≤ length ∧ bytes.length ≤ vfsReadChunkMax := by
  unfold vfsReadNode at hRead
  by_cases hInit : (!vfs.initialized) = true
  · rw [if_pos hInit] at hRead
    exact absurd hRead nofun
  rw [if_neg hInit] at hRead
  by_cases hType : node.type ≠ .file
  · rw [if_pos hType] at hRead
    exact absurd hRead nofun
  rw [if_neg hType] at hRead
  cases hData : node.data with
  | none =>
    rw [hData] at hRead
    cases hRead
    exact ⟨Nat.zero_le _, Nat.zero_le _⟩
  | some data =>
    rw [hData] at hRead
    dsimp only at hRead
    by_cases hNone : node.size ≤ offset ∨ length = 0
    · rw [if_pos hNone] at hRead
      cases hRead
      exact ⟨Nat.zero_le _, Nat.zero_le _⟩
    · rw [if_neg hNone] at hRead
      cases hRead
      rw [List.length_map, List.length_range]
      unfold vfsReadChunkMax
      split
      · split at *
        · omega
        · omega
      · split at *
        · omega
        · omega

----------
-- Records of `stat`

structure VfsStat where
  type : Nat
  size : Nat
  mode : Nat
  flags : Nat
  childCount : Nat
deriving DecidableEq, Repr

def vfsStatNode (node : VfsNode) : VfsStat where
  type := node.type.code
  size := node.size
  mode := node.mode
  flags := node.flags
  childCount := node.children.length

def vfsStatPath (vfs : Vfs) (path : List UInt8) : Except KernelStatus VfsStat :=
  (vfsLookup vfs path).map vfsStatNode

/- A 32-bit word in memory, the lowest byte first. -/
def wordBytes (word : Nat) : List UInt8 :=
  [UInt8.ofNat word, UInt8.ofNat (word / 256),
    UInt8.ofNat (word / 65536), UInt8.ofNat (word / 16777216)]

/- `vfs_stat_t` in memory. -/
def VfsStat.bytes (stat : VfsStat) : List UInt8 :=
  wordBytes stat.type ++ wordBytes stat.size ++ wordBytes stat.mode ++ wordBytes stat.flags ++
    wordBytes stat.childCount

theorem VfsStat.bytes_length (stat : VfsStat) : stat.bytes.length = 20 := rfl

----------
-- Open Files

/- `process_file_t`. -/
structure OpenFile where
  used : Bool
  node : Option VfsNode
  offset : Nat
  flags : Nat

def closedFile : OpenFile where
  used := false
  node := none
  offset := 0
  flags := 0

def fdFirstProcessFile : Nat := 3

end LiamOS.I386
