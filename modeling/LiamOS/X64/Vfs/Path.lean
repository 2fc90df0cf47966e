import LiamOS.Lib.ByteMemory
import LiamOS.Lib.CanonicalPath

/-
  Path normalisation and node lookup of the x86_64 virtual file system,
  `kernel/arch/x86_64/vfs.c`.

  The path and the output are byte buffers; an access at index 64 or above is outside them and
  gives `none`. Loops take turns as fuel, more than their indices allow.

  Key definitions: `loadByte`, `storeByte`, `vfsNormalizePath`, `vfsPathEquals`, `vfsFindNode`,
  `vfsNodePaths`.
-/

namespace LiamOS.X64

----------
-- Buffers

def vfsPathMaxBytes : Nat := 64

def slash : UInt8 := 47

def dot : UInt8 := 46

/- A byte buffer, as the bytes from its start on. -/
abbrev ByteBuffer := Nat → UInt8

def loadByte (b : ByteBuffer) (i : Nat) : Option UInt8 :=
  if i < vfsPathMaxBytes then some (b i) else none

def storeByte (b : ByteBuffer) (i : Nat) (c : UInt8) : Option ByteBuffer :=
  if i < vfsPathMaxBytes then some (Function.update b i c) else none

/- Turns for the loops over the indices of a buffer. -/
def vfsPathTurns : Nat := 65

----------
-- Normalisation

/- `while (in < 64 && path[in] == '/') ++in;` -/
def skipSlashes (path : ByteBuffer) : Nat → Nat → Option Nat
| 0, _ => none
| turns + 1, input =>
    if input < vfsPathMaxBytes then do
      let c ← loadByte path input
      if c = slash then skipSlashes path turns (input + 1) else some input
    else
      some input

/- The loop that counts the bytes of a segment. -/
def segmentEnd (path : ByteBuffer) : Nat → Nat → Option Nat
| 0, _ => none
| turns + 1, input =>
    if input < vfsPathMaxBytes then do
      let c ← loadByte path input
      if c ≠ 0 ∧ c ≠ slash then segmentEnd path turns (input + 1) else some input
    else
      some input

/- `while (out > 1 && normalized[out - 1] != '/') --out;` -/
def popSegment (normalized : ByteBuffer) : Nat → Option Nat
| 0 => some 0
| 1 => some 1
| out + 2 => do
    let c ← loadByte normalized (out + 1)
    if c ≠ slash then popSegment normalized (out + 1) else some (out + 2)

/- Copy a number of bytes of the path to the output. -/
def copySegment (path : ByteBuffer) : Nat → Nat → Nat → ByteBuffer → Option ByteBuffer
| 0, _, _, normalized => some normalized
| n + 1, source, out, normalized => do
    let c ← loadByte path source
    let stored ← storeByte normalized out c
    copySegment path n (source + 1) (out + 1) stored

/- `segment_len == 1 && path[segment_start] == '.'` -/
def segmentIsDot (path : ByteBuffer) (start len : Nat) : Option Bool := if len = 1 then do
    let c ← loadByte path start
    some (c == dot)
  else
    some false

def segmentIsDotDot (path : ByteBuffer) (start len : Nat) : Option Bool := if len = 2 then do
    let c ← loadByte path start
    if c = dot then do
      let d ← loadByte path (start + 1)
      some (d == dot)
    else
      some false
  else
    some false

/- A double dot takes the last segment off the output. -/
def popOutput (out : Nat) (normalized : ByteBuffer) : Option (Nat × ByteBuffer) :=
  if 1 < out then do
    let popped ← popSegment normalized (out - 1)
    let stored ← storeByte normalized popped 0
    some (popped, stored)
  else
    some (out, normalized)

/- Append a segment behind a separator; the inner `none` is the return of `0` for want of room. -/
def appendOutput (path : ByteBuffer) (start len out : Nat) (normalized : ByteBuffer) :
    Option (Option (Nat × ByteBuffer)) :=
  let separated : Option (Option (Nat × ByteBuffer)) := if 1 < out then
      if vfsPathMaxBytes ≤ out + 1 then
        some none
      else do
        let stored ← storeByte normalized out slash
        some (some (out + 1, stored))
    else
      some (some (out, normalized))
  match separated with
  | none => none
  | some none => some none
  | some (some (out₁, normalized₁)) =>
    if vfsPathMaxBytes ≤ out₁ + len then
      some none
    else do
      let copied ← copySegment path len start out₁ normalized₁
      let stored ← storeByte copied (out₁ + len) 0
      some (some (out₁ + len, stored))

/- One segment of the path. -/
def normalizeSegment (path : ByteBuffer) (start len out : Nat) (normalized : ByteBuffer) :
    Option (Option (Nat × ByteBuffer)) := do
  let isDot ← segmentIsDot path start len
  if isDot then
    some (some (out, normalized))
  else do
    let isDotDot ← segmentIsDotDot path start len
    if isDotDot then do
      let popped ← popOutput out normalized
      some (some popped)
    else
      appendOutput path start len out normalized

/- The end of the function, after the main loop. -/
def normalizeFinish (input out : Nat) (normalized : ByteBuffer) : Option (Option ByteBuffer) :=
  if vfsPathMaxBytes ≤ input then
    some none
  else do
    let stored ← storeByte normalized out 0
    some (some stored)

def normalizeLoop (path : ByteBuffer) : Nat → Nat → Nat → ByteBuffer → Option (Option ByteBuffer)
| 0, _, _, _ => none
| turns + 1, input, out, normalized =>
    if input < vfsPathMaxBytes then do
      let c ← loadByte path input
      if c = 0 then
        normalizeFinish input out normalized
      else do
        let start ← skipSlashes path vfsPathTurns input
        if vfsPathMaxBytes ≤ start then
          normalizeFinish start out normalized
        else do
          let d ← loadByte path start
          if d = 0 then
            normalizeFinish start out normalized
          else do
            let stop ← segmentEnd path vfsPathTurns start
            if vfsPathMaxBytes ≤ stop then
              some none
            else do
              let segment ← normalizeSegment path start (stop - start) out normalized
              match segment with
              | none => some none
              | some (out', normalized') => normalizeLoop path turns stop out' normalized'
    else
      normalizeFinish input out normalized

/- The outer `none` is an access outside a buffer, the inner one the return value `0`. -/
def vfsNormalizePath (path normalized : ByteBuffer) : Option (Option ByteBuffer) := do
  let c ← loadByte path 0
  if c ≠ slash then
    some none
  else do
    let stored ← storeByte normalized 0 slash
    normalizeLoop path vfsPathTurns 0 1 stored

----------
-- Lookup

/- The loop of `x86_64_vfs_path_equals`, with the turns left. -/
def pathEqualsLoop (path kernelPath : ByteBuffer) : Nat → Nat → Bool
| 0, _ => false
| turns + 1, i =>
    if path i ≠ kernelPath i then
      false
    else if path i = 0 then true else pathEqualsLoop path kernelPath turns (i + 1)

def vfsPathEquals (path kernelPath : ByteBuffer) : Bool :=
  pathEqualsLoop path kernelPath vfsPathMaxBytes 0

/- A string constant in memory, with its terminator. -/
def cString (bytes : List UInt8) : ByteBuffer := fun i => bytes.getD i 0

/- The paths of `x86_64_vfs_nodes`, in order. -/
def vfsNodePaths : List (List UInt8) :=
  [ "/", "/bin", "/etc", "/proc", "/sbin", "/tmp", "/usr",
    "/usr/share", "/bin/datatest", "/bin/eventd",
    "/bin/hello", "/bin/inputd", "/bin/storaged",
    "/bin/sysinfo", "/bin/timed", "/bin/windowd",
    "/bin/windowd-service", "/etc/motd", "/etc/os-release",
    "/proc/version", "/tmp/session.txt",
    "/usr/share/files.txt", "/usr/share/help.txt" ].map
    textBytes

def findNodeLoop (normalized : ByteBuffer) : Nat → List (List UInt8) → Option Nat
| _, [] => none
| i, p :: ps =>
    if vfsPathEquals normalized (cString p) then some i else findNodeLoop normalized (i + 1) ps

/-
  The index of the node a path names; `some none` is `X86_64_VFS_NO_NODE`. `scratch` is the
  uninitialised local buffer.
-/
def vfsFindNode (path scratch : ByteBuffer) : Option (Option Nat) := do
  let result ← vfsNormalizePath path scratch
  match result with
  | none => some none
  | some normalized => some (findNodeLoop normalized 0 vfsNodePaths)

end LiamOS.X64
