import LiamOS.Lib.ByteMemory
import LiamOS.Lib.Word

/-
  Multiboot2 information parsing of the x86_64 kernel, `kernel/arch/x86_64/boot_info.c`.

  Addresses and sizes are numbers with the reductions of the source's types: offsets, sizes and
  the address of a tag are 32 bits wide, comparisons with `sizeof` are 64 bits wide. Every load
  logs the addresses of its bytes.

  Key definitions: `BootSummary`, `parseMmapTag`, `parseFramebufferTag`, `bootInfoLoop`,
  `bootInfoParse`, `boundedStringContainsIn`.
-/

namespace LiamOS.X64

open Word

----------
-- Summary

structure MemoryRegion where
  base : UInt64
  length : UInt64
  type : UInt32
deriving DecidableEq, Repr

structure FramebufferColors where
  redFieldPosition : Nat
  redMaskSize : Nat
  greenFieldPosition : Nat
  greenMaskSize : Nat
  blueFieldPosition : Nat
  blueMaskSize : Nat
deriving DecidableEq, Repr

/-
  `struct x86_64_boot_summary`. A text field holds the bytes in front of its terminator, and the
  retained regions are counted by the length of their list.
-/
structure BootSummary where
  magic : Nat
  bootInfoAddr : Nat
  multiboot2Valid : Bool
  totalSize : Nat
  commandLineFound : Bool
  commandLine : List UInt8
  exceptionTestRequested : Bool
  irqTestRequested : Bool
  shellInteractiveRequested : Bool
  bootloaderNameFound : Bool
  bootloaderName : List UInt8
  basicMeminfoFound : Bool
  memLowerKib : Nat
  memUpperKib : Nat
  mmapFound : Bool
  mmapEntryCount : Nat
  usableMemoryBytes : Nat
  framebufferFound : Bool
  framebufferRgbFormatOk : Bool
  framebufferAddr : Nat
  framebufferPitch : Nat
  framebufferWidth : Nat
  framebufferHeight : Nat
  framebufferBpp : Nat
  framebufferType : Nat
  framebufferColors : FramebufferColors
  memoryRegions : List MemoryRegion
deriving DecidableEq, Repr

def zeroSummary : BootSummary where
  magic := 0
  bootInfoAddr := 0
  multiboot2Valid := false
  totalSize := 0
  commandLineFound := false
  commandLine := []
  exceptionTestRequested := false
  irqTestRequested := false
  shellInteractiveRequested := false
  bootloaderNameFound := false
  bootloaderName := []
  basicMeminfoFound := false
  memLowerKib := 0
  memUpperKib := 0
  mmapFound := false
  mmapEntryCount := 0
  usableMemoryBytes := 0
  framebufferFound := false
  framebufferRgbFormatOk := false
  framebufferAddr := 0
  framebufferPitch := 0
  framebufferWidth := 0
  framebufferHeight := 0
  framebufferBpp := 0
  framebufferType := 0
  framebufferColors := ⟨0, 0, 0, 0, 0, 0⟩
  memoryRegions := []

----------
-- Strings

/-
  `copy_bounded_string`; the bound is the smaller of the source size and the destination size less
  one.
-/
def copyBoundedString (mem : ByteMemory) : Nat → Nat → Logged (List UInt8)
| 0, _ => pure []
| bound + 1, source => do
    let c ← load mem source 1
    if c = 0 then
      pure []
    else do
      let rest ← copyBoundedString mem bound (source + 1)
      pure (UInt8.ofNat c :: rest)

/- `bounded_string_contains` on a text in front of its end. -/
def boundedStringContains (needle : List UInt8) : List UInt8 → Bool
| [] => false
| c :: cs => needle.isPrefixOf (c :: cs) || boundedStringContains needle cs

def exceptionTestFlag : List UInt8 := textBytes "liam.x86_64.exception_test=ud2"

def irqTestFlag : List UInt8 := textBytes "liam.x86_64.irq_test=32"

def interactiveShellFlag : List UInt8 := textBytes "liam.x86_64.shell=interactive"

----------
-- Tags

def align8 (value : Nat) : Nat := u32 (value + 7) &&& not32 7

def memoryRegionMax : Nat := 32

/- `retain_memory_region` -/
def retainMemoryRegion (mem : ByteMemory) (entry : Nat) (s : BootSummary) : Logged BootSummary :=
  if memoryRegionMax ≤ s.memoryRegions.length then
    pure s
  else do
    let base ← load mem entry 8
    let length ← load mem (entry + 8) 8
    let type ← load mem (entry + 16) 4
    pure { s with
      memoryRegions := s.memoryRegions ++
        [⟨UInt64.ofNat base, UInt64.ofNat length, UInt32.ofNat type⟩] }

/- One turn of the loop over the memory map entries. -/
def parseMmapEntry (mem : ByteMemory) (entry : Nat) (s : BootSummary) : Logged BootSummary := do
  let counted := { s with mmapEntryCount := u32 (s.mmapEntryCount + 1) }
  let retained ← retainMemoryRegion mem entry counted
  let type ← load mem (entry + 16) 4
  if type = 1 then do
    let length ← load mem (entry + 8) 8
    pure { retained with usableMemoryBytes := u64 (retained.usableMemoryBytes + length) }
  else
    pure retained

def parseMmapLoop (mem : ByteMemory) (entrySize stop : Nat) :
    Nat → Nat → BootSummary → Logged BootSummary
| 0, _, _ => Logged.stuck
| turns + 1, entry, s =>
    if entry + entrySize ≤ stop then do
      let s' ← parseMmapEntry mem entry s
      parseMmapLoop mem entrySize stop turns (entry + entrySize) s'
    else
      pure s

/- Turns for the memory map loop, more than entries fit. -/
def mmapTurns : Nat := 4294967296

def parseMmapTag (mem : ByteMemory) (tag size : Nat) (s : BootSummary) : Logged BootSummary := do
  let entrySize ← load mem (tag + 8) 4
  if entrySize < 24 ∨ size < 16 then
    pure s
  else
    parseMmapLoop mem entrySize (tag + size) mmapTurns (tag + 16) { s with mmapFound := true }

def framebufferTypeRgb : Nat := 1

def parseFramebufferColors (mem : ByteMemory) (tag : Nat)
    (s : BootSummary) : Logged BootSummary := do
  let redPosition ← load mem (tag + 32) 1
  let redSize ← load mem (tag + 33) 1
  let greenPosition ← load mem (tag + 34) 1
  let greenSize ← load mem (tag + 35) 1
  let bluePosition ← load mem (tag + 36) 1
  let blueSize ← load mem (tag + 37) 1
  pure { s with
    framebufferColors := ⟨redPosition, redSize, greenPosition, greenSize, bluePosition, blueSize⟩
    framebufferRgbFormatOk :=
      decide (s.framebufferAddr ≠ 0 ∧ s.framebufferWidth ≠ 0 ∧ s.framebufferHeight ≠ 0 ∧
        s.framebufferPitch ≠ 0 ∧
        24 ≤ s.framebufferBpp ∧
        redSize ≠ 0 ∧ greenSize ≠ 0 ∧ blueSize ≠ 0) }

def parseFramebufferTag (mem : ByteMemory) (tag size : Nat)
    (s : BootSummary) : Logged BootSummary :=
  if size < 32 then
    pure s
  else do
    let address ← load mem (tag + 8) 8
    let pitch ← load mem (tag + 16) 4
    let width ← load mem (tag + 20) 4
    let height ← load mem (tag + 24) 4
    let bpp ← load mem (tag + 28) 1
    let type ← load mem (tag + 29) 1
    let found :=
      { s with
        framebufferFound := true
        framebufferAddr := address
        framebufferPitch := pitch
        framebufferWidth := width
        framebufferHeight := height
        framebufferBpp := bpp
        framebufferType := type
        framebufferRgbFormatOk := false }
    if type = framebufferTypeRgb ∧ 38 ≤ size then
      parseFramebufferColors mem tag found
    else
      pure found

def parseCommandLineTag (mem : ByteMemory) (tag size : Nat)
    (s : BootSummary) : Logged BootSummary := do
  let text ← copyBoundedString mem (min 127 (size - 8)) (tag + 8)
  pure { s with
    commandLineFound := true
    commandLine := text
    exceptionTestRequested := boundedStringContains exceptionTestFlag text
    irqTestRequested := boundedStringContains irqTestFlag text
    shellInteractiveRequested := boundedStringContains interactiveShellFlag text }

def parseLoaderNameTag (mem : ByteMemory) (tag size : Nat)
    (s : BootSummary) : Logged BootSummary := do
  let text ← copyBoundedString mem (min 63 (size - 8)) (tag + 8)
  pure { s with
    bootloaderNameFound := true
    bootloaderName := text }

def parseMeminfoTag (mem : ByteMemory) (tag size : Nat) (s : BootSummary) : Logged BootSummary :=
  if 16 ≤ size then do
    let lower ← load mem (tag + 8) 4
    let upper ← load mem (tag + 12) 4
    pure { s with
      basicMeminfoFound := true
      memLowerKib := lower
      memUpperKib := upper }
  else
    pure s

/- The choice on the type of a tag. -/
def parseTag (mem : ByteMemory) (tag type size : Nat) (s : BootSummary) : Logged BootSummary :=
  if type = 1 then
    parseCommandLineTag mem tag size s
  else if type = 2 then
    parseLoaderNameTag mem tag size s
  else if type = 4 then
    parseMeminfoTag mem tag size s
  else if type = 6 then
    parseMmapTag mem tag size s
  else if type = 8 then parseFramebufferTag mem tag size s else pure s

----------
-- The Tag Loop

/- The pointer to the tag at an offset. -/
def tagAddress (addr offset : Nat) : Nat := u32 (addr + offset)

def bootInfoLoop (mem : ByteMemory) (addr : Nat) : Nat → Nat → BootSummary → Logged BootSummary
| 0, _, _ => Logged.stuck
| turns + 1, offset, s => do
    let total ← load mem addr 4
    if offset + 8 ≤ total then do
      let tag := tagAddress addr offset
      let type ← load mem tag 4
      if type = 0 then
        pure s
      else do
        let size ← load mem (tag + 4) 4
        if size < 8 ∨ total < u32 (offset + size) then
          pure { s with multiboot2Valid := false }
        else do
          let s' ← parseTag mem tag type size s
          bootInfoLoop mem addr turns (u32 (offset + align8 size)) s'
    else
      pure s

def multiboot2BootloaderMagic : Nat := 920085129

/- What is cleared when the tags were not valid. -/
def bootInfoFinish (s : BootSummary) : BootSummary := if s.multiboot2Valid then
    s
  else
    { s with
      exceptionTestRequested := false
      irqTestRequested := false
      shellInteractiveRequested := false }

def bootInfoParse (mem : ByteMemory) (magic addr : UInt32) (turns : Nat) : Logged BootSummary :=
  let s :=
    { zeroSummary with
      magic := magic.toNat
      bootInfoAddr := addr.toNat }
  if magic.toNat ≠ multiboot2BootloaderMagic ∨ addr.toNat = 0 then
    pure s
  else do
    let total ← load mem addr.toNat 4
    if total < 8 then
      pure { s with totalSize := total }
    else do
      let parsed ←
        bootInfoLoop mem addr.toNat turns 8 { s with multiboot2Valid := true, totalSize := total }
      pure (bootInfoFinish parsed)

----------
-- Searching a Text

/- A byte of a buffer; at the size and above there is none. -/
def loadBelow (size : Nat) (buffer : ByteMemory) (i : Nat) : Option UInt8 :=
  if i < size then some (buffer i) else none

/- The inner loop of `bounded_string_contains`, with the rest of the needle. -/
def needleMatches (haystack : ByteMemory) (size i : Nat) : Nat → List UInt8 → Option Bool
| _, [] => some true
| j, c :: needle =>
    if size ≤ u32 (i + j) then
      some false
    else do
      let d ← loadBelow size haystack (u32 (i + j))
      if d = 0 ∨ d ≠ c then some false else needleMatches haystack size i (j + 1) needle

def containsLoop (haystack : ByteMemory) (size : Nat) (needle : List UInt8) :
    Nat → Nat → Option Bool
| 0, _ => none
| turns + 1, i =>
    if i < size then do
      let d ← loadBelow size haystack i
      if d = 0 then
        some false
      else do
        let matched ← needleMatches haystack size i 0 needle
        if matched then some true else containsLoop haystack size needle turns (i + 1)
    else
      some false

/- `bounded_string_contains`, `none` for a read outside the haystack. -/
def boundedStringContainsIn (haystack : ByteMemory) (size : UInt32)
    (needle : List UInt8) : Option Bool :=
  containsLoop haystack size.toNat needle (size.toNat + 1) 0

/- The bytes from an index to the first zero or the size. -/
def textFrom (haystack : ByteMemory) (size i : Nat) : List UInt8 :=
  ((List.range' i (size - i)).map haystack).takeWhile (· ≠ 0)

section

variable {haystack : ByteMemory} {size i : Nat}

theorem textFrom_cons (hIn : i < size) (hSome : haystack i ≠ 0) :
    textFrom haystack size i = haystack i :: textFrom haystack size (i + 1) := by
  unfold textFrom
  rw [show size - i = size - (i + 1) + 1 by omega, List.range'_succ]
  simp [hSome]

theorem textFrom_eq_nil (hEnd : i < size → haystack i = 0) : textFrom haystack size i = [] := by
  unfold textFrom
  by_cases hIn : i < size
  · rw [show size - i = size - (i + 1) + 1 by omega, List.range'_succ]
    simp [hEnd hIn]
  · rw [Nat.sub_eq_zero_of_le (by omega)]
    rfl

theorem loadBelow_eq (hIn : i < size) : loadBelow size haystack i = some (haystack i) := if_pos hIn

/- The inner loop compares the needle with the text, whose end it does not pass. -/
theorem needleMatches_eq (hSize : size < 4294967296) {j : Nat} (hIn : i + j ≤ size)
    (needle : List UInt8) :
    needleMatches haystack size i j needle =
      some (needle.isPrefixOf (textFrom haystack size (i + j))) := by
  induction needle generalizing j with
  | nil => rfl
  | cons c needle ih =>
    rw [needleMatches, u32_of_lt (by omega)]
    by_cases hLast : size ≤ i + j
    · rw [if_pos hLast, textFrom_eq_nil (by omega)]
      rfl
    · rw [if_neg hLast, loadBelow_eq (Nat.lt_of_not_le hLast)]
      by_cases hEnd : haystack (i + j) = 0
      · rw [textFrom_eq_nil fun _ => hEnd]
        simp [hEnd]
      · rw [textFrom_cons (Nat.lt_of_not_le hLast) hEnd]
        by_cases hSame : haystack (i + j) = c
        · have hRest := ih (j := j + 1) (by omega)
          subst hSame
          simpa [hEnd, Nat.add_assoc] using hRest
        · have hOther : (c == haystack (i + j)) = false := by simpa using Ne.symm hSame
          simp [hEnd, hSame, List.isPrefixOf, hOther]

theorem containsLoop_eq (hSize : size < 4294967296) (needle : List UInt8) {turns : Nat}
    (hTurns : size < i + turns)
    (hStart : i ≤ size) :
    containsLoop haystack size needle turns i =
      some (boundedStringContains needle (textFrom haystack size i)) := by
  induction turns generalizing i with
  | zero => omega
  | succ turns ih =>
    rw [containsLoop]
    by_cases hIn : i < size
    · rw [if_pos hIn, loadBelow_eq hIn]
      by_cases hEnd : haystack i = 0
      · rw [textFrom_eq_nil fun _ => hEnd]
        simp [hEnd, boundedStringContains]
      · have hHere := @needleMatches_eq haystack size i hSize 0 (Nat.le_of_lt hIn) needle
        have hRest := ih (i := i + 1) (by omega) hIn
        rw [Nat.add_zero, textFrom_cons hIn hEnd] at hHere
        rw [textFrom_cons hIn hEnd, boundedStringContains]
        cases hMatched : needle.isPrefixOf (haystack i :: textFrom haystack size (i + 1)) with
        | true => simp [hEnd, hHere, hMatched]
        | false => simp [hEnd, hHere, hMatched, hRest]
    · rw [if_neg hIn, textFrom_eq_nil fun h => absurd h hIn]
      rfl

end

/- A text holds a needle if and only if the needle is a part of it. -/
theorem boundedStringContains_iff (first : UInt8) (rest text : List UInt8) :
    boundedStringContains (first :: rest) text = true ↔ first :: rest <:+: text := by
  induction text with
  | nil => simp [boundedStringContains]
  | cons c text ih =>
    rw [boundedStringContains, Bool.or_eq_true, ih, List.isPrefixOf_iff_prefix,
      ← List.infix_cons_iff]

/-
  The search stays below the size and finds a needle if and only if the text in front of the first
  zero and the size holds it.
-/
theorem bootFlagSearch_exact (haystack : ByteMemory) (size : UInt32) (first : UInt8)
    (rest : List UInt8) :
    ∃ found, boundedStringContainsIn haystack size (first :: rest) = some found ∧
      (found = true ↔
        first :: rest <:+: ((List.range size.toNat).map haystack).takeWhile (· ≠ 0)) := by
  refine ⟨_, containsLoop_eq size.toNat_lt _ (by omega) (Nat.zero_le _), ?_⟩
  rw [boundedStringContains_iff, textFrom, Nat.sub_zero, ← List.range_eq_range']

end LiamOS.X64
