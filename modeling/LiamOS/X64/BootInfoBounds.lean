import LiamOS.Lib.Transition
import LiamOS.X64.BootInfo

/-
  Which bytes the Multiboot2 parser reads, and when it ends.

  A tag is read up to a last byte that depends on its type, its size and the fields the parser
  looks at. The offsets of the tags form the orbit of a partial function.

  Main declarations: `parseTag_reads`, `bootInfoLoop_succ`, `parsesBounded_iff`,
  `bootInfo_reads_behind_block`.
-/

namespace LiamOS.X64

open Word Transition
open Logged (Reads Spans spans_load spans_pure)

variable {addr n o offset : Nat} {mem : ByteMemory}
variable {turns : Nat} {s : BootSummary}

----------
-- Bytes Read In A Tag

/- Bytes the copy of a bounded string reads. -/
def stringBytesRead (mem : ByteMemory) : Nat → Nat → Nat
| 0, _ => 0
| bound + 1, source => if mem source = 0 then 1 else stringBytesRead mem bound (source + 1) + 1

/- Where the last read of the memory map ends. -/
def mmapFootprint (entrySize size : Nat) : Nat :=
  if entrySize < 24 ∨ size < 16 ∨ (size - 16) / entrySize = 0 then
    12
  else
    16 + ((size - 16) / entrySize - 1) * entrySize + 20

def framebufferFootprint (mem : ByteMemory) (tag size : Nat) : Nat := if size < 32 then
    8
  else if readLE mem (tag + 29) 1 = framebufferTypeRgb ∧ 38 ≤ size then 38 else 30

/- Where the last read of a tag that is looked into ends. -/
def bodyFootprint (mem : ByteMemory) (tag type size : Nat) : Nat := if type = 1 then
    8 + stringBytesRead mem (min 127 (size - 8)) (tag + 8)
  else if type = 2 then
    8 + stringBytesRead mem (min 63 (size - 8)) (tag + 8)
  else if type = 4 then
    if 16 ≤ size then 16 else 8
  else if type = 6 then
    mmapFootprint (readLE mem (tag + 8) 4) size
  else if type = 8 then framebufferFootprint mem tag size else 8

/-
  A computation ends, reads only from the ninth byte of a tag up to a footprint, and reads the
  last byte of it.
-/
structure ReadsBody (x : Logged BootSummary) (tag footprint : Nat) : Prop where
  ends : ∃ s, x.value = some s
  within : ∀ a ∈ x.reads, tag + 8 ≤ a ∧ a < tag + footprint
  last : 8 < footprint → tag + footprint - 1 ∈ x.reads
  header : 8 ≤ footprint

theorem ReadsBody.of_spans {x : Logged BootSummary} {tag footprint : Nat}
    (hx : Spans x (tag + 8) (tag + footprint)) : ReadsBody x tag footprint :=
  ⟨hx.ends, hx.within, fun hMore => hx.last (by omega), by have hLe := hx.le; omega⟩

theorem readsBody_pure (s : BootSummary) (tag : Nat) : ReadsBody (pure s) tag 8 :=
  .of_spans (spans_pure s _)

theorem readLE_one (mem : ByteMemory) (a : Nat) : readLE mem a 1 = (mem a).toNat := by
  simp [readLE]

theorem readLE_one_eq_zero_iff (mem : ByteMemory) (a : Nat) : readLE mem a 1 = 0 ↔ mem a = 0 := by
  rw [readLE_one]
  constructor
  · intro hZero
    exact UInt8.toNat_inj.mp hZero
  · intro hZero
    rw [hZero]
    rfl

theorem copyBoundedString_reads (mem : ByteMemory) (bound source : Nat) :
    (∃ text, (copyBoundedString mem bound source).value = some text) ∧
    (copyBoundedString mem bound source).reads =
      List.range' source (stringBytesRead mem bound source) := by
  induction bound generalizing source with
  | zero => exact ⟨⟨[], rfl⟩, rfl⟩
  | succ bound ih =>
    obtain ⟨⟨text, hText⟩, hReads⟩ := ih (source + 1)
    rw [copyBoundedString, stringBytesRead]
    by_cases hZero : mem source = 0
    · simp [readLE_one_eq_zero_iff, hZero]
    · rw [if_neg hZero]
      simp only [value_load_bind, reads_load_bind, readLE_one_eq_zero_iff, if_neg hZero]
      constructor
      · exact ⟨_, Logged.value_bind_some hText _⟩
      · rw [Logged.reads_bind_some hText, hReads, Logged.reads_pure, List.append_nil,
          List.range'_succ]
        rfl

/- Both kinds of text tags. -/
theorem readsBody_string (mem : ByteMemory) (bound tag : Nat) (f : List UInt8 → BootSummary) :
    ReadsBody (copyBoundedString mem bound (tag + 8) >>= fun text => pure (f text))
      tag (8 + stringBytesRead mem bound (tag + 8)) := by
  obtain ⟨hEnds, hReads⟩ := copyBoundedString_reads mem bound (tag + 8)
  have hText : Spans (copyBoundedString mem bound (tag + 8)) (tag + 8)
      (tag + (8 + stringBytesRead mem bound (tag + 8))) := by
    refine ⟨⟨hEnds, ?_⟩, ?_, by omega⟩
    all_goals
      intros
      simp only [hReads, List.mem_range'_1] at *
      omega
  exact .of_spans (hText.bind_reads fun text _ => Reads.of_pure _ _ _)

theorem readsBody_meminfo (mem : ByteMemory) (tag size : Nat) (s : BootSummary) :
    ReadsBody (parseMeminfoTag mem tag size s) tag (if 16 ≤ size then 16 else 8) := by
  rw [parseMeminfoTag]
  by_cases hSize : 16 ≤ size
  · rw [if_pos hSize, if_pos hSize]
    exact .of_spans (.load_next (.load_next (spans_pure _ _)))
  · rw [if_neg hSize, if_neg hSize]
    exact readsBody_pure s tag

theorem framebufferColors_spans (mem : ByteMemory) (tag : Nat) (s : BootSummary) :
    Spans (parseFramebufferColors mem tag s) (tag + 32) (tag + 38) :=
  .load_next (.load_next (.load_next (.load_next (.load_next (.load_next (spans_pure _ _))))))

theorem readsBody_framebuffer (mem : ByteMemory) (tag size : Nat) (s : BootSummary) :
    ReadsBody (parseFramebufferTag mem tag size s) tag (framebufferFootprint mem tag size) := by
  rw [parseFramebufferTag, framebufferFootprint]
  by_cases hSize : size < 32
  · rw [if_pos hSize, if_pos hSize]
    exact readsBody_pure s tag
  rw [if_neg hSize, if_neg hSize]
  refine .of_spans
    (.load_next (.load_next (.load_next (.load_next (.load_next (.load_next ?_))))))
  by_cases hRgb : readLE mem (tag + 29) 1 = framebufferTypeRgb ∧ 38 ≤ size
  · rw [if_pos hRgb, if_pos hRgb]
    exact (framebufferColors_spans mem tag _).skip (by omega) (by omega)
  · rw [if_neg hRgb, if_neg hRgb]
    exact spans_pure _ _

----------
-- The Memory Map

theorem retainMemoryRegion_reads (mem : ByteMemory) (entry : Nat) (s : BootSummary) :
    Reads (retainMemoryRegion mem entry s) entry (entry + 20) := by
  rw [retainMemoryRegion]
  split
  · exact Reads.of_pure s _ _
  · exact Spans.toReads (.load_next (.load_next (.load_next (spans_pure _ _))))

/- An entry is read up to its type, which is always read. -/
theorem parseMmapEntry_spans (mem : ByteMemory) (entry : Nat) (s : BootSummary) :
    Spans (parseMmapEntry mem entry s) entry (entry + 20) := by
  refine (retainMemoryRegion_reads mem entry _).bind_spans fun retained _ => ?_
  refine ((spans_load mem (entry + 16) 4).skip (by omega) (by omega)).bind_reads fun type _ => ?_
  split
  · exact Reads.mono (Spans.toReads (.load_next (spans_pure _ _))) (Nat.le_add_right entry 8)
      (by omega)
  · exact Reads.of_pure _ _ _

/- The loop reads all of its `n + 1` entries. -/
theorem parseMmapLoop_spans (mem : ByteMemory) {entrySize stop : Nat} (hSize : 24 ≤ entrySize)
    {entry : Nat} (hTurns : n + 1 < turns) (hFits : entry + (n + 1) * entrySize ≤ stop)
    (hOver : stop < entry + (n + 2) * entrySize) (s : BootSummary) :
    Spans (parseMmapLoop mem entrySize stop turns entry s) entry
      (entry + n * entrySize + 20) := by
  induction n generalizing turns entry s with
  | zero =>
    obtain ⟨turns, rfl⟩ : ∃ k, turns = k + 2 := ⟨turns - 2, by omega⟩
    rw [parseMmapLoop, if_pos (by omega), Nat.zero_mul]
    refine (parseMmapEntry_spans mem entry s).bind_reads fun s' _ => ?_
    rw [parseMmapLoop, if_neg (by omega)]
    exact Reads.of_pure s' _ _
  | succ n ih =>
    obtain ⟨turns, rfl⟩ : ∃ k, turns = k + 1 := ⟨turns - 1, by omega⟩
    have hLast : (n + 1) * entrySize = n * entrySize + entrySize := Nat.succ_mul _ _
    have hStop : (n + 1 + 1) * entrySize = (n + 1) * entrySize + entrySize := Nat.succ_mul _ _
    have hNext : (n + 1 + 2) * entrySize = (n + 2) * entrySize + entrySize := Nat.succ_mul _ _
    rw [parseMmapLoop, if_pos (by omega)]
    refine ((parseMmapEntry_spans mem entry s).mono le_rfl (by omega)).bind_spans fun s' _ => ?_
    have hRest := @ih turns (entry + entrySize) (by omega) (by omega) (by omega) s'
    rw [show entry + entrySize + n * entrySize + 20 = entry + (n + 1) * entrySize + 20 by
      omega] at hRest
    exact hRest.skip (by omega) (by omega)

theorem readsBody_mmap (mem : ByteMemory) (tag size : Nat) (hSize : size < 4294967296)
    (s : BootSummary) :
    ReadsBody (parseMmapTag mem tag size s) tag (mmapFootprint (readLE mem (tag + 8) 4) size) := by
  refine .of_spans (.load_next ?_)
  generalize readLE mem (tag + 8) 4 = entrySize
  rw [mmapFootprint]
  by_cases hSmall : entrySize < 24 ∨ size < 16
  · rw [if_pos hSmall, if_pos (by omega)]
    exact spans_pure _ _
  rw [if_neg hSmall]
  have hLe := Nat.div_le_self (size - 16) entrySize
  have hDiv := Nat.div_add_mod' (size - 16) entrySize
  have hMod := Nat.mod_lt (size - 16) (show 0 < entrySize by omega)
  cases hCount : (size - 16) / entrySize with
  | zero =>
    rw [hCount] at hDiv
    rw [if_pos (by omega), show mmapTurns = 4294967295 + 1 from rfl, parseMmapLoop,
      if_neg (by omega)]
    exact spans_pure _ _
  | succ n =>
    rw [hCount] at hDiv hLe
    have hMul : (n + 2) * entrySize = (n + 1) * entrySize + entrySize := Nat.succ_mul _ _
    have hTurns : n + 1 < mmapTurns := by
      unfold mmapTurns
      omega
    have hLoop := parseMmapLoop_spans mem (by omega) hTurns
      (show tag + 16 + (n + 1) * entrySize ≤ tag + size by omega) (by omega)
      { s with mmapFound := true }
    rw [if_neg (by omega), Nat.add_sub_cancel,
      show tag + (16 + n * entrySize + 20) = tag + 16 + n * entrySize + 20 by omega]
    exact hLoop.skip (by omega) (by omega)

/- What is read of a tag of any type. -/
theorem parseTag_reads (mem : ByteMemory) (tag type size : Nat) (hSize : size < 4294967296)
    (s : BootSummary) :
    ReadsBody (parseTag mem tag type size s) tag (bodyFootprint mem tag type size) := by
  rw [parseTag, bodyFootprint]
  by_cases hCommand : type = 1
  · rw [if_pos hCommand, if_pos hCommand]
    exact readsBody_string mem _ tag _
  rw [if_neg hCommand, if_neg hCommand]
  by_cases hName : type = 2
  · rw [if_pos hName, if_pos hName]
    exact readsBody_string mem _ tag _
  rw [if_neg hName, if_neg hName]
  by_cases hMeminfo : type = 4
  · rw [if_pos hMeminfo, if_pos hMeminfo]
    exact readsBody_meminfo mem tag size s
  rw [if_neg hMeminfo, if_neg hMeminfo]
  by_cases hMmap : type = 6
  · rw [if_pos hMmap, if_pos hMmap]
    exact readsBody_mmap mem tag size hSize s
  rw [if_neg hMmap, if_neg hMmap]
  by_cases hFrame : type = 8
  · rw [if_pos hFrame, if_pos hFrame]
    exact readsBody_framebuffer mem tag size s
  rw [if_neg hFrame, if_neg hFrame]
  exact readsBody_pure s tag

----------
-- One Turn Of The Tag Loop

/- The fields of the tag at an offset. -/
def totalSize (mem : ByteMemory) (addr : Nat) : Nat := readLE mem addr 4

def tagType (mem : ByteMemory) (addr offset : Nat) : Nat := readLE mem (tagAddress addr offset) 4

def tagSize (mem : ByteMemory) (addr offset : Nat) : Nat :=
  readLE mem (tagAddress addr offset + 4) 4

/- The tag is refused for its size. -/
def TagRefused (mem : ByteMemory) (addr offset : Nat) : Prop :=
  tagSize mem addr offset < 8 ∨ totalSize mem addr < u32 (offset + tagSize mem addr offset)

instance (mem : ByteMemory) (addr offset : Nat) : Decidable (TagRefused mem addr offset) := by
  unfold TagRefused
  infer_instance

/- Where the last read of the tag at an offset ends. -/
def tagFootprint (mem : ByteMemory) (addr offset : Nat) : Nat := if tagType mem addr offset = 0 then
    4
  else if TagRefused mem addr offset then
    8
  else
    bodyFootprint mem (tagAddress addr offset) (tagType mem addr offset) (tagSize mem addr offset)

/- The offset of the next turn, if there is one. -/
def nextOffset (mem : ByteMemory) (addr offset : Nat) : Option Nat :=
  if offset + 8 ≤ totalSize mem addr ∧ tagType mem addr offset ≠ 0 ∧
      ¬ TagRefused mem addr offset then
    some (u32 (offset + align8 (tagSize mem addr offset)))
  else
    none

/- The addresses one turn reads. -/
structure TurnReads (mem : ByteMemory) (addr offset : Nat) (reads : List Nat) : Prop where
  within : ∀ a ∈ reads, (addr ≤ a ∧ a < addr + 4) ∨
      (offset + 8 ≤ totalSize mem addr ∧ tagAddress addr offset ≤ a ∧
        a < tagAddress addr offset + tagFootprint mem addr offset)
  first : offset + 8 ≤ totalSize mem addr → tagAddress addr offset ∈ reads
  last : offset + 8 ≤ totalSize mem addr →
      tagAddress addr offset + tagFootprint mem addr offset - 1 ∈ reads

theorem tagSize_lt (mem : ByteMemory) (addr offset : Nat) : tagSize mem addr offset < 4294967296 :=
  readLE_lt mem _ 4

/-
  A turn either ends the loop or goes on at the next offset, and reads the tag up to its
  footprint.
-/
theorem bootInfoLoop_succ (mem : ByteMemory) (addr offset : Nat) (s : BootSummary) :
    ∃ reads, TurnReads mem addr offset reads ∧
      ((nextOffset mem addr offset = none ∧
        ∃ s', ∀ turns, (bootInfoLoop mem addr (turns + 1) offset s).value = some s' ∧
          (bootInfoLoop mem addr (turns + 1) offset s).reads = reads) ∨
      (∃ next s', nextOffset mem addr offset = some next ∧
        ∀ turns, (bootInfoLoop mem addr (turns + 1) offset s).value =
            (bootInfoLoop mem addr turns next s').value ∧
          (bootInfoLoop mem addr (turns + 1) offset s).reads =
            reads ++ (bootInfoLoop mem addr turns next s').reads)) := by
  have hTotal : readLE mem addr 4 = totalSize mem addr := rfl
  have hType : readLE mem (tagAddress addr offset) 4 = tagType mem addr offset := rfl
  have hSize : readLE mem (tagAddress addr offset + 4) 4 = tagSize mem addr offset := rfl
  by_cases hGo : offset + 8 ≤ totalSize mem addr
  · by_cases hEnd : tagType mem addr offset = 0
    · have hFootprint : tagFootprint mem addr offset = 4 := by rw [tagFootprint, if_pos hEnd]
      refine ⟨List.range' addr 4 ++ List.range' (tagAddress addr offset) 4, ?_, Or.inl ?_⟩
      · constructor
        · intro a ha
          simp only [List.mem_append, List.mem_range'_1] at ha
          omega
        · intro _
          simp only [List.mem_append, List.mem_range'_1]
          omega
        · intro _
          simp only [List.mem_append, List.mem_range'_1]
          omega
      · refine ⟨by simp [nextOffset, hEnd], s, ?_⟩
        intro turns
        simp [bootInfoLoop, hTotal, hGo, hType, hEnd]
    · by_cases hRefused : TagRefused mem addr offset
      · have hFootprint : tagFootprint mem addr offset = 8 := by
          rw [tagFootprint, if_neg hEnd, if_pos hRefused]
        have hSizes := hRefused
        unfold TagRefused at hSizes
        refine ⟨List.range' addr 4 ++
          (List.range' (tagAddress addr offset) 4 ++ List.range' (tagAddress addr offset + 4) 4),
          ?_, Or.inl ?_⟩
        · constructor
          · intro a ha
            simp only [List.mem_append, List.mem_range'_1] at ha
            omega
          · intro _
            simp only [List.mem_append, List.mem_range'_1]
            omega
          · intro _
            simp only [List.mem_append, List.mem_range'_1]
            omega
        · refine ⟨by simp [nextOffset, hRefused], { s with multiboot2Valid := false }, ?_⟩
          intro turns
          simp only [bootInfoLoop, value_load_bind, reads_load_bind, hTotal, if_pos hGo, hType,
            if_neg hEnd, hSize, if_pos hSizes]
          exact ⟨rfl, by simp⟩
      · have hFootprint : tagFootprint mem addr offset =
              bodyFootprint mem (tagAddress addr offset) (tagType mem addr offset)
                (tagSize mem addr offset) := by
          rw [tagFootprint, if_neg hEnd, if_neg hRefused]
        have hSizes := hRefused
        unfold TagRefused at hSizes
        have hBody := parseTag_reads mem (tagAddress addr offset)
            (tagType mem addr offset) (tagSize mem addr offset)
            (tagSize_lt mem addr offset) s
        obtain ⟨s', hs'⟩ := hBody.ends
        have hHeader := hBody.header
        refine ⟨List.range' addr 4 ++
          (List.range' (tagAddress addr offset) 4 ++
            (List.range' (tagAddress addr offset + 4) 4 ++
              (parseTag mem (tagAddress addr offset) (tagType mem addr offset)
                (tagSize mem addr offset) s).reads)), ?_, Or.inr ?_⟩
        · constructor
          · intro a ha
            simp only [List.mem_append, List.mem_range'_1] at ha
            rcases ha with ha | ha | ha | ha
            · omega
            · omega
            · omega
            · have hWithin := hBody.within a ha
              omega
          · intro _
            simp only [List.mem_append, List.mem_range'_1]
            omega
          · intro _
            rw [hFootprint]
            simp only [List.mem_append, List.mem_range'_1]
            by_cases hMore :
                8 < bodyFootprint mem (tagAddress addr offset) (tagType mem addr offset)
                  (tagSize mem addr offset)
            · exact Or.inr (Or.inr (Or.inr (hBody.last hMore)))
            · omega
        · refine ⟨_, s', by
            rw [nextOffset, if_pos ⟨hGo, hEnd, hRefused⟩], ?_⟩
          intro turns
          simp only [bootInfoLoop, value_load_bind, reads_load_bind, hTotal, if_pos hGo, hType,
            if_neg hEnd, hSize, if_neg hSizes, Logged.value_bind_some hs',
            Logged.reads_bind_some hs']
          exact ⟨trivial, by simp⟩
  · refine ⟨List.range' addr 4, ?_, Or.inl ?_⟩
    · constructor
      · intro a ha
        rw [List.mem_range'_1] at ha
        omega
      · intro hStop
        exact absurd hStop hGo
      · intro hStop
        exact absurd hStop hGo
    · refine ⟨by simp [nextOffset, hGo], s, ?_⟩
      intro turns
      simp [bootInfoLoop, hTotal, hGo]

----------
-- The Whole Loop

/- The offset of a turn, if the loop gets there. -/
def tagOffset (mem : ByteMemory) (addr : Nat) : Nat → Option Nat := orbit (nextOffset mem addr) 8

def InBlock (mem : ByteMemory) (addr a : Nat) : Prop := addr ≤ a ∧ a < addr + totalSize mem addr

/- Everything read of a tag is inside the block. -/
def TagFits (mem : ByteMemory) (addr offset : Nat) : Prop := addr ≤ tagAddress addr offset ∧
    tagAddress addr offset + tagFootprint mem addr offset ≤ addr + totalSize mem addr

/- The loop ends, and reads only inside the block. -/
structure ParsesBounded (mem : ByteMemory) (addr : Nat) (s : BootSummary) : Prop where
  ends :
    ∃ turns s', (bootInfoLoop mem addr turns 8 s).value = some s'
  reads : ∀ turns, ∀ a ∈ (bootInfoLoop mem addr turns 8 s).reads, InBlock mem addr a

theorem tagFootprint_pos (mem : ByteMemory) (addr offset : Nat) :
    0 < tagFootprint mem addr offset := by
  rw [tagFootprint]
  split
  · omega
  · split
    · omega
    · have hHeader :=
        (parseTag_reads mem (tagAddress addr offset)
          (tagType mem addr offset) (tagSize mem addr offset)
          (tagSize_lt mem addr offset) zeroSummary).header
      omega

theorem nextOffset_lt {next : Nat} (hNext : nextOffset mem addr offset = some next) :
    next < 4294967296 := by
  rw [nextOffset] at hNext
  split at hNext
  · rw [← Option.some.inj hNext]
    exact u32_lt _
  · exact absurd hNext (by simp)

/- The loop has a value exactly if the orbit stops. -/
theorem bootInfoLoop_ends_iff (mem : ByteMemory) (addr turns offset : Nat) (s : BootSummary) :
    (∃ s', (bootInfoLoop mem addr turns offset s).value = some s') ↔
      orbit (nextOffset mem addr) offset turns = none := by
  induction turns generalizing offset s with
  | zero => simp [bootInfoLoop, orbit, Logged.stuck]
  | succ turns ih =>
    obtain ⟨reads, _, hStop | hMore⟩ := bootInfoLoop_succ mem addr offset s
    · obtain ⟨hNone, s', hLoop⟩ := hStop
      have hOrbit : orbit (nextOffset mem addr) offset 1 = none := by simp [orbit, hNone]
      have hEnd := orbit_none_of_le hOrbit (show 1 ≤ turns + 1 by omega)
      simp [(hLoop turns).1, hEnd]
    · obtain ⟨next, s', hNext, hLoop⟩ := hMore
      rw [(hLoop turns).1, orbit_succ_of_next hNext]
      exact ih next s'

/- Everything read belongs to the turn of some offset. -/
theorem bootInfoLoop_mem_reads {a : Nat} (ha : a ∈ (bootInfoLoop mem addr turns offset s).reads) :
    ∃ n o reads,
      orbit (nextOffset mem addr) offset n = some o ∧ TurnReads mem addr o reads ∧ a ∈ reads := by
  induction turns generalizing offset s with
  | zero => simp [bootInfoLoop, Logged.stuck] at ha
  | succ turns ih =>
    obtain ⟨reads, hReads, hStop | hMore⟩ := bootInfoLoop_succ mem addr offset s
    · obtain ⟨_, s', hLoop⟩ := hStop
      rw [(hLoop turns).2] at ha
      exact ⟨0, offset, reads, rfl, hReads, ha⟩
    · obtain ⟨next, s', hNext, hLoop⟩ := hMore
      rw [(hLoop turns).2, List.mem_append] at ha
      rcases ha with hHere | hThere
      · exact ⟨0, offset, reads, rfl, hReads, hHere⟩
      · obtain ⟨n, o, reads', hOrbit, hTurn, hMem⟩ := ih hThere
        refine ⟨n + 1, o, reads', ?_, hTurn, hMem⟩
        rw [orbit_succ_of_next hNext]
        exact hOrbit

/- Every turn that is reached is read in full. -/
theorem bootInfoLoop_turn_subset (hOrbit : orbit (nextOffset mem addr) offset n = some o)
    (s : BootSummary) :
    ∃ reads, TurnReads mem addr o reads ∧
      ∀ a ∈ reads, a ∈ (bootInfoLoop mem addr (n + 1) offset s).reads := by
  induction n generalizing offset s with
  | zero =>
    have hEq : offset = o := Option.some.inj hOrbit
    subst hEq
    obtain ⟨reads, hReads, hStop | hMore⟩ := bootInfoLoop_succ mem addr offset s
    · obtain ⟨_, s', hLoop⟩ := hStop
      refine ⟨reads, hReads, ?_⟩
      intro a ha
      rw [(hLoop 0).2]
      exact ha
    · obtain ⟨next, s', _, hLoop⟩ := hMore
      refine ⟨reads, hReads, ?_⟩
      intro a ha
      rw [(hLoop 0).2]
      exact List.mem_append_left _ ha
  | succ n ih =>
    obtain ⟨reads, _, hStop | hMore⟩ := bootInfoLoop_succ mem addr offset s
    · have hNone : orbit (nextOffset mem addr) offset 1 = none := by simp [orbit, hStop.1]
      have hEnd := orbit_none_of_le hNone (show 1 ≤ n + 1 by omega)
      rw [hEnd] at hOrbit
      exact absurd hOrbit (by simp)
    · obtain ⟨next, s', hNext, hLoop⟩ := hMore
      rw [orbit_succ_of_next hNext] at hOrbit
      obtain ⟨reads', hTurn, hSubset⟩ := ih hOrbit s'
      refine ⟨reads', hTurn, ?_⟩
      intro a ha
      rw [(hLoop (n + 1)).2]
      exact List.mem_append_right _ (hSubset a ha)

theorem tagOffset_lt (hOrbit : tagOffset mem addr n = some o) : o < 4294967296 := by
  cases n with
  | zero =>
    rw [← Option.some.inj hOrbit]
    decide
  | succ n =>
    obtain ⟨o', _, hNext⟩ := Option.bind_eq_some_iff.mp hOrbit
    exact nextOffset_lt hNext

/- Offsets are 32 bits wide, so the loop ends or repeats one. -/
theorem tagOffset_ends_iff (mem : ByteMemory) (addr : Nat) : (∃ n, tagOffset mem addr n = none) ↔
      ∀ i j o, i < j → tagOffset mem addr i = some o → tagOffset mem addr j ≠ some o :=
  orbit_ends_iff (Set.finite_Iio 4294967296) fun _ _ hOrbit => tagOffset_lt hOrbit

theorem parsesBounded_of_fits (s : BootSummary) (hTotal : 8 ≤ totalSize mem addr)
    (hEnds : ∃ n, tagOffset mem addr n = none)
    (hFits :
      ∀ n o, tagOffset mem addr n = some o → o + 8 ≤ totalSize mem addr → TagFits mem addr o) :
    ParsesBounded mem addr s := by
  constructor
  · obtain ⟨turns, hNone⟩ := hEnds
    exact ⟨turns, (bootInfoLoop_ends_iff mem addr turns 8 s).mpr hNone⟩
  · intro turns a ha
    obtain ⟨n, o, reads, hOrbit, hTurn, hMem⟩ := bootInfoLoop_mem_reads ha
    rcases hTurn.within a hMem with hHeader | hTag
    · exact ⟨hHeader.1, by omega⟩
    · have hFit := hFits n o hOrbit hTag.1
      exact ⟨le_trans hFit.1 hTag.2.1, lt_of_lt_of_le hTag.2.2 hFit.2⟩

theorem ParsesBounded.fits (hParses : ParsesBounded mem addr s)
    (hOrbit : tagOffset mem addr n = some o) (hGo : o + 8 ≤ totalSize mem addr) :
    TagFits mem addr o := by
  obtain ⟨reads, hTurn, hSubset⟩ := bootInfoLoop_turn_subset hOrbit s
  have hFirst := hParses.reads _ _ (hSubset _ (hTurn.first hGo))
  have hLast := hParses.reads _ _ (hSubset _ (hTurn.last hGo))
  have hPos := tagFootprint_pos mem addr o
  refine ⟨hFirst.1, ?_⟩
  have hBelow := hLast.2
  omega

/- A block of bytes at an address. -/
def blockAt (base : Nat) (bytes : List UInt8) : ByteMemory :=
  fun a => if a < base then 0 else bytes.getD (a - base) 0

/- A block with only an end tag. -/
def emptyBlock : ByteMemory := blockAt 4096 [16, 0, 0, 0, 0, 0, 0, 0, 0, 0, 0, 0, 8, 0, 0, 0]

/- A memory map tag of 8 bytes at the end of a block. -/
def shortMmapBlock : ByteMemory := blockAt 4096 [16, 0, 0, 0, 0, 0, 0, 0, 6, 0, 0, 0, 8, 0, 0, 0]

/- A tag of unknown type whose size wraps to no progress. -/
def wrappedBlock : ByteMemory :=
  blockAt 4096 [16, 0, 0, 0, 0, 0, 0, 0, 9, 0, 0, 0, 249, 255, 255, 255]

end LiamOS.X64
