import LiamOS.X64.Vfs.Path

/-
  What path normalisation leaves in its output buffer.

  The output always holds the text of a list of components. A double dot removes the last
  component but keeps the separator in front of it, which reads as an empty last component.

  Key definitions: `BytesAt`, `StringAt`, `parent`, `outputStep`, `OutputRep`, `NormalizedTo`.
-/

namespace LiamOS.X64

open CanonicalPath

variable {b path : ByteBuffer} {i out start turns : Nat} {l m s : List UInt8}
variable {cs : List (List UInt8)}
variable {c : List UInt8}

----------
-- Bytes In A Buffer

def BytesAt (b : ByteBuffer) : Nat → List UInt8 → Prop
| _, [] => True
| i, c :: cs => b i = c ∧ BytesAt b (i + 1) cs

/- A terminated string stands at an index. -/
structure StringAt (b : ByteBuffer) (i : Nat) (l : List UInt8) : Prop where
  bytes : BytesAt b i l
  terminated : b (i + l.length) = 0
  nonzero : (0 : UInt8) ∉ l

theorem bytesAt_append : BytesAt b i (l ++ m) ↔ BytesAt b i l ∧ BytesAt b (i + l.length) m := by
  induction l generalizing i with
  | nil => simp [BytesAt]
  | cons c cs ih =>
    have hIndex : i + 1 + cs.length = i + (cs.length + 1) := by omega
    simp only [List.cons_append, BytesAt, ih, List.length_cons, hIndex, and_assoc]

/- A write behind the bytes does not change them. -/
theorem bytesAt_update {j : Nat} (hBytes : BytesAt b i l) (hAfter : i + l.length ≤ j) (c : UInt8) :
    BytesAt (Function.update b j c) i l := by
  induction l generalizing i with
  | nil => trivial
  | cons d ds ih =>
    rw [List.length_cons] at hAfter
    constructor
    · rw [Function.update_of_ne (by omega)]
      exact hBytes.1
    · apply ih hBytes.2
      omega

theorem StringAt.tail {c : UInt8} (hString : StringAt b i (c :: l)) : StringAt b (i + 1) l := by
  have hEnd := hString.terminated
  have hZero := hString.nonzero
  rw [List.length_cons] at hEnd
  rw [List.mem_cons, not_or] at hZero
  constructor
  · exact hString.bytes.2
  · rw [← hEnd]
    congr 1
    omega
  · exact hZero.2

theorem StringAt.suffix (hString : StringAt b i (l ++ m)) : StringAt b (i + l.length) m := by
  induction l generalizing i with
  | nil => simpa using hString
  | cons c cs ih =>
    have hRest := ih hString.tail
    rw [List.length_cons]
    rwa [show i + (cs.length + 1) = i + 1 + cs.length by
      omega]

theorem StringAt.head_ne {c : UInt8} (hString : StringAt b i (c :: l)) : b i = c ∧ c ≠ 0 := by
  have hZero := hString.nonzero
  rw [List.mem_cons, not_or] at hZero
  exact ⟨hString.bytes.1, Ne.symm hZero.1⟩

@[simp] theorem loadByte_eq (hi : i < 64) : loadByte b i = some (b i) := by
  simp [loadByte, vfsPathMaxBytes, hi]

@[simp] theorem storeByte_eq (hi : i < 64) (c : UInt8) :
    storeByte b i c = some (Function.update b i c) := by
  simp [storeByte, vfsPathMaxBytes, hi]

----------
-- Scanning The Path

theorem skipSlashes_eq (hString : StringAt path i l) (hTurns : l.length < turns)
    (hShort : i + l.length < 64) :
    skipSlashes path turns i = some (i + (l.takeWhile (· == slash)).length) := by
  induction l generalizing i turns with
  | nil =>
    obtain ⟨turns, rfl⟩ := Nat.exists_eq_add_of_lt hTurns
    have hEnd : path i = 0 := hString.terminated
    have hi : i < 64 := by simpa using hShort
    simp [skipSlashes, vfsPathMaxBytes, hi, hEnd, slash]
  | cons c cs ih =>
    cases turns with
    | zero => exact absurd hTurns (Nat.not_lt_zero _)
    | succ turns =>
      rw [List.length_cons] at hTurns hShort
      have hi : i < 64 := by omega
      have hHead := hString.head_ne.1
      by_cases hSlash : c = slash
      · have hRest := ih hString.tail (Nat.lt_of_succ_lt_succ hTurns) (by omega)
        simp only [skipSlashes, vfsPathMaxBytes, if_pos hi, loadByte_eq hi, hHead, hSlash, hRest]
        simp
        omega
      · simp [skipSlashes, vfsPathMaxBytes, hi, hHead, hSlash]

theorem segmentEnd_eq (hString : StringAt path i l) (hTurns : l.length < turns)
    (hShort : i + l.length < 64) :
    segmentEnd path turns i = some (i + (l.takeWhile (· != slash)).length) := by
  induction l generalizing i turns with
  | nil =>
    obtain ⟨turns, rfl⟩ := Nat.exists_eq_add_of_lt hTurns
    have hEnd : path i = 0 := hString.terminated
    have hi : i < 64 := by simpa using hShort
    simp [segmentEnd, vfsPathMaxBytes, hi, hEnd]
  | cons c cs ih =>
    cases turns with
    | zero => exact absurd hTurns (Nat.not_lt_zero _)
    | succ turns =>
      rw [List.length_cons] at hTurns hShort
      have hi : i < 64 := by omega
      have hHead := hString.head_ne
      by_cases hSlash : c = slash
      · simp [segmentEnd, vfsPathMaxBytes, hi, hHead.1, hSlash]
      · have hRest := ih hString.tail (Nat.lt_of_succ_lt_succ hTurns) (by omega)
        have hGo : path i ≠ 0 ∧ path i ≠ slash := by
          rw [hHead.1]
          exact ⟨hHead.2, hSlash⟩
        simp only [segmentEnd, vfsPathMaxBytes, if_pos hi, loadByte_eq hi, hRest]
        simp [hGo, hSlash]
        omega

----------
-- The Output Stack

/-
  What is left in front of a removed component: its separator reads as an empty component, except
  at the root.
-/
def parent (cs : List (List UInt8)) : List (List UInt8) := if cs = [] then [] else cs ++ [[]]

/- A first step back goes over an empty last component. -/
def trimmed (cs : List (List UInt8)) : List (List UInt8) :=
  if cs.getLast? = some [] then cs.dropLast else cs

/- What one component does to the output. -/
def outputStep (cs : List (List UInt8)) (c : List UInt8) : List (List UInt8) :=
  if c = [dot, dot] then parent (trimmed cs).dropLast else cs ++ [c]

/- Component lists that can be read back from their text. -/
structure ComponentNames (cs : List (List UInt8)) : Prop where
  separated : ∀ c ∈ cs, slash ∉ c
  nonzero : ∀ c ∈ cs, (0 : UInt8) ∉ c
  rooted : cs ≠ [[]]

/- The output holds the text of a list of components. -/
structure OutputRep (b : ByteBuffer) (out : Nat) (cs : List (List UInt8)) : Prop extends
    ComponentNames cs where
  bytes : BytesAt b 0 (pathText slash cs)
  length : out = (pathText slash cs).length

/- A finished output, with its terminator. -/
structure NormalizedTo (b : ByteBuffer) (cs : List (List UInt8)) : Prop extends
    ComponentNames cs where
  text : StringAt b 0 (pathText slash cs)
  short : (pathText slash cs).length < 64

theorem pathText_parent (cs : List (List UInt8)) (c : List UInt8) :
    pathText slash (cs ++ [c]) = pathText slash (parent cs) ++ c := by
  by_cases hNil : cs = []
  · simp [hNil, parent]
  · rw [parent, if_neg hNil, pathText_concat slash hNil, pathText_concat slash hNil]
    simp

/- The text of a parent ends in a separator. -/
theorem pathText_parent_last (cs : List (List UInt8)) :
    ∃ u, pathText slash (parent cs) = u ++ [slash] := by
  by_cases hNil : cs = []
  · exact ⟨[], by simp [hNil, parent]⟩
  · refine ⟨pathText slash cs, ?_⟩
    rw [parent, if_neg hNil, pathText_concat slash hNil]

theorem one_le_length_pathText (cs : List (List UInt8)) : 1 ≤ (pathText slash cs).length := by
  simp [pathText]

/- The root is the only output of one byte. -/
theorem OutputRep.out_eq_one_iff (hRep : OutputRep b out cs) : out = 1 ↔ cs = [] := by
  constructor
  · intro hOne
    rw [hRep.length] at hOne
    rcases List.eq_nil_or_concat cs with hNil | ⟨ds, d, hcs⟩
    · exact hNil
    · rw [List.concat_eq_append] at hcs
      have hRooted := hRep.rooted
      subst hcs
      by_cases hds : ds = []
      · subst hds
        have hd : d = [] := by simpa using hOne
        exact absurd (by simp [hd]) hRooted
      · rw [pathText_concat slash hds, List.length_append, List.length_cons] at hOne
        have hText := one_le_length_pathText ds
        omega
  · intro hNil
    rw [hRep.length, hNil]
    simp

----------
-- Removing A Component

/- The scan back stops behind the last separator. -/
theorem popSegment_eq {u : List UInt8} (hBytes : BytesAt b 0 (u ++ [slash] ++ s)) (hSep : slash ∉ s)
    (hShort : (u ++ [slash] ++ s).length < 64) :
    popSegment b (u.length + 1 + s.length) = some (u.length + 1) := by
  induction s using List.reverseRecOn with
  | nil =>
    cases hu : u.length with
    | zero => simp [popSegment]
    | succ n =>
      rw [List.append_nil, bytesAt_append] at hBytes
      have hLast : b (n + 1) = slash := by
        have hByte := hBytes.2.1
        rwa [hu, Nat.zero_add] at hByte
      have hi : n + 1 < 64 := by
        simp [hu] at hShort
        omega
      simp [popSegment, loadByte_eq hi, hLast]
  | append_singleton s c ih =>
    rw [List.mem_append, not_or] at hSep
    rw [← List.append_assoc, bytesAt_append] at hBytes
    have hc : c ≠ slash := by
      intro hEq
      exact hSep.2 (by simp [hEq])
    have hByte : b (u.length + s.length + 1) = c := by
      have hAt := hBytes.2.1
      simp only [List.length_append, List.length_singleton] at hAt
      rwa [show 0 + (u.length + 1 + s.length) = u.length + s.length + 1 by omega] at hAt
    have hLength : u.length + 1 + (s ++ [c]).length = u.length + s.length + 2 := by
      simp
      omega
    have hi : u.length + s.length + 1 < 64 := by
      simp at hShort
      omega
    have hRest := ih hBytes.1 hSep.1 (by simp at hShort ⊢; omega)
    rw [hLength, popSegment, loadByte_eq hi, hByte]
    simp only [Option.bind_eq_bind, Option.bind_some, if_pos hc]
    rwa [show u.length + s.length + 1 = u.length + 1 + s.length by omega]

/-
  One step back from the text of a list of components leaves the text of all but its last trimmed
  one.
-/
theorem dropLast_pathText (hSome : cs ≠ []) (hRooted : cs ≠ [[]]) (hSep : ∀ c ∈ cs, slash ∉ c) :
    ∃ s x, slash ∉ s ∧
      pathText slash cs = pathText slash (parent (trimmed cs).dropLast) ++ s ++ [x] := by
  rcases List.eq_nil_or_concat cs with hNil | ⟨ds, d, hcs⟩
  · exact absurd hNil hSome
  · rw [List.concat_eq_append] at hcs
    subst hcs
    by_cases hEmpty : d = []
    · subst hEmpty
      have hds : ds ≠ [] := by
        intro hNil
        exact hRooted (by simp [hNil])
      rcases List.eq_nil_or_concat ds with hNil | ⟨es, e, hes⟩
      · exact absurd hNil hds
      · rw [List.concat_eq_append] at hes
        refine ⟨e, slash, hSep e (by simp [hes]), ?_⟩
        rw [pathText_concat slash hds]
        simp [trimmed, hes, pathText_parent]
    · rcases List.eq_nil_or_concat d with hNil | ⟨s, x, hd⟩
      · exact absurd hNil hEmpty
      · rw [List.concat_eq_append] at hd
        have hdSep := hSep d (by simp)
        rw [hd, List.mem_append, not_or] at hdSep
        refine ⟨s, x, hdSep.1, ?_⟩
        rw [pathText_parent]
        simp [trimmed, hd]

theorem mem_of_mem_trimmed (hMem : c ∈ (trimmed cs).dropLast) : c ∈ cs := by
  have hTrimmed := List.mem_of_mem_dropLast hMem
  rw [trimmed] at hTrimmed
  split at hTrimmed
  · exact List.mem_of_mem_dropLast hTrimmed
  · exact hTrimmed

theorem mem_parent (hMem : c ∈ parent cs) : c ∈ cs ∨ c = [] := by
  rw [parent] at hMem
  split at hMem
  · exact absurd hMem (by simp)
  · simpa using hMem

theorem parent_rooted (cs : List (List UInt8)) : parent cs ≠ [[]] := by
  rw [parent]
  split
  · simp
  · next hNil => simpa using hNil

theorem ComponentNames.leave (hNames : ComponentNames cs) :
    ComponentNames (parent (trimmed cs).dropLast) := by
  constructor
  · intro c hc
    rcases mem_parent hc with hOld | hEmpty
    · exact hNames.separated c (mem_of_mem_trimmed hOld)
    · simp [hEmpty]
  · intro c hc
    rcases mem_parent hc with hOld | hEmpty
    · exact hNames.nonzero c (mem_of_mem_trimmed hOld)
    · simp [hEmpty]
  · exact parent_rooted _

/- A double dot keeps the output a text of components. -/
theorem popOutput_rep (hRep : OutputRep b out cs) (hShort : out < 64) :
    ∃ out' b', popOutput out b = some (out', b') ∧ OutputRep b' out' (outputStep cs [dot, dot]) ∧
        out' ≤ out := by
  have hStep : outputStep cs [dot, dot] = parent (trimmed cs).dropLast := by simp [outputStep]
  by_cases hNil : cs = []
  · have hOne := hRep.out_eq_one_iff.mpr hNil
    refine ⟨out, b, by simp [popOutput, hOne], ?_, le_rfl⟩
    rw [hStep]
    simpa [hNil, trimmed, parent] using hRep
  · obtain ⟨s, x, hs, hText⟩ := dropLast_pathText hNil hRep.rooted hRep.separated
    obtain ⟨u, hu⟩ := pathText_parent_last (trimmed cs).dropLast
    have hOut : out = u.length + 1 + s.length + 1 := by
      rw [hRep.length, hText, hu]
      simp
      omega
    have hBytes := hRep.bytes
    rw [hText, bytesAt_append] at hBytes
    have hPop : popSegment b (out - 1) = some (u.length + 1) := by
      rw [show out - 1 = u.length + 1 + s.length by omega]
      apply popSegment_eq (hu ▸ hBytes.1) hs
      simp
      omega
    have hi : u.length + 1 < 64 := by omega
    refine ⟨u.length + 1, Function.update b (u.length + 1) 0, ?_, ?_, by omega⟩
    · rw [popOutput, if_pos (by omega), hPop]
      simp [storeByte_eq hi]
    · rw [hStep]
      have hKept := (bytesAt_append.mp hBytes.1).1
      refine ⟨hRep.toComponentNames.leave, ?_, ?_⟩
      · apply bytesAt_update hKept
        rw [hu]
        simp
      · rw [hu]
        simp

----------
-- Appending A Component

theorem copySegment_eq {t : List UInt8} (hSource : BytesAt path start s) (hBytes : BytesAt b 0 t)
    (hOut : out = t.length) (hStart : start + s.length < 64) (hShort : out + s.length < 64) :
    ∃ b', copySegment path s.length start out b = some b' ∧ BytesAt b' 0 (t ++ s) := by
  induction s generalizing start out t b with
  | nil => exact ⟨b, rfl, by simpa using hBytes⟩
  | cons c cs ih =>
    rw [List.length_cons] at hStart hShort
    have hStored : BytesAt (Function.update b out c) 0 (t ++ [c]) := by
      rw [bytesAt_append]
      constructor
      · apply bytesAt_update hBytes
        omega
      · simp [BytesAt, hOut]
    obtain ⟨b', hCopy, hRest⟩ :=
      ih hSource.2 hStored (show out + 1 = _ by simp [hOut]) (by omega) (by omega)
    refine ⟨b', ?_, by simpa using hRest⟩
    rw [List.length_cons, copySegment, loadByte_eq (by omega), hSource.1]
    simp only [Option.bind_eq_bind, Option.bind_some]
    rw [storeByte_eq (by omega)]
    exact hCopy

theorem ComponentNames.enter (hNames : ComponentNames cs) (hSome : s ≠ []) (hSep : slash ∉ s)
    (hZero : (0 : UInt8) ∉ s) :
    ComponentNames (cs ++ [s]) := by
  constructor
  · intro c hc
    rcases List.mem_append.mp hc with hOld | hNew
    · exact hNames.separated c hOld
    · rwa [List.mem_singleton.mp hNew]
  · intro c hc
    rcases List.mem_append.mp hc with hOld | hNew
    · exact hNames.nonzero c hOld
    · rwa [List.mem_singleton.mp hNew]
  · intro hEq
    have hLast := congrArg List.getLast? hEq
    exact hSome (by simpa using hLast)

/- A name goes behind the output, which has room for it. -/
theorem appendOutput_rep (hRep : OutputRep b out cs) (hSource : BytesAt path start s)
    (hSome : s ≠ []) (hSep : slash ∉ s) (hZero : (0 : UInt8) ∉ s) (hStart : start + s.length < 64)
    (hFirst : 1 ≤ start) (hRoom : out = 1 ∨ out + 1 ≤ start) :
    ∃ out' b', appendOutput path start s.length out b = some (some (out', b')) ∧
        OutputRep b' out' (cs ++ [s]) ∧
        out' ≤ start + s.length := by
  have hNames := hRep.toComponentNames.enter hSome hSep hZero
  by_cases hNil : cs = []
  · have hOne := hRep.out_eq_one_iff.mpr hNil
    have hRoot : BytesAt b 0 [slash] := by simpa [hNil] using hRep.bytes
    have hFits : 1 + s.length < 64 := by omega
    obtain ⟨b', hCopy, hBytes⟩ := copySegment_eq hSource hRoot rfl hStart hFits
    refine ⟨1 + s.length, Function.update b' (1 + s.length) 0, ?_, ?_, by omega⟩
    · simp only [List.length_singleton] at hCopy
      simp [appendOutput, hOne, vfsPathMaxBytes, Nat.not_le.mpr hFits, hCopy, storeByte_eq hFits]
    · refine ⟨hNames, ?_, ?_⟩
      · apply bytesAt_update
        · simpa [hNil] using hBytes
        · rw [hNil, List.nil_append, pathText_singleton, List.length_cons]
          omega
      · simp [hNil]
        omega
  · have hOut : out ≠ 1 := by
      intro hOne
      exact hNil (hRep.out_eq_one_iff.mp hOne)
    have hOnePos : 1 < out := by
      have hText := one_le_length_pathText cs
      have hLength := hRep.length
      omega
    have hSlashFits : out + 1 < 64 := by omega
    have hFits : out + 1 + s.length < 64 := by omega
    have hStored : BytesAt (Function.update b out slash) 0 (pathText slash cs ++ [slash]) := by
      rw [bytesAt_append]
      constructor
      · apply bytesAt_update hRep.bytes
        rw [hRep.length]
        omega
      · simp [BytesAt, hRep.length]
    obtain ⟨b', hCopy, hBytes⟩ :=
      copySegment_eq hSource hStored (show out + 1 = _ by simp [hRep.length]) hStart hFits
    refine ⟨out + 1 + s.length, Function.update b' (out + 1 + s.length) 0, ?_, ?_, by omega⟩
    · simp [appendOutput, hOnePos, vfsPathMaxBytes, Nat.not_le.mpr hSlashFits, Nat.not_le.mpr hFits,
        storeByte_eq (show out < 64 by omega), hCopy,
        storeByte_eq hFits]
    · refine ⟨hNames, ?_, ?_⟩
      · apply bytesAt_update
        · rw [pathText_concat slash hNil]
          simpa using hBytes
        · rw [pathText_concat slash hNil]
          simp [hRep.length]
          omega
      · rw [pathText_concat slash hNil]
        simp [hRep.length]
        omega

----------
-- One Segment

theorem segmentIsDot_eq (hSource : BytesAt path start s) (hStart : start + s.length < 64) :
    segmentIsDot path start s.length = some (decide (s = [dot])) := by
  match s, hSource, hStart with
  | [], _, _ => simp [segmentIsDot]
  | [c], hSource, hStart =>
    have hi : start < 64 := by
      rw [List.length_singleton] at hStart
      omega
    have hByte : path start = c := hSource.1
    simp [segmentIsDot, loadByte_eq hi, hByte]
    rfl
  | _ :: _ :: _, _, _ => simp [segmentIsDot]

theorem segmentIsDotDot_eq (hSource : BytesAt path start s) (hStart : start + s.length < 64) :
    segmentIsDotDot path start s.length = some (decide (s = [dot, dot])) := by
  match s, hSource, hStart with
  | [], _, _ => simp [segmentIsDotDot]
  | [_], _, _ => simp [segmentIsDotDot]
  | [c, d], hSource, hStart =>
    have hi : start + 1 < 64 := by
      simp at hStart
      omega
    have hFirst : path start = c := hSource.1
    have hSecond : path (start + 1) = d := hSource.2.1
    by_cases hc : c = dot
    · simp [segmentIsDotDot, loadByte_eq hi, loadByte_eq (show start < 64 by omega), hFirst,
        hSecond, hc]
      rfl
    · simp [segmentIsDotDot, loadByte_eq (show start < 64 by omega), hFirst, hc]
  | _ :: _ :: _ :: _, _, _ => simp [segmentIsDotDot]

/- The components a segment of the path stands for. -/
def segmentComponents (s : List UInt8) : List (List UInt8) := if s = [dot] then [] else [s]

theorem normalizeSegment_rep (hRep : OutputRep b out cs) (hSource : BytesAt path start s)
    (hSome : s ≠ []) (hSep : slash ∉ s) (hZero : (0 : UInt8) ∉ s) (hStart : start + s.length < 64)
    (hFirst : 1 ≤ start) (hRoom : out = 1 ∨ out + 1 ≤ start) :
    ∃ out' b', normalizeSegment path start s.length out b = some (some (out', b')) ∧
        OutputRep b' out' ((segmentComponents s).foldl outputStep cs) ∧
        (out' = 1 ∨ out' ≤ start + s.length) := by
  by_cases hDot : s = [dot]
  · refine ⟨out, b, ?_, ?_, by omega⟩
    · rw [normalizeSegment, segmentIsDot_eq hSource hStart]
      simp [hDot]
    · simpa [segmentComponents, hDot] using hRep
  · by_cases hUp : s = [dot, dot]
    · obtain ⟨out', b', hPop, hPopped, hLess⟩ := popOutput_rep hRep (by omega)
      refine ⟨out', b', ?_, ?_, by omega⟩
      · rw [normalizeSegment, segmentIsDot_eq hSource hStart, segmentIsDotDot_eq hSource hStart]
        simp [hUp, hPop]
      · simpa [segmentComponents, hUp] using hPopped
    · obtain ⟨out', b', hAppend, hAppended, hLess⟩ :=
        appendOutput_rep hRep hSource hSome hSep hZero hStart hFirst hRoom
      refine ⟨out', b', ?_, ?_, Or.inr hLess⟩
      · rw [normalizeSegment, segmentIsDot_eq hSource hStart, segmentIsDotDot_eq hSource hStart]
        simp [hDot, hUp, hAppend]
      · simpa [segmentComponents, hDot, outputStep, hUp] using hAppended

----------
-- The Whole Path

theorem zero_not_mem_pathText (hZero : ∀ c ∈ cs, (0 : UInt8) ∉ c) :
    (0 : UInt8) ∉ pathText slash cs := by
  induction cs using List.reverseRecOn with
  | nil => simp [slash]
  | append_singleton cs c ih =>
    have hOld := ih fun d hd => hZero d (by simp [hd])
    have hNew := hZero c (by simp)
    by_cases hNil : cs = []
    · simpa [hNil, slash] using hNew
    · rw [pathText_concat slash hNil, List.mem_append, List.mem_cons, not_or, not_or]
      exact ⟨hOld, by decide, hNew⟩

theorem normalizeFinish_rep {input : Nat} (hRep : OutputRep b out cs) (hInput : input < 64)
    (hOut : out < 64) :
    ∃ b', normalizeFinish input out b = some (some b') ∧ NormalizedTo b' cs := by
  refine ⟨Function.update b out 0, ?_, hRep.toComponentNames, ?_, hRep.length ▸ hOut⟩
  · simp [normalizeFinish, vfsPathMaxBytes, Nat.not_le.mpr hInput, storeByte_eq hOut]
  · constructor
    · apply bytesAt_update hRep.bytes
      rw [hRep.length]
      omega
    · rw [Nat.zero_add, ← hRep.length, Function.update_self]
    · exact zero_not_mem_pathText hRep.nonzero

/- A path splits into separators, a segment and the rest. -/
theorem exists_segment :
    ∃ skip rest, slash :: m = skip ++ rest ∧ skip = (slash :: m).takeWhile (· == slash) ∧
        rest = (slash :: m).dropWhile (· == slash) ∧
        1 ≤ skip.length ∧
        ∀ c ∈ rest.head?, c ≠ slash := by
  refine ⟨_, _, (List.takeWhile_append_dropWhile).symm, rfl, rfl, by simp, ?_⟩
  intro c hc hSlash
  have hNot := List.head?_dropWhile_not (· == slash) (slash :: m)
  rw [Option.mem_def] at hc
  rw [hc] at hNot
  simp [hSlash] at hNot

theorem exists_segment_end {d : UInt8} {r : List UInt8} (hd : d ≠ slash) :
    ∃ s after, d :: r = s ++ after ∧ s = (d :: r).takeWhile (· != slash) ∧ s ≠ [] ∧ slash ∉ s ∧
        ∀ c ∈ after.head?, c = slash := by
  refine ⟨_, _, (List.takeWhile_append_dropWhile).symm, rfl, by simp [hd], ?_, ?_⟩
  · intro hMem
    have hNot := List.mem_takeWhile_imp hMem
    simp at hNot
  · intro c hc
    have hNot := List.head?_dropWhile_not (· != slash) (d :: r)
    rw [Option.mem_def] at hc
    rw [hc] at hNot
    simpa using hNot

/-
  At the head of the loop the path continues with a separator or ends; every component read so far
  is in the output.
-/
theorem normalizeLoop_rep (hString : StringAt path i l) (hTurns : l.length < turns)
    (hShort : i + l.length < 64) (hHead : ∀ c ∈ l.head?, c = slash) (hRep : OutputRep b out cs)
    (hRoom : out = 1 ∨ out ≤ i) :
    ∃ b', normalizeLoop path turns i out b = some (some b') ∧
      NormalizedTo b' ((components slash dot l).foldl outputStep cs) := by
  induction turns generalizing b i out l cs with
  | zero => exact absurd hTurns (Nat.not_lt_zero _)
  | succ turns ih =>
    have hi : i < 64 := by omega
    cases l with
    | nil =>
      have hEnd : path i = 0 := hString.terminated
      obtain ⟨b', hFinish, hText⟩ := normalizeFinish_rep hRep hi (by omega)
      refine ⟨b', ?_, by simpa using hText⟩
      simp [normalizeLoop, vfsPathMaxBytes, hi, hEnd, hFinish]
    | cons c m =>
      have hc : c = slash := hHead c (by simp)
      subst hc
      have hByte := hString.head_ne
      obtain ⟨skip, rest, hSplit, hSkip, hDrop, hPos, hNext⟩ := exists_segment (m := m)
      have hLength := congrArg List.length hSplit
      rw [List.length_append] at hLength
      have hStart : skipSlashes path vfsPathTurns i = some (i + skip.length) := by
        rw [hSkip]
        apply skipSlashes_eq hString _ hShort
        unfold vfsPathTurns
        omega
      have hAfter : StringAt path (i + skip.length) rest := StringAt.suffix (hSplit ▸ hString)
      have hComponents : components slash dot (slash :: m) = components slash dot rest := by
        rw [hDrop, components_dropWhile]
      have hj : i + skip.length < 64 := by omega
      rw [hComponents]
      cases rest with
      | nil =>
        have hEnd : path (i + skip.length) = 0 := hAfter.terminated
        obtain ⟨b', hFinish, hText⟩ := normalizeFinish_rep hRep hj (by omega)
        refine ⟨b', ?_, by simpa using hText⟩
        simp [normalizeLoop, vfsPathMaxBytes, hi, hByte,
          hStart, hj, Nat.not_le.mpr hj, hEnd, hFinish]
      | cons d r =>
        have hd : d ≠ slash := hNext d (by simp)
        have hdByte := hAfter.head_ne
        obtain ⟨s, after, hSegment, hTake, hSome, hSep,
          hHeadAfter⟩ := exists_segment_end (r := r) hd
        have hParts := congrArg List.length hSegment
        rw [List.length_append] at hParts
        have hStop : segmentEnd path vfsPathTurns (i + skip.length) =
              some (i + skip.length + s.length) := by
          rw [hTake]
          apply segmentEnd_eq hAfter
          · unfold vfsPathTurns
            omega
          · omega
        have hBytes := hAfter.bytes
        have hZero := hAfter.nonzero
        rw [hSegment] at hAfter hBytes hZero
        rw [List.mem_append, not_or] at hZero
        have hStopShort : i + skip.length + s.length < 64 := by omega
        obtain ⟨out', b₁, hSeg, hRep', hRoom'⟩ :=
          normalizeSegment_rep hRep (bytesAt_append.mp hBytes).1 hSome hSep
            hZero.1 hStopShort (by omega) (by omega)
        have hsPos := List.length_pos_iff.mpr hSome
        obtain ⟨b', hLoop, hText⟩ := ih hAfter.suffix (by omega) (by omega) hHeadAfter hRep' hRoom'
        refine ⟨b', ?_, ?_⟩
        · simp [normalizeLoop, vfsPathMaxBytes, hi, hByte, hStart, hj, Nat.not_le.mpr hj, hdByte,
            hStop, Nat.not_le.mpr hStopShort, hSeg, hLoop]
        · rw [hSegment, components_append slash dot hSome hSep hHeadAfter, List.foldl_append]
          exact hText

/-
  Every absolute path of less than 64 bytes is normalised, to the text of what its components
  leave in the output.
-/
theorem vfsNormalizePath_rep (hString : StringAt path 0 (slash :: m))
    (hShort : (slash :: m).length < 64) (scratch : ByteBuffer) :
    ∃ b, vfsNormalizePath path scratch = some (some b) ∧
      NormalizedTo b ((components slash dot (slash :: m)).foldl outputStep []) := by
  have hRep : OutputRep (Function.update scratch 0 slash) 1 [] := by
    refine ⟨⟨by simp, by simp, by simp⟩, ?_, by simp⟩
    simp [BytesAt]
  have hTurns : (slash :: m).length < vfsPathTurns := by
    unfold vfsPathTurns
    omega
  obtain ⟨b, hLoop, hText⟩ :=
    normalizeLoop_rep hString hTurns (by omega) (by simp) hRep (Or.inl rfl)
  refine ⟨b, ?_, hText⟩
  simp [vfsNormalizePath, hString.head_ne.1, hLoop]

end LiamOS.X64
