import LiamOS.X64.Vfs.Normalize

/-
  When path normalisation gives the canonical path.

  A double dot below two or more components leaves a separator behind. The output then stays
  different from the canonical path until further double dots have emptied it. `pathDepth` follows
  this with a counter, without the buffer.

  Main declarations: `depthRep_components`, `resolvesCanonically_iff`,
  `normalize_leaves_separator`.
-/

namespace LiamOS.X64

open CanonicalPath

variable {cs : List (List UInt8)} {b : ByteBuffer} {l : List UInt8}
variable {m : List (List UInt8)} {i : Nat} {t : List UInt8}

----------
-- Depth Of A Path

/-
  How many components the output has, and whether a separator was left behind. In the last case
  the flag says that the output ends in one.
-/
inductive PathDepth where
  | root
  | clean (n : Nat)
  | dirty (n : Nat) (atSeparator : Bool)
deriving DecidableEq, Repr

variable {d : PathDepth}

namespace PathDepth

def enter : PathDepth → PathDepth
| root => clean 1
| clean n => clean (n + 1)
| dirty n _ => dirty (n + 1) false

def leave : PathDepth → PathDepth
| root => root
| clean n => if n ≤ 1 then root else dirty n true
| dirty n false => dirty n true
| dirty n true => if n ≤ 2 then root else dirty (n - 1) true

def isDirty : PathDepth → Bool
| dirty _ _ => true
| _ => false

end PathDepth

def depthStep (d : PathDepth) (c : List UInt8) : PathDepth :=
  if c = [dot, dot] then d.leave else d.enter

def pathDepth (p : List UInt8) : PathDepth := (components slash dot p).foldl depthStep .root

/- The depth describes the output and the canonical stack. -/
def DepthRep (d : PathDepth) (cs m : List (List UInt8)) : Prop :=
  match d with
  | .root => cs = [] ∧ m = []
  | .clean n => cs = m ∧ m.length = n ∧ 1 ≤ n
  | .dirty n atSeparator =>
    cs.length = n ∧ 2 ≤ n ∧ [] ∈ cs ∧ (cs.getLast? = some [] ↔ atSeparator = true) ∧
      m.length + 1 ≤ n

theorem enter_rep (hRep : DepthRep d cs m) {c : List UInt8} (hc : c ≠ []) :
    DepthRep d.enter (cs ++ [c]) (m ++ [c]) := by
  cases d with
  | root =>
    obtain ⟨hcs, hm⟩ := hRep
    simp [PathDepth.enter, DepthRep, hcs, hm]
  | clean n =>
    obtain ⟨hcs, hLength, _⟩ := hRep
    simp [PathDepth.enter, DepthRep, hcs, hLength]
  | dirty n atSeparator =>
    obtain ⟨hLength, hTwo, hEmpty, _, hLess⟩ := hRep
    refine ⟨by simp [hLength], by omega, by simp [hEmpty], by simp [hc], ?_⟩
    simp
    omega

theorem length_parent (hSome : cs ≠ []) : (parent cs).length = cs.length + 1 := by
  simp [parent, hSome]

/- The parent of a list that is not empty is dirty. -/
theorem parent_dirty (hSome : cs ≠ []) (hLess : m.length ≤ cs.length) :
    DepthRep (.dirty (cs.length + 1) true) (parent cs) m := by
  have hPos := List.length_pos_iff.mpr hSome
  refine ⟨length_parent hSome, by omega, ?_, ?_, by omega⟩
  · simp [parent, hSome]
  · simp [parent, hSome]

theorem leave_rep (hRep : DepthRep d cs m) (hNames : ∀ c ∈ m, c ≠ []) :
    DepthRep d.leave (parent (trimmed cs).dropLast) m.dropLast := by
  cases d with
  | root =>
    obtain ⟨hcs, hm⟩ := hRep
    simp [PathDepth.leave, DepthRep, hcs, hm, trimmed, parent]
  | clean n =>
    obtain ⟨hcs, hLength, hOne⟩ := hRep
    subst hcs
    have hTrimmed : trimmed cs = cs := by
      rw [trimmed, if_neg]
      intro hLast
      exact hNames [] (List.mem_of_getLast? hLast) rfl
    have hDrop : cs.dropLast.length = n - 1 := by simp [hLength]
    rw [hTrimmed, PathDepth.leave]
    by_cases hn : n ≤ 1
    · have hNil : cs.dropLast = [] := List.eq_nil_of_length_eq_zero (by omega)
      rw [if_pos hn, hNil]
      simp [DepthRep, parent]
    · have hSome : cs.dropLast ≠ [] := List.ne_nil_of_length_pos (by omega)
      have hDirty := parent_dirty hSome (le_refl _)
      rw [hDrop, Nat.sub_add_cancel hOne] at hDirty
      rwa [if_neg hn]
  | dirty n atSeparator =>
    obtain ⟨hLength, hTwo, hEmpty, hLast, hLess⟩ := hRep
    cases atSeparator with
    | false =>
      have hTrimmed : trimmed cs = cs := by
        rw [trimmed, if_neg]
        simpa using hLast
      have hDrop : cs.dropLast.length = n - 1 := by simp [hLength]
      have hSome : cs.dropLast ≠ [] := List.ne_nil_of_length_pos (by omega)
      have hDirty := parent_dirty hSome
          (show m.dropLast.length ≤ _ by
            rw [List.length_dropLast]
            omega)
      rw [hDrop, Nat.sub_add_cancel (by omega)] at hDirty
      rwa [hTrimmed]
    | true =>
      have hTrimmed : trimmed cs = cs.dropLast := by rw [trimmed, if_pos (hLast.mpr rfl)]
      have hDrop : cs.dropLast.dropLast.length = n - 2 := by
        simp [hLength]
        omega
      rw [hTrimmed, PathDepth.leave]
      by_cases hn : n ≤ 2
      · have hNil : cs.dropLast.dropLast = [] := List.eq_nil_of_length_eq_zero (by omega)
        have hm : m.dropLast = [] := by
          apply List.eq_nil_of_length_eq_zero
          rw [List.length_dropLast]
          omega
        rw [if_pos hn, hNil, hm]
        simp [DepthRep, parent]
      · have hSome : cs.dropLast.dropLast ≠ [] := List.ne_nil_of_length_pos (by omega)
        have hDirty := parent_dirty hSome
            (show m.dropLast.length ≤ _ by
              rw [List.length_dropLast]
              omega)
        rw [hDrop, show n - 2 + 1 = n - 1 by omega] at hDirty
        rwa [if_neg hn]

/- The depth follows any list of components. -/
theorem depthRep_components (hNames : ∀ c ∈ cs, c ≠ []) :
    DepthRep (cs.foldl depthStep .root) (cs.foldl outputStep []) (resolve dot cs) := by
  induction cs using List.reverseRecOn with
  | nil => exact ⟨rfl, rfl⟩
  | append_singleton cs c ih =>
    have hOld := ih fun d hd => hNames d (by simp [hd])
    have hResolved : ∀ d ∈ resolve dot cs, d ≠ [] := by
      intro d hd
      exact hNames d (by simp [(mem_resolve dot hd).1])
    rw [List.foldl_append, List.foldl_append, resolve_concat]
    simp only [List.foldl_cons, List.foldl_nil, depthStep, outputStep, resolveStep]
    by_cases hUp : c = [dot, dot]
    · rw [if_pos hUp, if_pos hUp, if_pos hUp]
      exact leave_rep hOld hResolved
    · rw [if_neg hUp, if_neg hUp, if_neg hUp]
      exact enter_rep hOld (hNames c (by simp))

----------
-- Text And Canonical Path

theorem StringAt.unique {m : List UInt8} (hl : StringAt b i l) (hm : StringAt b i m) : l = m := by
  induction l generalizing i m with
  | nil =>
    cases m with
    | nil => rfl
    | cons d ds =>
      have hEnd : b i = 0 := hl.terminated
      have hHead := hm.head_ne
      exact absurd (hHead.1.symm.trans hEnd) hHead.2
  | cons c cs ih =>
    have hHead := hl.head_ne
    cases m with
    | nil =>
      have hEnd : b i = 0 := hm.terminated
      exact absurd (hHead.1.symm.trans hEnd) hHead.2
    | cons d ds => rw [← hHead.1, hm.head_ne.1, ih hl.tail hm.tail]

/- The output is canonical exactly if no separator is left. -/
theorem outputText_canonical_iff {p : List UInt8}
    (hNames : ComponentNames ((components slash dot p).foldl outputStep [])) :
    pathText slash ((components slash dot p).foldl outputStep []) = canonicalPath slash dot p ↔
    (pathDepth p).isDirty = false := by
  have hParts : ∀ c ∈ components slash dot p, c ≠ [] := by
    intro c hc
    exact (components_spec slash dot hc).1
  have hRep := depthRep_components hParts
  have hResolved : ∀ c ∈ resolve dot (components slash dot p), c ≠ [] ∧ slash ∉ c := by
    intro c hc
    have hSpec := components_spec slash dot (mem_resolve dot hc).1
    exact ⟨hSpec.1, hSpec.2.2⟩
  rw [pathDepth]
  generalize (components slash dot p).foldl depthStep .root = d at hRep ⊢
  cases d with
  | root =>
    rw [hRep.1, canonicalPath, hRep.2]
    simp [PathDepth.isDirty]
  | clean n =>
    rw [hRep.1, canonicalPath]
    simp [PathDepth.isDirty]
  | dirty n atSeparator =>
    obtain ⟨_, _, hEmpty, _, _⟩ := hRep
    simp only [PathDepth.isDirty, Bool.true_eq_false, iff_false]
    intro hText
    have hEq :=
      pathText_injective slash hNames.separated (fun c hc => (hResolved c hc).2) hNames.rooted
        (by
          intro hOne
          exact (hResolved [] (by simp [hOne])).1 rfl)
        hText
    rw [hEq] at hEmpty
    exact (hResolved [] hEmpty).1 rfl

/- The canonical path itself leaves no separator behind. -/
theorem pathDepth_canonicalPath (p : List UInt8) :
    (pathDepth (canonicalPath slash dot p)).isDirty = false := by
  have hNames : ∀ c ∈ resolve dot (components slash dot p), c ≠ [] ∧ c ≠ [dot] ∧ slash ∉ c := by
    intro c hc
    exact components_spec slash dot (mem_resolve dot hc).1
  have hUp : ∀ c ∈ resolve dot (components slash dot p), c ≠ [dot, dot] :=
    fun c hc => (mem_resolve dot hc).2
  rw [pathDepth, canonicalPath, components_pathText slash dot hNames]
  generalize resolve dot (components slash dot p) = cs at hUp
  clear hNames
  induction cs using List.reverseRecOn with
  | nil => rfl
  | append_singleton cs c ih =>
    have hOld := ih fun d hd => hUp d (by simp [hd])
    rw [List.foldl_append]
    simp only [List.foldl_cons, List.foldl_nil, depthStep, if_neg (hUp c (by simp))]
    cases hd : cs.foldl depthStep .root with
    | root => rfl
    | clean n => rfl
    | dirty n atSeparator =>
      rw [hd] at hOld
      exact hOld

----------
-- Lookup

theorem stringAt_cString (hZero : (0 : UInt8) ∉ l) : StringAt (cString l) 0 l := by
  refine ⟨?_, by simp [cString], hZero⟩
  have hSuffix : ∀ k m, l = k ++ m → BytesAt (cString l) k.length m := by
    intro k m
    induction m generalizing k with
    | nil => simp [BytesAt]
    | cons c cs ih =>
      intro hl
      constructor
      · simp [cString, hl]
      · have hRest := ih (k ++ [c]) (by simp [hl])
        simpa using hRest
  exact hSuffix [] l rfl

theorem pathEqualsLoop_iff {k : ByteBuffer} {turns : Nat} (ht : StringAt b i t)
    (hl : StringAt k i l) (hTurns : l.length < turns) :
    pathEqualsLoop b k turns i = true ↔ t = l := by
  induction l generalizing i turns t with
  | nil =>
    obtain ⟨turns, rfl⟩ := Nat.exists_eq_add_of_lt hTurns
    have hEnd : k i = 0 := hl.terminated
    cases t with
    | nil =>
      have hNul : b i = 0 := ht.terminated
      simp [pathEqualsLoop, hEnd, hNul]
    | cons c cs =>
      have hHead := ht.head_ne
      simp [pathEqualsLoop, hEnd, hHead]
  | cons d ds ih =>
    cases turns with
    | zero => exact absurd hTurns (Nat.not_lt_zero _)
    | succ turns =>
      have hd := hl.head_ne
      cases t with
      | nil =>
        have hNul : b i = 0 := ht.terminated
        simp [pathEqualsLoop, hNul, hd, Ne.symm hd.2]
      | cons c cs =>
        have hc := ht.head_ne
        have hRest := ih ht.tail hl.tail (Nat.lt_of_succ_lt_succ hTurns)
        by_cases hEq : c = d
        · subst hEq
          simp [pathEqualsLoop, hc, hd, hRest]
        · simp [pathEqualsLoop, hc, hd, hEq]

theorem vfsNodePaths_spec :
    (∀ p ∈ vfsNodePaths, (0 : UInt8) ∉ p ∧ p.length < 64) ∧ vfsNodePaths.Nodup := by
  decide +kernel

/- The first node with the path is found, and it is alone. -/
theorem findNodeLoop_iff (hText : StringAt b 0 t) {ps : List (List UInt8)}
    (hPaths : ∀ p ∈ ps, (0 : UInt8) ∉ p ∧ p.length < 64) (hNodup : ps.Nodup) (first i : Nat) :
    findNodeLoop b first ps = some i ↔ first ≤ i ∧ ps[i - first]? = some t := by
  induction ps generalizing first with
  | nil => simp [findNodeLoop]
  | cons p ps ih =>
    have hp := hPaths p (by simp)
    have hEquals : vfsPathEquals b (cString p) = true ↔ t = p :=
      pathEqualsLoop_iff hText (stringAt_cString hp.1) hp.2
    rw [List.nodup_cons] at hNodup
    have hRest := ih (fun q hq => hPaths q (by simp [hq])) hNodup.2 (first + 1)
    rw [findNodeLoop]
    by_cases hEq : t = p
    · rw [if_pos (hEquals.mpr hEq)]
      constructor
      · intro hFound
        have hi : first = i := Option.some.inj hFound
        simp [← hi, hEq]
      · rintro ⟨hLe, hAt⟩
        cases hk : i - first with
        | zero =>
          congr 1
          omega
        | succ k =>
          rw [hk, List.getElem?_cons_succ] at hAt
          exact absurd (hEq ▸ List.mem_of_getElem? hAt) hNodup.1
    · rw [if_neg (fun h => hEq (hEquals.mp h)), hRest]
      constructor
      · rintro ⟨hLe, hAt⟩
        refine ⟨by omega, ?_⟩
        rwa [show i - first = i - (first + 1) + 1 by omega, List.getElem?_cons_succ]
      · rintro ⟨hLe, hAt⟩
        cases hk : i - first with
        | zero =>
          rw [hk, List.getElem?_cons_zero] at hAt
          exact absurd (Option.some.inj hAt).symm hEq
        | succ k =>
          rw [hk, List.getElem?_cons_succ] at hAt
          refine ⟨by omega, ?_⟩
          rwa [show i - (first + 1) = k by omega]

----------
-- Canonical Resolution

/-
  A path is resolved canonically: it is normalised to its canonical path, it finds the node of
  that path and no other, and normalising the result again gives it back.
-/
structure ResolvesCanonically (path scratch : ByteBuffer) (p : List UInt8) : Prop where
  normalizes :
    ∃ b, vfsNormalizePath path scratch = some (some b) ∧ StringAt b 0 (canonicalPath slash dot p)
  finds : ∀ i, vfsFindNode path scratch = some (some i) ↔
      vfsNodePaths[i]? = some (canonicalPath slash dot p)
  stable : ∀ b t again, vfsNormalizePath path scratch = some (some b) → StringAt b 0 t →
      ∃ b', vfsNormalizePath b again = some (some b') ∧ StringAt b' 0 t

theorem canonicalPath_cons (p : List UInt8) : ∃ m, canonicalPath slash dot p = slash :: m :=
  ⟨_, rfl⟩

/-
  An absolute path of less than 64 bytes is resolved canonically if and only if it leaves no
  separator behind.
-/
theorem resolvesCanonically_iff (path scratch : ByteBuffer) (m : List UInt8)
    (hString : StringAt path 0 (slash :: m)) (hShort : (slash :: m).length < 64) :
    ResolvesCanonically path scratch (slash :: m) ↔ (pathDepth (slash :: m)).isDirty = false := by
  obtain ⟨b, hNormal, hOutput⟩ := vfsNormalizePath_rep hString hShort scratch
  have hIff := outputText_canonical_iff hOutput.toComponentNames
  constructor
  · intro hResolves
    obtain ⟨b', hNormal', hText⟩ := hResolves.normalizes
    rw [hNormal, Option.some.injEq, Option.some.injEq] at hNormal'
    exact hIff.mp (hOutput.text.unique (hNormal' ▸ hText))
  · intro hClean
    have hText := hOutput.text
    have hLength := hOutput.short
    rw [hIff.mpr hClean] at hText hLength
    refine ⟨⟨b, hNormal, hText⟩, ?_, ?_⟩
    · intro i
      have hFind := findNodeLoop_iff hText vfsNodePaths_spec.1 vfsNodePaths_spec.2 0 i
      simpa [vfsFindNode, hNormal] using hFind
    · intro b' t again hNormal' ht
      rw [hNormal, Option.some.injEq, Option.some.injEq] at hNormal'
      subst hNormal'
      rw [ht.unique hText]
      obtain ⟨n, hn⟩ := canonicalPath_cons (slash :: m)
      obtain ⟨b'', hAgain, hOutput'⟩ := vfsNormalizePath_rep (hn ▸ hText) (hn ▸ hLength) again
      have hIff' := outputText_canonical_iff hOutput'.toComponentNames
      refine ⟨b'', hAgain, ?_⟩
      have hText' := hOutput'.text
      rw [hIff'.mpr (hn ▸ pathDepth_canonicalPath _), ← hn, canonicalPath_idempotent] at hText'
      exact hText'

theorem resolvesCanonically_iff_up_to_root :
    ResolvesCanonically (cString (textBytes "/usr/../bin/./"))
      (fun _ => 0) (textBytes "/usr/../bin/./") :=
  (resolvesCanonically_iff _ _ (textBytes "usr/../bin/./") (stringAt_cString (by decide +kernel))
    (by decide +kernel)).mpr (by decide +kernel)

/- `/usr/share/..` is normalised to `/usr/`. -/
theorem normalize_leaves_separator : ¬ ResolvesCanonically (cString (textBytes "/usr/share/.."))
      (fun _ => 0) (textBytes "/usr/share/..") := by
  intro hResolves
  have hFind := (hResolves.finds 6).mpr (by decide +kernel)
  exact absurd hFind (by decide +kernel)

end LiamOS.X64
