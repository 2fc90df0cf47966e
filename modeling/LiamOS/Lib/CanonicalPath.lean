import Mathlib

/-
  Canonical absolute paths over an alphabet with a separator and a dot.

  A path is split at the separators; empty and dot components are dropped and a double dot removes
  the component before it, if there is one. The canonical path joins what is left with single
  separators.

  Key definitions: `components`, `resolveStep`, `resolve`, `pathText`, `canonicalPath`.
-/

namespace LiamOS.CanonicalPath

variable {α : Type} [DecidableEq α]
variable (sep dot : α)
variable {c seg : List α} {cs : List (List α)}
variable {p : List α}

/- The components of a path that matter. -/
def components (p : List α) : List (List α) := (p.splitOn sep).filter fun c => c ≠ [] ∧ c ≠ [dot]

/- A double dot removes the last component. -/
def resolveStep (stack : List (List α)) (c : List α) : List (List α) :=
  if c = [dot, dot] then stack.dropLast else stack ++ [c]

def resolve (cs : List (List α)) : List (List α) := cs.foldl (resolveStep dot) []

/- The absolute path of a list of components. -/
def pathText (cs : List (List α)) : List α := sep :: [sep].intercalate cs

def canonicalPath (p : List α) : List α := pathText sep (resolve dot (components sep dot p))

----------
-- Splitting

@[simp] theorem components_nil : components sep dot [] = [] := by
  simp [components]

theorem components_sep_cons (p : List α) :
    components sep dot (sep :: p) = components sep dot p := by
  have hSplit := List.splitOn_append_cons_self_of_not_mem (show sep ∉ ([] : List α) by simp) p
  rw [List.nil_append] at hSplit
  rw [components, hSplit]
  rfl

/- A first component is kept unless it is a dot. -/
theorem components_segment (hSome : seg ≠ []) (hSep : sep ∉ seg) (p : List α) :
    components sep dot (seg ++ sep :: p) =
      (if seg = [dot] then [] else [seg]) ++ components sep dot p := by
  rw [components, List.splitOn_append_cons_self_of_not_mem hSep, List.filter_cons]
  by_cases hDot : seg = [dot]
  · simp [hDot, components]
  · simp [hDot, hSome, components]

theorem components_last (hSome : seg ≠ []) (hSep : sep ∉ seg) :
    components sep dot seg = if seg = [dot] then [] else [seg] := by
  rw [components, List.splitOn_eq_singleton hSep]
  by_cases hDot : seg = [dot]
  · simp [hDot]
  · simp [hDot, hSome]

/- Leading separators add no component. -/
theorem components_dropWhile (p : List α) :
    components sep dot (p.dropWhile (· == sep)) = components sep dot p := by
  induction p with
  | nil => rfl
  | cons x xs ih =>
    by_cases hx : x = sep
    · subst hx
      rw [List.dropWhile_cons_of_pos (by simp), ih, components_sep_cons]
    · rw [List.dropWhile_cons_of_neg (by simpa using hx)]

/- A segment is followed by a separator or by the end. -/
theorem components_append {rest : List α} (hSome : seg ≠ []) (hSep : sep ∉ seg)
    (hRest : ∀ x ∈ rest.head?, x = sep) :
    components sep dot (seg ++ rest) =
      (if seg = [dot] then [] else [seg]) ++ components sep dot rest := by
  cases rest with
  | nil =>
    rw [List.append_nil, components_nil, List.append_nil]
    exact components_last sep dot hSome hSep
  | cons x xs =>
    have hx : x = sep := hRest x (by simp)
    subst hx
    rw [components_segment x dot hSome hSep, components_sep_cons]

/- No part of a split contains the separator. -/
theorem not_mem_of_mem_splitOn (hMem : c ∈ p.splitOn sep) : sep ∉ c := by
  induction p generalizing c with
  | nil =>
    rw [List.splitOn_nil, List.mem_singleton] at hMem
    simp [hMem]
  | cons x xs ih =>
    rw [List.splitOn, List.splitOnP_cons_eq_if_modifyHead] at hMem
    by_cases hx : x = sep
    · rw [if_pos (by simp [hx])] at hMem
      rcases List.mem_cons.mp hMem with hNil | hRest
      · simp [hNil]
      · exact ih hRest
    · rw [if_neg (by simp [hx])] at hMem
      cases hSplit : xs.splitOn sep with
      | nil => exact absurd hSplit (List.splitOn_ne_nil sep xs)
      | cons y ys =>
        have hParts : ∀ d ∈ y :: ys, sep ∉ d := by
          intro d hd
          exact ih (hSplit ▸ hd)
        rw [List.splitOn] at hSplit
        rw [hSplit, List.modifyHead_cons] at hMem
        rcases List.mem_cons.mp hMem with hEq | hRest
        · rw [hEq, List.mem_cons, not_or]
          exact ⟨Ne.symm hx, hParts y (by simp)⟩
        · exact hParts c (by simp [hRest])

/- Components are nonempty names without separators. -/
theorem components_spec (hMem : c ∈ components sep dot p) : c ≠ [] ∧ c ≠ [dot] ∧ sep ∉ c := by
  simp only [components, List.mem_filter, decide_eq_true_eq] at hMem
  exact ⟨hMem.2.1, hMem.2.2, not_mem_of_mem_splitOn sep hMem.1⟩

----------
-- Joining

omit [DecidableEq α] in
@[simp] theorem pathText_nil : pathText sep ([] : List (List α)) = [sep] := by
  simp [pathText]

omit [DecidableEq α] in
@[simp] theorem pathText_singleton (c : List α) : pathText sep [c] = sep :: c := by
  simp [pathText]

/- A further component stands behind a separator. -/
omit [DecidableEq α] in
theorem pathText_concat (hSome : cs ≠ []) (c : List α) :
    pathText sep (cs ++ [c]) = pathText sep cs ++ sep :: c := by
  induction cs with
  | nil => exact absurd rfl hSome
  | cons d ds ih =>
    cases ds with
    | nil => simp [pathText, List.intercalate_cons_cons]
    | cons e es =>
      have hRest := ih (by simp)
      simp only [pathText, List.cons_append, List.cons.injEq, true_and] at hRest
      simp only [pathText, List.cons_append, List.intercalate_cons_cons, hRest]
      simp

/- Different component lists have different texts. -/
theorem pathText_injective {ds : List (List α)} (hcs : ∀ c ∈ cs, sep ∉ c) (hds : ∀ d ∈ ds, sep ∉ d)
    (hcsOne : cs ≠ [[]]) (hdsOne : ds ≠ [[]]) (hEq : pathText sep cs = pathText sep ds) :
    cs = ds := by
  have hJoin : [sep].intercalate cs = [sep].intercalate ds := (List.cons.inj hEq).2
  have hSplit := congrArg (List.splitOn sep) hJoin
  by_cases hcsNil : cs = []
  · by_cases hdsNil : ds = []
    · rw [hcsNil, hdsNil]
    · rw [List.splitOn_intercalate sep hds hdsNil, hcsNil] at hSplit
      exact absurd hSplit.symm (by simpa using hdsOne)
  · by_cases hdsNil : ds = []
    · rw [List.splitOn_intercalate sep hcs hcsNil, hdsNil] at hSplit
      exact absurd hSplit (by simpa using hcsOne)
    · rwa [List.splitOn_intercalate sep hcs hcsNil,
        List.splitOn_intercalate sep hds hdsNil] at hSplit

/- The components of a text of names are the names. -/
theorem components_pathText (hcs : ∀ c ∈ cs, c ≠ [] ∧ c ≠ [dot] ∧ sep ∉ c) :
    components sep dot (pathText sep cs) = cs := by
  rw [pathText, components_sep_cons, components]
  by_cases hNil : cs = []
  · simp [hNil]
  · rw [List.splitOn_intercalate sep (fun c hc => (hcs c hc).2.2) hNil]
    refine List.filter_eq_self.mpr ?_
    intro c hc
    have hName := hcs c hc
    simp [hName.1, hName.2.1]

----------
-- Resolving

theorem resolve_concat (cs : List (List α)) (c : List α) :
    resolve dot (cs ++ [c]) = resolveStep dot (resolve dot cs) c := by
  simp [resolve]

/- Resolving keeps only components that are no double dots. -/
theorem mem_resolve (hMem : c ∈ resolve dot cs) : c ∈ cs ∧ c ≠ [dot, dot] := by
  induction cs using List.reverseRecOn with
  | nil => simp [resolve] at hMem
  | append_singleton cs d ih =>
    rw [resolve_concat, resolveStep] at hMem
    by_cases hUp : d = [dot, dot]
    · rw [if_pos hUp] at hMem
      have hOld := ih (List.mem_of_mem_dropLast hMem)
      exact ⟨by simp [hOld.1], hOld.2⟩
    · rw [if_neg hUp] at hMem
      rcases List.mem_append.mp hMem with hOld | hNew
      · exact ⟨by simp [(ih hOld).1], (ih hOld).2⟩
      · rw [List.mem_singleton.mp hNew]
        exact ⟨by simp, hUp⟩

theorem resolve_names (hcs : ∀ c ∈ cs, c ≠ [dot, dot]) : resolve dot cs = cs := by
  induction cs using List.reverseRecOn with
  | nil => rfl
  | append_singleton cs d ih =>
    rw [resolve_concat, resolveStep, if_neg (hcs d (by simp)),
      ih (fun c hc => hcs c (by simp [hc]))]

/- The canonical path is its own canonical path. -/
theorem canonicalPath_idempotent (p : List α) :
    canonicalPath sep dot (canonicalPath sep dot p) = canonicalPath sep dot p := by
  have hNames : ∀ c ∈ resolve dot (components sep dot p), c ≠ [] ∧ c ≠ [dot] ∧ sep ∉ c := by
    intro c hc
    exact components_spec sep dot (mem_resolve dot hc).1
  unfold canonicalPath
  rw [components_pathText sep dot hNames, resolve_names dot (fun c hc => (mem_resolve dot hc).2)]

end LiamOS.CanonicalPath
