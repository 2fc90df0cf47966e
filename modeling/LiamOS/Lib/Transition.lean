import Mathlib

/-
  Runs of a deterministic machine.

  `step s l` is the state after the machine takes the step labelled `l` in state `s`, and `none`
  when that step never finishes. A run folds `step` over the labels, so a run that gives `some`
  state is one in which every step finished.

  Key definitions: `Transition.run`, `Transition.Reachable`, `Transition.steps`,
  `Transition.orbit`.
-/

namespace LiamOS.Transition

variable {S L : Type}
variable {step : S → L → Option S}
variable {Inv : S → Prop} {s s' t : S} {l : L} {ls : List L} {next : S → Option S} {i j : Nat}

/- The state after a list of labels, if every step ends. -/
def run (step : S → L → Option S) : S → List L → Option S
| s, [] => some s
| s, l :: ls =>
    match step s l with
    | none => none
    | some s' => run step s' ls

/- The states some run from `s` leads to. -/
def Reachable (step : S → L → Option S) (s t : S) : Prop := ∃ ls, run step s ls = some t

/-
  A property that every step re-establishes, together with the fact that the step ends, holds
  after every run.
-/
theorem run_total (hStep : ∀ s l, Inv s → ∃ s', step s l = some s' ∧ Inv s') (hInv : Inv s)
    (ls : List L) :
    ∃ t, run step s ls = some t ∧ Inv t := by
  induction ls generalizing s with
  | nil => exact ⟨s, rfl, hInv⟩
  | cons l ls ih =>
    rcases hStep s l hInv with ⟨s', hTaken, hNext⟩
    rcases ih hNext with ⟨t, hRun, hEnd⟩
    exact ⟨t, by simp [run, hTaken, hRun], hEnd⟩

namespace Reachable

theorem refl (s : S) : Reachable step s s := ⟨[], rfl⟩

/- A property kept by every finished step holds when reached. -/
theorem induct (hStep : ∀ s l s', Inv s → step s l = some s' → Inv s') (hReach : Reachable step s t)
    (hInv : Inv s) :
    Inv t := by
  rcases hReach with ⟨ls, hRun⟩
  induction ls generalizing s with
  | nil =>
    have hEq : s = t := Option.some.inj hRun
    subst hEq
    exact hInv
  | cons l ls ih =>
    cases hTaken : step s l with
    | none => simp [run, hTaken] at hRun
    | some s' =>
      simp only [run, hTaken] at hRun
      exact ih (hStep s l s' hInv hTaken) hRun

end Reachable

----------
-- The Steps of a Run

/- A step that was taken, with the states around it. -/
structure Taken (S L : Type) where
  before : S
  label : L
  after : S

/- The steps a run takes, up to one that never finishes. -/
def steps (step : S → L → Option S) : S → List L → List (Taken S L)
| _, [] => []
| s, l :: ls =>
    match step s l with
    | none => []
    | some s' => ⟨s, l, s'⟩ :: steps step s' ls

theorem steps_cons_some (hTaken : step s l = some s') (ls : List L) :
    steps step s (l :: ls) = ⟨s, l, s'⟩ :: steps step s' ls := by
  rw [steps, hTaken]

theorem steps_cons_none (hStuck : step s l = none) (ls : List L) : steps step s (l :: ls) = [] := by
  rw [steps, hStuck]

theorem run_cons_some (hTaken : step s l = some s') (ls : List L) :
    run step s (l :: ls) = run step s' ls := by
  rw [run, hTaken]

theorem run_append (s : S) (ls ms : List L) :
    run step s (ls ++ ms) = (run step s ls).bind fun t => run step t ms := by
  induction ls generalizing s with
  | nil => rfl
  | cons l ls ih =>
    cases hTaken : step s l with
    | none => simp [run, hTaken]
    | some s' => rw [List.cons_append, run_cons_some hTaken, run_cons_some hTaken, ih]

/- One part of a run after another. -/
theorem run_append_some (hRun : run step s ls = some t) (ms : List L) :
    run step s (ls ++ ms) = run step t ms := by
  rw [run_append, hRun, Option.bind_some]

/- A step behind a run is one of the steps of the longer run. -/
theorem mem_steps_of_run {u : S} (hRun : run step s ls = some t) (hTaken : step t l = some u) :
    ⟨t, l, u⟩ ∈ steps step s (ls ++ [l]) := by
  induction ls generalizing s with
  | nil =>
    cases hRun
    rw [List.nil_append, steps_cons_some hTaken]
    exact List.mem_cons_self
  | cons m ls ih =>
    cases hFirst : step s m with
    | none => simp [run, hFirst] at hRun
    | some s' =>
      rw [run_cons_some hFirst] at hRun
      rw [List.cons_append, steps_cons_some hFirst]
      exact List.mem_cons_of_mem _ (ih hRun)

/-
  An invariant that every step meeting a condition keeps holds after a run whose steps all meet
  it.
-/
theorem run_forall {Inv : S → Prop} {Meets : Taken S L → Prop}
    (hStep :
      ∀ t : Taken S L, Inv t.before → step t.before t.label = some t.after → Meets t → Inv t.after)
    {s u : S}
    (hInv : Inv s)
    {ls : List L}
    (hRun : run step s ls = some u)
    (hMeets : ∀ t ∈ steps step s ls, Meets t) :
    Inv u := by
  induction ls generalizing s with
  | nil =>
    cases hRun
    exact hInv
  | cons l ls ih =>
    cases hTaken : step s l with
    | none => simp [run, hTaken] at hRun
    | some s' =>
      rw [run_cons_some hTaken] at hRun
      rw [steps_cons_some hTaken, List.forall_mem_cons] at hMeets
      exact ih (hStep ⟨s, l, s'⟩ hInv hTaken hMeets.1) hRun hMeets.2

/-
  A property that every step meeting a condition has wherever an invariant holds, and the
  invariant again after it.
-/
theorem steps_forall {Inv : S → Prop} {Meets Holds : Taken S L → Prop}
    (hStep : ∀ t : Taken S L, Inv t.before →
        step t.before t.label = some t.after → Meets t → Holds t ∧ Inv t.after)
    {s : S}
    (hInv : Inv s)
    {ls : List L}
    (hMeets : ∀ t ∈ steps step s ls, Meets t) :
    ∀ t ∈ steps step s ls, Holds t := by
  induction ls generalizing s with
  | nil => simp [steps]
  | cons l ls ih =>
    cases hTaken : step s l with
    | none => simp [steps_cons_none hTaken]
    | some s' =>
      rw [steps_cons_some hTaken, List.forall_mem_cons] at hMeets ⊢
      obtain ⟨hHolds, hNext⟩ := hStep ⟨s, l, s'⟩ hInv hTaken hMeets.1
      exact ⟨hHolds, ih hNext hMeets.2⟩

/-
  A property of single steps that is equivalent to a condition on them wherever an invariant
  holds, and that gives the invariant again, is equivalent to the condition along every run.
-/
theorem steps_iff {Inv : S → Prop} {Holds Meets : Taken S L → Prop}
    (hStep : ∀ t : Taken S L, Inv t.before →
        step t.before t.label = some t.after → (Holds t ↔ Meets t) ∧ (Holds t → Inv t.after))
    {s : S}
    (hInv : Inv s)
    (ls : List L) :
    (∀ t ∈ steps step s ls, Holds t) ↔ ∀ t ∈ steps step s ls, Meets t := by
  constructor
  · refine steps_forall ?_ hInv
    intro t hBefore hTaken hHolds
    obtain ⟨hSame, hNext⟩ := hStep t hBefore hTaken
    exact ⟨hSame.mp hHolds, hNext hHolds⟩
  · refine steps_forall ?_ hInv
    intro t hBefore hTaken hMeets
    obtain ⟨hSame, hNext⟩ := hStep t hBefore hTaken
    exact ⟨hSame.mpr hMeets, hNext (hSame.mpr hMeets)⟩

----------
-- Orbits

/- The states of a machine without labels, until it stops. -/
def orbit (next : S → Option S) (s : S) : Nat → Option S
| 0 => some s
| n + 1 => (orbit next s n).bind next

theorem orbit_add_eq (hEq : orbit next s i = orbit next s j) (k : Nat) :
    orbit next s (i + k) = orbit next s (j + k) := by
  induction k with
  | zero => exact hEq
  | succ k ih => rw [← Nat.add_assoc, ← Nat.add_assoc, orbit, orbit, ih]

/- The orbit after one step starts at the next state. -/
theorem orbit_succ_of_next (hNext : next s = some t) (n : Nat) :
    orbit next s (n + 1) = orbit next t n := by
  induction n with
  | zero => simp [orbit, hNext]
  | succ n ih => rw [orbit, ih, orbit]

theorem orbit_none_of_le (hNone : orbit next s i = none) (hLe : i ≤ j) : orbit next s j = none := by
  induction hLe with
  | refl => exact hNone
  | step _ ih => rw [orbit, ih, Option.bind_none]

/- A machine that stays in a finite set stops if and only if it visits no state twice. -/
theorem orbit_ends_iff {states : Set S} (hFinite : states.Finite)
    (hStates : ∀ n t, orbit next s n = some t → t ∈ states) :
    (∃ n, orbit next s n = none) ↔
      ∀ i j t, i < j → orbit next s i = some t → orbit next s j ≠ some t := by
  classical
  constructor
  · intro hEnds i j t hLess hi hj
    have hLast := Nat.find_spec hEnds
    have hBefore : j < Nat.find hEnds := by
      by_contra hNot
      have hNone := orbit_none_of_le hLast (Nat.le_of_not_lt hNot)
      rw [hj] at hNone
      exact Option.some_ne_none t hNone
    have hEarlier : orbit next s (i + (Nat.find hEnds - j)) = none := by
      rw [orbit_add_eq (hi.trans hj.symm), show j + (Nat.find hEnds - j) = Nat.find hEnds by omega]
      exact hLast
    exact Nat.find_min hEnds (by omega) hEarlier
  · intro hOnce
    by_contra hNever
    push Not at hNever
    choose visited hVisited using fun n => Option.ne_none_iff_exists'.mp (hNever n)
    have hInjective : Function.Injective visited := by
      intro i j hEq
      by_contra hNe
      rcases Nat.lt_or_gt_of_ne hNe with hLess | hLess
      · exact hOnce i j _ hLess (hVisited i) (hEq ▸ hVisited j)
      · exact hOnce j i _ hLess (hVisited j) (hEq ▸ hVisited i)
    have hRange : Set.range visited ⊆ states := by
      rintro t ⟨n, rfl⟩
      exact hStates n _ (hVisited n)
    exact Set.infinite_range_of_injective hInjective (hFinite.subset hRange)

end LiamOS.Transition
