import Mathlib

/-
  Machines that answer calls.

  A step of such a machine takes a state and a call and gives a reply and the next state. A run is
  the list of replies with the last state. If every step of one machine is answered alike by
  another along a relation of their states, so is every run. Where what a call may answer is left
  open, the other machine is a relation.

  Key definitions: `Calls.run`, `Calls.Simulates`, `Calls.Permits`, `Calls.Always`,
  `Calls.EachStep`.
-/

namespace LiamOS.Calls

variable {S T C R : Type}
variable {s : S}

/- The replies to a list of calls, and the state behind them. -/
def run (step : S → C → R × S) : S → List C → List R × S
| s, [] => ([], s)
| s, c :: cs => ((step s c).1 :: (run step (step s c).2 cs).1, (run step (step s c).2 cs).2)

variable {step : S → C → R × S}

@[simp] theorem run_nil (s : S) : run step s [] = ([], s) := rfl

theorem run_cons (s : S) (c : C) (cs : List C) : run step s (c :: cs) =
      ((step s c).1 :: (run step (step s c).2 cs).1, (run step (step s c).2 cs).2) := rfl

/- What every step keeps holds behind every run. -/
theorem run_induct {Inv : S → Prop} (hStep : ∀ s c, Inv s → Inv (step s c).2) {s : S} (hInv : Inv s)
    (cs : List C) :
    Inv (run step s cs).2 := by
  induction cs generalizing s with
  | nil => exact hInv
  | cons c cs ih => exact ih (hStep s c hInv)

/- Related states answer every call alike and are related again behind it. -/
def Simulates (step : S → C → R × S) (step' : T → C → R × T) (Rel : S → T → Prop) : Prop :=
  ∀ s t c, Rel s t → (step s c).1 = (step' t c).1 ∧ Rel (step s c).2 (step' t c).2

theorem Simulates.run {step' : T → C → R × T} {Rel : S → T → Prop} (hSim : Simulates step step' Rel)
    {t : T} (hRel : Rel s t) (cs : List C) :
    (Calls.run step s cs).1 = (Calls.run step' t cs).1 ∧
      Rel (Calls.run step s cs).2 (Calls.run step' t cs).2 := by
  induction cs generalizing s t with
  | nil => exact ⟨rfl, hRel⟩
  | cons c cs ih =>
    obtain ⟨hReply, hNext⟩ := hSim s t c hRel
    obtain ⟨hReplies, hEnd⟩ := ih hNext
    rw [run_cons, run_cons, hReply, hReplies]
    exact ⟨rfl, hEnd⟩

/-
  A specification that says for every state and call which replies and next states it permits,
  along a list of calls.
-/
def Permits (spec : T → C → R → T → Prop) : T → List C → List R → T → Prop
| t, [], [], t' => t' = t
| t, c :: cs, r :: rs, t' => ∃ u, spec t c r u ∧ Permits spec u cs rs t'
| _, _, _, _ => False

/-
  If every step from a state with the invariant is permitted for the view of the state, so is
  every run.
-/
theorem permits_run {spec : T → C → R → T → Prop} {Inv : S → Prop} {view : S → T}
    (hStep : ∀ s c, Inv s → Inv (step s c).2 ∧ spec (view s) c (step s c).1 (view (step s c).2))
    (hInv : Inv s) (cs : List C) :
    Permits spec (view s) cs (run step s cs).1 (view (run step s cs).2) := by
  induction cs generalizing s with
  | nil => exact rfl
  | cons c cs ih =>
    obtain ⟨hNext, hSpec⟩ := hStep s c hInv
    exact ⟨view (step s c).2, hSpec, ih hNext⟩

/- A property of every state of a run. -/
def Always (step : S → C → R × S) (P : S → Prop) : S → List C → Prop
| s, [] => P s
| s, c :: cs => P s ∧ Always step P (step s c).2 cs

/- A condition on every step of a run. -/
def EachStep (step : S → C → R × S) (Q : S → C → Prop) : S → List C → Prop
| _, [] => True
| s, c :: cs => Q s c ∧ EachStep step Q (step s c).2 cs

/-
  If a step keeps a property exactly under a condition, a run keeps it exactly when all its steps
  meet the condition.
-/
theorem always_iff_eachStep {P : S → Prop} {Q : S → C → Prop}
    (hStep : ∀ s c, P s → (P (step s c).2 ↔ Q s c)) (hStart : P s) (cs : List C) :
    Always step P s cs ↔ EachStep step Q s cs := by
  induction cs generalizing s with
  | nil => exact ⟨fun _ => trivial, fun _ => hStart⟩
  | cons c cs ih =>
    constructor
    · rintro ⟨-, hRest⟩
      have hNext : P (step s c).2 := by
        cases cs with
        | nil => exact hRest
        | cons c' cs' => exact hRest.1
      exact ⟨(hStep s c hStart).mp hNext, (ih hNext).mp hRest⟩
    · rintro ⟨hFirst, hRest⟩
      have hNext := (hStep s c hStart).mpr hFirst
      exact ⟨hStart, (ih hNext).mpr hRest⟩

/-
  The same where the law follows from an invariant that a step keeps under the condition and that
  fails otherwise.
-/
theorem always_iff_eachStep_of_invariant {P Inv : S → Prop} {Q : S → C → Prop}
    (hLaw : ∀ s, Inv s → P s) (hKeep : ∀ s c, Inv s → Q s c → Inv (step s c).2)
    (hBreak : ∀ s c, Inv s → ¬ Q s c → ¬ P (step s c).2) {s : S} (hStart : Inv s) (cs : List C) :
    Always step P s cs ↔ EachStep step Q s cs := by
  induction cs generalizing s with
  | nil => exact ⟨fun _ => trivial, fun _ => hLaw s hStart⟩
  | cons c cs ih =>
    constructor
    · rintro ⟨-, hRest⟩
      have hFirst : Q s c := by
        by_contra hFails
        refine hBreak s c hStart hFails ?_
        cases cs with
        | nil => exact hRest
        | cons c' cs' => exact hRest.1
      exact ⟨hFirst, (ih (hKeep s c hStart hFirst)).mp hRest⟩
    · rintro ⟨hFirst, hRest⟩
      exact ⟨hLaw s hStart, (ih (hKeep s c hStart hFirst)).mpr hRest⟩

end LiamOS.Calls
