import Mathlib

/-
  Machines that lend pages.

  A lender hands out pages, zero when it has none to give, and takes pages back, saying whether it
  accepted them. An account keeps beside the lender's state what a caller knows: the pages handed
  out so far, and those of them that were not accepted back since.

  Key definitions: `Lender`, `Account`, `Account.step`, `Account.run`.
-/

namespace LiamOS

structure Lender (S : Type) where
  take : S → Nat × S
  give : Nat → S → Bool × S

namespace Lender

inductive Call where
| take
| give (page : Nat)

end Lender

structure Account (S : Type) where
  state : S
  returned : List Nat
  outstanding : List Nat

namespace Account

open Lender (Call)

variable {S : Type}
variable {lender : Lender S}

/- The account of a lender that has lent nothing yet. -/
def opened (s : S) : Account S := ⟨s, [], []⟩

def step (lender : Lender S) (a : Account S) : Call → Account S
| .take =>
    let (page, s) := lender.take a.state
    if page = 0 then { a with state := s } else ⟨s, page :: a.returned, page :: a.outstanding⟩
| .give page =>
    let (accepted, s) := lender.give page a.state
    if accepted then
      { a with
        state := s
        outstanding := a.outstanding.erase page }
    else
      { a with state := s }

def run (lender : Lender S) (a : Account S) (calls : List Call) : Account S :=
  calls.foldl (step lender) a

@[simp] theorem run_nil (a : Account S) : run lender a [] = a := rfl

@[simp] theorem run_cons (a : Account S) (call : Call) (calls : List Call) :
    run lender a (call :: calls) = run lender (step lender a call) calls := rfl

theorem run_append (a : Account S) (before after : List Call) :
    run lender a (before ++ after) = run lender (run lender a before) after :=
  List.foldl_append

/- What every call keeps holds after every run. -/
theorem run_induct {Inv : Account S → Prop} (hStep : ∀ a call, Inv a → Inv (step lender a call))
    {a : Account S} (hInv : Inv a) (calls : List Call) :
    Inv (run lender a calls) := by
  induction calls generalizing a with
  | nil => exact hInv
  | cons call calls ih => exact ih (hStep a call hInv)

----------
-- One Call

theorem step_take_none {a : Account S} (hPage : (lender.take a.state).1 = 0) :
    step lender a .take = { a with state := (lender.take a.state).2 } :=
  if_pos hPage

theorem step_take_some {a : Account S} (hPage : (lender.take a.state).1 ≠ 0) : step lender a .take =
      ⟨(lender.take a.state).2, (lender.take a.state).1 :: a.returned,
        (lender.take a.state).1 :: a.outstanding⟩ :=
  if_neg hPage

theorem step_give_accepted {a : Account S} {page : Nat}
    (hGive : (lender.give page a.state).1 = true) :
    step lender a (.give page) =
      ⟨(lender.give page a.state).2, a.returned, a.outstanding.erase page⟩ :=
  if_pos hGive

theorem step_give_refused {a : Account S} {page : Nat}
    (hGive : (lender.give page a.state).1 = false) :
    step lender a (.give page) = { a with state := (lender.give page a.state).2 } :=
  if_neg (by rw [hGive]; decide)

end Account

end LiamOS
