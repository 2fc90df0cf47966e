import Mathlib

/-
  An arena of pages of one size. Offsets into the arena run from page to page in their order;
  addresses run straight on only where each page lies right behind the one before it.

  Key definitions: `Arena.place`, `Arena.Ascending`.
-/

namespace LiamOS.Arena

variable {P count i x : Nat} {page : Nat → Nat}

/- The address at an offset. -/
def place (P : Nat) (page : Nat → Nat) (x : Nat) : Nat := page (x / P) + x % P

/- Each of the first pages lies right behind the one before it. -/
def Ascending (P : Nat) (page : Nat → Nat) (count : Nat) : Prop :=
  ∀ i, i + 1 < count → page (i + 1) = page i + P

theorem Ascending.page_eq (hPages : Ascending P page count) (hi : i < count) :
    page i = page 0 + P * i := by
  induction i with
  | zero => rfl
  | succ i ih => rw [hPages i hi, ih (by omega), Nat.mul_succ, Nat.add_assoc]

theorem Ascending.place_eq (hPages : Ascending P page count) (hx : x < P * count) :
    place P page x = page 0 + x := by
  have hDiv := Nat.div_add_mod x P
  rw [place, hPages.page_eq (Nat.div_lt_of_lt_mul hx)]
  omega

end LiamOS.Arena
