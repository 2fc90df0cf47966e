import Mathlib

/-
  Fixed-width unsigned arithmetic on natural numbers.

  A machine word of width `w` is a natural number below `2 ^ w`; an operation that may overflow is
  followed by an explicit reduction. Bit masks are the bit operations of `Nat`, with the lemmas
  that turn them into the quotient and remainder arithmetic `omega` decides.

  Key definitions: `Word.u32`, `Word.u64`, `Word.not32`, `Word.not64`.
-/

namespace LiamOS.Word

variable {x : Nat}

----------
-- Reduction To A Width

/- Reduction to 32 bits. -/
def u32 (x : Nat) : Nat := x % 4294967296

/- Reduction to 64 bits. -/
def u64 (x : Nat) : Nat := x % 18446744073709551616

theorem u32_lt (x : Nat) : u32 x < 4294967296 := Nat.mod_lt x (by decide)

theorem u64_lt (x : Nat) : u64 x < 18446744073709551616 := Nat.mod_lt x (by decide)

theorem u32_of_lt (hx : x < 4294967296) : u32 x = x := Nat.mod_eq_of_lt hx

theorem u64_of_lt (hx : x < 18446744073709551616) : u64 x = x := Nat.mod_eq_of_lt hx

/- Subtraction of a 32-bit word, with borrow dropped. -/
def sub32 (x y : Nat) : Nat := u32 (x + 4294967296 - y)

theorem sub32_of_le {y : Nat} (hx : x < 4294967296) (hy : y ≤ x) : sub32 x y = x - y := by
  unfold sub32 u32
  omega

/- Bitwise complement of a 32-bit word. -/
def not32 (x : Nat) : Nat := 4294967295 - x

/- Bitwise complement of a 64-bit word. -/
def not64 (x : Nat) : Nat := 18446744073709551615 - x

----------
-- Masks

/- Masking with the complement of `2 ^ k - 1` clears the `k` low bits. -/
theorem and_complement_low {w k : Nat} (hk : k ≤ w) (hx : x < 2 ^ w) :
    x &&& (2 ^ w - 1 - (2 ^ k - 1)) = x - x % 2 ^ k := by
  have hPow : 2 ^ k ≤ 2 ^ w := Nat.pow_le_pow_right (by omega) hk
  have hPos : 0 < 2 ^ k := Nat.two_pow_pos k
  have hMask : 2 ^ w - 1 - (2 ^ k - 1) = 2 ^ w - (2 ^ k - 1 + 1) := by omega
  have hRound : x - x % 2 ^ k = (x >>> k) <<< k := by
    rw [Nat.shiftRight_eq_div_pow, Nat.shiftLeft_eq, Nat.mul_comm]
    have hSplit := Nat.div_add_mod x (2 ^ k)
    omega
  rw [hMask, hRound]
  apply Nat.eq_of_testBit_eq
  intro i
  rw [Nat.testBit_and, Nat.testBit_two_pow_sub_succ (by omega),
    Nat.testBit_shiftLeft, Nat.testBit_shiftRight,
    Nat.testBit_two_pow_sub_one]
  by_cases hi : k ≤ i
  · have hIndex : k + (i - k) = i := by omega
    have hHigh : x.testBit i = true → i < w := by
      intro hBit
      by_contra hWidth
      have hSmall : x < 2 ^ i := lt_of_lt_of_le hx (Nat.pow_le_pow_right (by omega) (by omega))
      simp [Nat.testBit_lt_two_pow hSmall] at hBit
    simpa [hi, hIndex] using hHigh
  · have hLow : i < k := by omega
    simp [hi, hLow]

theorem and_not32_low (k : Nat) (hk : k ≤ 32) (hx : x < 4294967296) :
    x &&& not32 (2 ^ k - 1) = x - x % 2 ^ k :=
  and_complement_low (w := 32) hk hx

theorem and_not64_low (k : Nat) (hk : k ≤ 64) (hx : x < 18446744073709551616) :
    x &&& not64 (2 ^ k - 1) = x - x % 2 ^ k :=
  and_complement_low (w := 64) hk hx

/- Setting flags below the alignment of a word adds them. -/
theorem or_eq_add_of_low {f : Nat} (k : Nat) (hx : x % 2 ^ k = 0) (hf : f < 2 ^ k) :
    x ||| f = x + f := by
  have hSplit : x = 2 ^ k * (x / 2 ^ k) := (Nat.mul_div_cancel' (Nat.dvd_of_mod_eq_zero hx)).symm
  rw [hSplit]
  exact (Nat.two_pow_add_eq_or_of_lt hf (x / 2 ^ k)).symm

end LiamOS.Word
