import Mathlib.Data.List.Basic

/-
  Text that is written to a buffer of a fixed size.

  A writer counts every character and stores those in front of the last place of its buffer, which
  is kept for the terminator. So the count is the length of the whole text and what is stored
  never leaves the buffer.

  Key definitions: `Writer`, `put`, `puts`, `close`, `decimalText`.
-/

namespace LiamOS.BoundedText

----------
-- Writers

/- The characters counted and the places stored to, in order. -/
structure Writer where
  offset : Nat
  stores : List (Nat × UInt8)

def start : Writer := ⟨0, []⟩

def put (size : Nat) (w : Writer) (c : UInt8) : Writer where
  offset := w.offset + 1
  stores := if w.offset + 1 < size then w.stores ++ [(w.offset, c)] else w.stores

def puts (size : Nat) (text : List UInt8) (w : Writer) : Writer := text.foldl (put size) w

/- The terminator, behind the text or on the last place. -/
def close (size : Nat) (w : Writer) : List (Nat × UInt8) :=
  w.stores ++ [(if w.offset < size then w.offset else size - 1, 0)]

/- All stores are to places of the buffer. -/
def Within (size : Nat) (stores : List (Nat × UInt8)) : Prop := ∀ store ∈ stores, store.1 < size

variable {size : Nat}
variable {w : Writer}

theorem puts_offset (text : List UInt8) : (puts size text w).offset = w.offset + text.length := by
  induction text generalizing w with
  | nil => rfl
  | cons c text ih =>
    have hRest := @ih (put size w c)
    rw [List.length_cons]
    change (puts size text (put size w c)).offset = _
    rw [hRest]
    change w.offset + 1 + text.length = _
    omega

theorem Within.put (hWithin : Within size w.stores) (c : UInt8) :
    Within size (put size w c).stores := by
  intro store hStore
  unfold BoundedText.put at hStore
  dsimp only at hStore
  split at hStore
  · rcases List.mem_append.mp hStore with hOld | hNew
    · exact hWithin store hOld
    · rw [List.mem_singleton.mp hNew]
      dsimp only
      omega
  · exact hWithin store hStore

theorem Within.puts (hWithin : Within size w.stores) (text : List UInt8) :
    Within size (puts size text w).stores := by
  induction text generalizing w with
  | nil => exact hWithin
  | cons c text ih => exact ih (hWithin.put c)

theorem Within.close (hWithin : Within size w.stores) (hSize : 0 < size) :
    Within size (close size w) := by
  intro store hStore
  rcases List.mem_append.mp hStore with hOld | hNew
  · exact hWithin store hOld
  · rw [List.mem_singleton.mp hNew]
    dsimp only
    split <;> omega

theorem within_start (size : Nat) : Within size start.stores :=
  fun _ hStore => absurd hStore List.not_mem_nil

----------
-- Numbers

/- The digits of a number, last one first, in some turns. -/
def decimalDigits : Nat → Nat → List UInt8 → List UInt8
| 0, _, digits => digits
| turns + 1, value, digits =>
    if value = 0 then
      digits
    else
      decimalDigits turns (value / 10) (UInt8.ofNat (48 + value % 10) :: digits)

/- The text of a number of at most ten digits. -/
def decimalText (value : Nat) : List UInt8 := if value = 0 then [48] else decimalDigits 10 value []

theorem decimalDigits_length_le (turns value : Nat) (digits : List UInt8) :
    (decimalDigits turns value digits).length ≤ digits.length + turns := by
  induction turns generalizing value digits with
  | zero => exact Nat.le_refl _
  | succ turns ih =>
    rw [decimalDigits]
    split
    · omega
    · have hRest := ih (value / 10) (UInt8.ofNat (48 + value % 10) :: digits)
      rw [List.length_cons] at hRest
      omega

theorem decimalText_length_le (value : Nat) : (decimalText value).length ≤ 10 := by
  unfold decimalText
  split
  · decide
  · have hLength := decimalDigits_length_le 10 value []
    rw [List.length_nil, Nat.zero_add] at hLength
    exact hLength

end LiamOS.BoundedText
