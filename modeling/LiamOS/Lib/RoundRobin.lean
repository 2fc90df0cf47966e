import Mathlib

/-
  Round robin over the slots `0 .. n - 1`.

  A scan starts at a cursor and wraps around; the first slot it finds is taken and the cursor
  moves behind it. Distances are measured from the cursor in scanning order, so a slot that is
  wanted at every scan comes closer to the cursor until it is taken, and no slot behind it is
  taken before.

  Key definitions: `RoundRobin.scan`, `RoundRobin.distance`.
-/

namespace LiamOS.RoundRobin

variable {n : Nat}
variable {cursor other slot : Nat}
variable {behind : Nat}

/- The slots in the order in which a scan visits them. -/
def scan (n cursor : Nat) : List Nat :=
  (List.range n).map fun attempts => (cursor % n + attempts) % n

/- How many slots a scan passes before it visits `slot`. -/
def distance (n cursor slot : Nat) : Nat := (slot + (n - cursor % n)) % n

/- A distance is the gap, wrapped around below the cursor. -/
theorem distance_eq (hSlot : slot < n) :
    distance n cursor slot = if cursor % n ≤ slot then slot - cursor % n
      else slot + n - cursor % n := by
  have hCursor : cursor % n < n := Nat.mod_lt _ (Nat.zero_lt_of_lt hSlot)
  unfold distance
  split
  · next hLe =>
      rw [show slot + (n - cursor % n) = (slot - cursor % n) + n by omega,
        Nat.add_mod_right, Nat.mod_eq_of_lt (by omega)]
  · next hLess =>
      rw [Nat.mod_eq_of_lt (by omega)]
      omega

/- The slot visited at an attempt has that distance. -/
theorem visited_distance {attempts : Nat} (hAttempts : attempts < n) :
    (cursor % n + attempts) % n < n ∧
      distance n cursor ((cursor % n + attempts) % n) = attempts := by
  have hPos : 0 < n := Nat.zero_lt_of_lt hAttempts
  have hCursor : cursor % n < n := Nat.mod_lt _ hPos
  have hSlot : (cursor % n + attempts) % n < n := Nat.mod_lt _ hPos
  refine ⟨hSlot, ?_⟩
  rw [distance_eq hSlot]
  by_cases hWrap : cursor % n + attempts < n
  · rw [Nat.mod_eq_of_lt hWrap, if_pos (by omega)]
    omega
  · have hMod : (cursor % n + attempts) % n = cursor % n + attempts - n := by
      rw [Nat.mod_eq_sub_mod (by omega), Nat.mod_eq_of_lt (by omega)]
    rw [hMod, if_neg (by omega)]
    omega

/- A slot is visited at the attempt of its distance. -/
theorem visited_at_distance (hSlot : slot < n) :
    (cursor % n + distance n cursor slot) % n = slot := by
  have hCursor : cursor % n < n := Nat.mod_lt _ (Nat.zero_lt_of_lt hSlot)
  rw [distance_eq hSlot]
  split
  · next hLe =>
      rw [Nat.mod_eq_of_lt (by omega)]
      omega
  · next hLess =>
      rw [show cursor % n + (slot + n - cursor % n) = slot + n by omega,
        Nat.add_mod_right, Nat.mod_eq_of_lt hSlot]

theorem distance_injective (hSlot : slot < n) (hOther : other < n)
    (hEq : distance n cursor slot = distance n cursor other) :
    slot = other := by
  calc
    slot = (cursor % n + distance n cursor slot) % n := (visited_at_distance hSlot).symm
    _ = (cursor % n + distance n cursor other) % n := by
      rw [hEq]
    _ = other := visited_at_distance hOther

----------
-- The First Wanted Slot

variable {wanted : Nat → Bool}

theorem first_spec (hFirst : ((scan n cursor).filter wanted).head? = some slot) :
    slot < n ∧ wanted slot = true := by
  have hMem : slot ∈ (scan n cursor).filter wanted := List.mem_of_mem_head? hFirst
  rcases List.mem_filter.mp hMem with ⟨hScan, hWanted⟩
  rcases List.mem_map.mp hScan with ⟨attempts, hRange, hEq⟩
  rw [← hEq]
  exact ⟨(visited_distance (List.mem_range.mp hRange)).1, hEq ▸ hWanted⟩

/- No wanted slot is closer to the cursor than the first. -/
theorem distance_le_of_first (hFirst : ((scan n cursor).filter wanted).head? = some slot)
    (hOther : other < n) (hWanted : wanted other = true) :
    distance n cursor slot ≤ distance n cursor other := by
  rw [List.head?_filter, List.find?_eq_some_iff_append] at hFirst
  rcases hFirst with ⟨-, pre, post, hScan, hPre⟩
  -- the scan is `range n` mapped, so `pre` are its first attempts
  have hLength : pre.length < n := by
    have hAll := congrArg List.length hScan
    simp only [scan, List.length_map, List.length_range,
      List.length_append, List.length_cons] at hAll
    omega
  have hAt : ∀ attempts, attempts < n →
        (scan n cursor)[attempts]? = some ((cursor % n + attempts) % n) := by
    intro attempts hAttempts
    simp [scan, hAttempts]
  have hSlot : slot = (cursor % n + pre.length) % n := by
    have hHere := hAt _ hLength
    rw [hScan] at hHere
    simpa using hHere
  rw [hSlot, (visited_distance hLength).2]
  by_contra hCloser
  have hLess : distance n cursor other < pre.length := by omega
  have hThere := hAt _ (Nat.lt_trans hLess hLength)
  rw [visited_at_distance hOther, hScan, List.getElem?_append_left hLess] at hThere
  have hMem : other ∈ pre := List.mem_of_getElem? hThere
  have hNot := hPre other hMem
  rw [hWanted] at hNot
  exact absurd hNot (by simp)

----------
-- Moving the Cursor

/- Behind a slot, that slot is the last one in order. -/
theorem closer_after (hSlot : slot < n) (hOther : other < n) (hNe : other ≠ slot) :
    distance n ((slot + 1) % n) other < distance n ((slot + 1) % n) slot := by
  rw [distance_eq hOther, distance_eq hSlot, Nat.mod_mod]
  by_cases hLast : slot + 1 = n
  · rw [hLast, Nat.mod_self, if_pos (Nat.zero_le _), if_pos (Nat.zero_le _)]
    omega
  · rw [Nat.mod_eq_of_lt (by omega : slot + 1 < n)]
    split
    · rw [if_neg (by omega)]
      omega
    · rw [if_neg (by omega)]
      omega

/- Moving behind a closer slot takes its distance off. -/
theorem distance_after (hSlot : slot < n) (hOther : other < n)
    (hCloser : distance n cursor slot < distance n cursor other) :
    distance n ((slot + 1) % n) other = distance n cursor other - distance n cursor slot - 1 := by
  have hCursor : cursor % n < n := Nat.mod_lt _ (Nat.zero_lt_of_lt hSlot)
  rw [distance_eq hSlot, distance_eq hOther] at hCloser
  rw [distance_eq hSlot, distance_eq hOther, distance_eq hOther, Nat.mod_mod]
  by_cases hLast : slot + 1 = n
  · rw [hLast, Nat.mod_self, if_pos (Nat.zero_le _)]
    split_ifs at hCloser ⊢ <;> omega
  · rw [Nat.mod_eq_of_lt (by omega : slot + 1 < n)]
    split_ifs at hCloser ⊢ <;> omega

/-
  A wanted slot that is not the first stays closer than the slots it was closer than, and those
  are not the first.
-/
theorem closer_of_first (hFirst : ((scan n cursor).filter wanted).head? = some slot)
    (hOther : other < n) (hBehind : behind < n) (hWanted : wanted other = true) (hNe : slot ≠ other)
    (hCloser : distance n cursor other < distance n cursor behind) :
    distance n ((slot + 1) % n) other < distance n ((slot + 1) % n) behind := by
  have hSlot := (first_spec hFirst).1
  have hLe := distance_le_of_first hFirst hOther hWanted
  have hLess : distance n cursor slot < distance n cursor other := by
    apply Nat.lt_of_le_of_ne hLe
    intro hEq
    exact hNe (distance_injective hSlot hOther hEq)
  rw [distance_after hSlot hOther hLess, distance_after hSlot hBehind (Nat.lt_trans hLess hCloser)]
  omega

/- A slot behind a wanted one is not the first. -/
theorem not_first_of_closer (hOther : other < n) (hWanted : wanted other = true)
    (hCloser : distance n cursor other < distance n cursor behind) :
    ((scan n cursor).filter wanted).head? ≠ some behind := by
  intro hFirst
  have hLe := distance_le_of_first hFirst hOther hWanted
  omega

end LiamOS.RoundRobin
