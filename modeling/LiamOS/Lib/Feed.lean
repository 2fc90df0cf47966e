import Mathlib

/-
  Readers of a bounded feed.

  A feed counts the entries it was ever given and keeps the last `capacity` of them. A reader has
  a position, the number of entries it has passed; a read goes on at the first entry that is both
  kept and not yet passed, and takes at most `limit` entries from there. The receipts say which
  entries a reader took and how many the feed had been given by then.

  Key definitions: `Feed.Reader`, `Feed.Receipt`, `Feed.first`, `Feed.taken`, `Feed.Reader.read`,
  `Feed.Faithful`.
-/

namespace LiamOS.Feed

variable {capacity position total : Nat}

structure Receipt where
  index : Nat
  total : Nat

structure Reader where
  start : Nat
  position : Nat
  receipts : List Receipt

variable {r : Reader}

/- A reader that has taken nothing yet. -/
def Reader.startAt (position : Nat) : Reader := ⟨position, position, []⟩

/- The entry at which a read goes on. -/
def first
    (capacity total position : Nat) : Nat :=
  max position (total - capacity)

/- How many entries a read takes. -/
def taken (capacity total position limit : Nat) : Nat :=
  min limit (total - first capacity total position)

/- The receipts of one read. -/
def batch (capacity total position limit : Nat) : List Receipt :=
  (List.range' (first capacity total position)
    (taken capacity total position limit)).map fun index => ⟨index, total⟩

def Reader.read (capacity total limit : Nat) (r : Reader) : Reader where
  start := r.start
  position := if taken capacity total r.position limit = 0 then
      r.position
    else
      first capacity total r.position + taken capacity total r.position limit
  receipts := r.receipts ++ batch capacity total r.position limit

theorem mem_batch {limit : Nat} {receipt : Receipt} :
    receipt ∈ batch capacity total position limit ↔ first capacity total position ≤ receipt.index ∧
        receipt.index < first capacity total position + taken capacity total position limit ∧
        receipt.total = total := by
  rcases receipt with ⟨index, now⟩
  simp only [batch, List.mem_map, List.mem_range'_1, Receipt.mk.injEq]
  constructor
  · rintro ⟨index', ⟨hFrom, hTo⟩, rfl, rfl⟩
    exact ⟨hFrom, hTo, rfl⟩
  · rintro ⟨hFrom, hTo, rfl⟩
    exact ⟨index, ⟨hFrom, hTo⟩, rfl, rfl⟩

/-
  The receipt with which a reader first went past an entry was made when the feed no longer kept
  that entry.
-/
def Overtaken (capacity : Nat) (receipts : List Receipt) (index : Nat) : Prop :=
  ∃ receipt ∈ receipts, index < receipt.index ∧
      (∀ other ∈ receipts, index < other.index → receipt.index ≤ other.index) ∧
      index + capacity < receipt.total

/-
  Entries are taken in order and none twice, and of those from the start to the position only
  entries no longer kept are left out.
-/
structure Faithful (capacity total : Nat) (r : Reader) : Prop where
  bounds : r.start ≤ r.position ∧ r.position ≤ total
  increasing : r.receipts.Pairwise (·.index < ·.index)
  passed : ∀ receipt ∈ r.receipts, r.start ≤ receipt.index ∧ receipt.index < r.position
  covered : ∀ index, r.start ≤ index → index < r.position →
      (∃ receipt ∈ r.receipts, receipt.index = index) ∨ Overtaken capacity r.receipts index

theorem Faithful.startAt (hPosition : position ≤ total) :
    Faithful capacity total (Reader.startAt position) where
  bounds := ⟨le_refl _, hPosition⟩
  increasing := List.Pairwise.nil
  passed := fun _ hMember => absurd hMember List.not_mem_nil
  covered := fun _ hFrom hTo =>
    absurd (lt_of_le_of_lt hFrom hTo) (lt_irrefl _)

/- New entries leave what a reader has taken as it is. -/
theorem Faithful.grow {total' : Nat} (hFaithful : Faithful capacity total r)
    (hGrow : total ≤ total') :
    Faithful capacity total' r where
  bounds := ⟨hFaithful.bounds.1, le_trans hFaithful.bounds.2 hGrow⟩
  increasing := hFaithful.increasing
  passed := hFaithful.passed
  covered := hFaithful.covered

/- Receipts behind all others keep an entry overtaken. -/
theorem Overtaken.append {index : Nat} {receipts later : List Receipt}
    (hOvertaken : Overtaken capacity receipts index)
    (hBefore : ∀ receipt ∈ receipts, receipt.index < position)
    (hBehind : ∀ receipt ∈ later, position ≤ receipt.index) :
    Overtaken capacity (receipts ++ later) index := by
  obtain ⟨receipt, hMember, hPast, hFirst, hLost⟩ := hOvertaken
  refine ⟨receipt, List.mem_append_left _ hMember, hPast, ?_, hLost⟩
  intro other hOther hOtherPast
  rcases List.mem_append.mp hOther with hOld | hNew
  · exact hFirst other hOld hOtherPast
  · exact le_trans (hBefore receipt hMember).le (hBehind other hNew)

/- One read keeps a reader faithful. -/
theorem Faithful.read (hFaithful : Faithful capacity total r) (limit : Nat) :
    Faithful capacity total (r.read capacity total limit) := by
  have hBounds := hFaithful.bounds
  have hFirst :
      r.position ≤ first capacity total r.position ∧ first capacity total r.position ≤ total := by
    unfold first
    omega
  have hTaken :
      first capacity total r.position + taken capacity total r.position limit ≤ total := by
    unfold taken
    omega
  have hBehind : ∀ receipt ∈ batch capacity total r.position limit, r.position ≤ receipt.index := by
    intro receipt hMember
    exact le_trans hFirst.1 (mem_batch.mp hMember).1
  by_cases hNone : taken capacity total r.position limit = 0
  · have hSame : r.read capacity total limit = r := by
      unfold Reader.read batch
      rw [if_pos hNone, hNone, List.range'_zero, List.map_nil, List.append_nil]
    rw [hSame]
    exact hFaithful
  · have hPosition : (r.read capacity total limit).position =
          first capacity total r.position + taken capacity total r.position limit :=
      if_neg hNone
    refine ⟨?_, ?_, ?_, ?_⟩
    · rw [hPosition]
      exact ⟨le_trans hBounds.1 (le_trans hFirst.1 (Nat.le_add_right _ _)), hTaken⟩
    · refine List.pairwise_append.mpr ⟨hFaithful.increasing, ?_, ?_⟩
      · exact List.pairwise_map.mpr List.pairwise_lt_range'
      · intro receipt hMember other hOther
        exact lt_of_lt_of_le (hFaithful.passed receipt hMember).2 (hBehind other hOther)
    · intro receipt hMember
      rw [hPosition]
      rcases List.mem_append.mp hMember with hOld | hNew
      · have hPassed := hFaithful.passed receipt hOld
        exact ⟨hPassed.1, by omega⟩
      · have hRange := mem_batch.mp hNew
        exact ⟨le_trans hBounds.1 (le_trans hFirst.1 hRange.1), hRange.2.1⟩
    · intro index hFrom hTo
      rw [hPosition] at hTo
      by_cases hOld : index < r.position
      · rcases hFaithful.covered index hFrom hOld with hReceived | hOvertaken
        · obtain ⟨receipt, hMember, hIndex⟩ := hReceived
          exact Or.inl ⟨receipt, List.mem_append_left _ hMember, hIndex⟩
        · exact Or.inr (hOvertaken.append (fun receipt hMember =>
              (hFaithful.passed receipt hMember).2) hBehind)
      by_cases hKept : first capacity total r.position ≤ index
      · exact Or.inl ⟨⟨index, total⟩,
          List.mem_append_right _ (mem_batch.mpr ⟨hKept, hTo, rfl⟩), rfl⟩
      · -- the entry fell out before this read, whose first
        -- receipt is the one that goes past it
        refine Or.inr
          ⟨⟨first capacity total r.position, total⟩, List.mem_append_right _
              (mem_batch.mpr ⟨le_refl _, Nat.lt_add_of_pos_right (Nat.pos_of_ne_zero hNone), rfl⟩),
            not_le.mp hKept, ?_, ?_⟩
        · intro other hOther hPast
          rcases List.mem_append.mp hOther with hEarlier | hNew
          · have hPassed := hFaithful.passed other hEarlier
            omega
          · exact (mem_batch.mp hNew).1
        · have hLost : index < total - capacity := by
            unfold first at hKept
            omega
          exact Nat.add_lt_of_lt_sub hLost

end LiamOS.Feed
