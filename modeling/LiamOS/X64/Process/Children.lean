import LiamOS.Lib.Calls
import LiamOS.X64.Process.Model

/-
  The child statuses of `kernel/arch/x86_64/process.c`.

  The statuses are kept in an array of sixteen entries and a count; taking one out shifts those
  behind it. The array is a list, and the list is what a ledger of all statuses ever recorded
  says: each status is delivered once, dropped once, or still pending, and the pending ones are
  kept in the order in which they came.

  Main declarations: `childQueue_refines`.
-/

namespace LiamOS.X64

open Word

variable {q : ChildStatusArray} {statuses : List ChildStatus} {i n : Nat} {l : ChildLedger}

----------
-- The Array

/- `child_status_queue` and `child_status_count`. -/
structure ChildStatusArray where
  entries : Nat → ChildStatus
  count : Nat

def clearedStatus : ChildStatus := ⟨0, 0, 0⟩

/- The loop that moves the entries behind an index down. -/
def shiftChildStatus (count : Nat) : Nat → Nat → (Nat → ChildStatus) → Nat → ChildStatus
| 0, _, entries => entries
| turns + 1, i, entries =>
    if i + 1 < count then
      shiftChildStatus count turns (i + 1) (Function.update entries i (entries (i + 1)))
    else
      entries

def removeChildStatusAt (index : Nat) (q : ChildStatusArray) : ChildStatusArray :=
  if q.count ≤ index then
    q
  else
    let entries := shiftChildStatus q.count q.count index q.entries
    let count := if q.count ≠ 0 then q.count - 1 else q.count
    { entries :=
        if count < childStatusQueueCapacity then
          Function.update entries count clearedStatus
        else
          entries
      count := count }

/- The array with the counters its functions keep. -/
structure ChildTable where
  queue : ChildStatusArray
  counters : ProcessCounters

namespace ChildTable

def initialized : ChildTable where
  queue := ⟨fun _ => clearedStatus, 0⟩
  counters := { zeroCounters with initialized := true }

/- The head of a full queue makes room. -/
def makeRoom (c : ChildTable) : ChildTable := if childStatusQueueCapacity ≤ c.queue.count then
    { queue := removeChildStatusAt 0 c.queue
      counters :=
        { c.counters with completedChildDrops := u32 (c.counters.completedChildDrops + 1) } }
  else
    c

def recordChildExit (parentPid childPid exitCode : Nat) (c : ChildTable) : Bool × ChildTable :=
  if parentPid = 0 ∨ childPid = 0 ∨ parentPid = childPid then
    (false, c)
  else
    let c := c.makeRoom
    (true,
      { queue :=
          { entries :=
              Function.update c.queue.entries c.queue.count ⟨parentPid, childPid, exitCode⟩
            count := c.queue.count + 1 }
        counters :=
          { c.counters with completedChildRecords := u32 (c.counters.completedChildRecords + 1) } })

def waitChild (parentPid : Nat) (c : ChildTable) : Option ChildStatus × ChildTable :=
  if parentPid = 0 then
    (none, c)
  else
    match (List.range c.queue.count).find? fun i =>
      (c.queue.entries i).parentPid == parentPid with
    | none =>
      (none, { c with
        counters := { c.counters with waitMisses := u32 (c.counters.waitMisses + 1) } })
    | some i =>
      (some (c.queue.entries i),
        { queue := removeChildStatusAt i c.queue
          counters :=
            { c.counters with completedChildWaits := u32 (c.counters.completedChildWaits + 1) } })

end ChildTable

inductive ChildCall
| record (parentPid childPid exitCode : Nat)
| wait (parentPid : Nat)

inductive ChildReply
| recorded (accepted : Bool)
| waited (status : Option ChildStatus)
deriving DecidableEq

def ChildTable.step (c : ChildTable) : ChildCall → ChildReply × ChildTable
| .record parentPid childPid exitCode =>
    let (accepted, c) := c.recordChildExit parentPid childPid exitCode
    (.recorded accepted, c)
| .wait parentPid =>
    let (status, c) := c.waitChild parentPid
    (.waited status, c)

----------
-- The Array As A List

/- The entries below the count, in order. -/
structure Represents (q : ChildStatusArray) (statuses : List ChildStatus) : Prop where
  count : q.count = statuses.length
  entries : ∀ i, q.count ≤ i ∨ statuses[i]? = some (q.entries i)

theorem Represents.entry (hRep : Represents q statuses) (hi : i < q.count) :
    statuses[i]? = some (q.entries i) := by
  rcases hRep.entries i with hOut | hEntry
  · omega
  · exact hEntry

theorem shiftChildStatus_apply {count turns : Nat} (hTurns : count ≤ i + turns)
    (entries : Nat → ChildStatus) (j : Nat) :
    shiftChildStatus count turns i entries j = if i ≤ j ∧ j + 1 < count then
        entries (j + 1)
      else
        entries j := by
  induction turns generalizing i entries with
  | zero => rw [shiftChildStatus, if_neg (by omega)]
  | succ turns ih =>
    rw [shiftChildStatus]
    by_cases hMore : i + 1 < count
    · rw [if_pos hMore, ih (by omega)]
      by_cases hSame : j = i
      · subst hSame
        rw [if_neg (by omega), if_pos (by omega), Function.update_self]
      · by_cases hShift : i ≤ j ∧ j + 1 < count
        · rw [if_pos (by omega), if_pos hShift, Function.update_of_ne (by omega)]
        · rw [if_neg (by omega), if_neg hShift, Function.update_of_ne hSame]
    · rw [if_neg hMore, if_neg (by omega)]

theorem Represents.remove (hRep : Represents q statuses) (index : Nat) :
    Represents (removeChildStatusAt index q) (statuses.eraseIdx index) := by
  unfold removeChildStatusAt
  split
  next hOut =>
    rw [List.eraseIdx_of_length_le (by rw [← hRep.count]; exact hOut)]
    exact hRep
  next hIn =>
    have hNonzero : q.count ≠ 0 := by omega
    dsimp only
    rw [if_pos hNonzero]
    refine ⟨?_, ?_⟩
    · dsimp only
      rw [List.length_eraseIdx_of_lt (by rw [← hRep.count]; omega), hRep.count]
    · intro j
      dsimp only
      by_cases hj : q.count - 1 ≤ j
      · exact Or.inl hj
      · refine Or.inr ?_
        have hEntry : shiftChildStatus q.count q.count index q.entries j = if index ≤ j then
                q.entries (j + 1)
              else
                q.entries j := by
          rw [shiftChildStatus_apply (by omega)]
          by_cases hShift : index ≤ j
          · rw [if_pos ⟨hShift, by omega⟩, if_pos hShift]
          · rw [if_neg (fun h => hShift h.1), if_neg hShift]
        have hCleared :
            (if q.count - 1 < childStatusQueueCapacity then
              Function.update (shiftChildStatus q.count q.count index q.entries)
                (q.count - 1) clearedStatus
            else
              shiftChildStatus q.count q.count index q.entries) j =
              shiftChildStatus q.count q.count index q.entries j := by
          split
          · exact Function.update_of_ne (by omega) _ _
          · rfl
        rw [hCleared, hEntry, List.getElem?_eraseIdx]
        by_cases hShift : index ≤ j
        · rw [if_neg (by omega), if_pos hShift]
          exact hRep.entry (by omega)
        · rw [if_pos (by omega), if_neg hShift]
          exact hRep.entry (by omega)

theorem Represents.append (hRep : Represents q statuses) (status : ChildStatus) :
    Represents ⟨Function.update q.entries q.count status, q.count + 1⟩ (statuses ++ [status]) := by
  refine ⟨?_, ?_⟩
  · dsimp only
    rw [List.length_append, hRep.count]
    rfl
  · intro j
    dsimp only
    by_cases hj : j < q.count
    · refine Or.inr ?_
      rw [Function.update_of_ne (by omega),
        List.getElem?_append_left (by rw [← hRep.count]; exact hj)]
      exact hRep.entry hj
    · by_cases hLast : j = q.count
      · refine Or.inr ?_
        rw [hLast, Function.update_self, hRep.count, List.getElem?_concat_length]
      · exact Or.inl (by omega)

theorem Represents.getElem_eq (hRep : Represents q statuses) (hi : i < statuses.length) :
    statuses[i] = q.entries i := by
  have hEntry := hRep.entry (by rw [hRep.count]; exact hi)
  rw [List.getElem?_eq_getElem hi] at hEntry
  exact Option.some.inj hEntry

/- The loop over the array finds what the list has first. -/
theorem Represents.find?_eq (hRep : Represents q statuses) (p : ChildStatus → Bool) :
    (List.range q.count).find? (fun i => p (q.entries i)) = statuses.findIdx? p := by
  cases hFind : statuses.findIdx? p with
  | none =>
    rw [List.find?_range_eq_none]
    intro i hi
    have hMember := List.mem_of_getElem? (hRep.entry hi)
    rw [List.findIdx?_eq_none_iff.mp hFind _ hMember]
    rfl
  | some i =>
    obtain ⟨hi, hFound, hBefore⟩ := List.findIdx?_eq_some_iff_getElem.mp hFind
    rw [List.find?_range_eq_some]
    rw [hRep.getElem_eq hi] at hFound
    refine ⟨hFound, ?_, ?_⟩
    · rw [List.mem_range, hRep.count]
      exact hi
    · intro j hj
      have hNot := hBefore j hj
      rw [hRep.getElem_eq (by omega)] at hNot
      simpa using hNot

/- The functions of the table on its list of statuses. -/
def listStep (s : ProcessSystem) : ChildCall → ChildReply × ProcessSystem
| .record parentPid childPid exitCode =>
    let (accepted, s) := processRecordChildExit parentPid childPid exitCode s
    (.recorded accepted, s)
| .wait parentPid =>
    let (status, s) := processWaitChild parentPid s
    (.waited status, s)

/- The array and the list with the same counters. -/
structure SameStatuses (c : ChildTable) (s : ProcessSystem) : Prop where
  counters : c.counters = s.counters
  queue : Represents c.queue s.childStatusQueue

theorem SameStatuses.makeRoom {c : ChildTable} {s : ProcessSystem} (hSame : SameStatuses c s) :
    c.makeRoom =
        { queue := c.makeRoom.queue
          counters :=
            { s.counters with
              completedChildDrops := if childStatusQueueCapacity ≤ s.childStatusQueue.length then
                  u32 (s.counters.completedChildDrops + 1)
                else
                  s.counters.completedChildDrops } } ∧
      Represents c.makeRoom.queue
        (if childStatusQueueCapacity ≤ s.childStatusQueue.length then
          s.childStatusQueue.eraseIdx 0
        else
          s.childStatusQueue) := by
  unfold ChildTable.makeRoom
  rw [hSame.queue.count]
  by_cases hFull : childStatusQueueCapacity ≤ s.childStatusQueue.length
  · rw [if_pos hFull, if_pos hFull, if_pos hFull, hSame.counters]
    exact ⟨rfl, hSame.queue.remove 0⟩
  · rw [if_neg hFull, if_neg hFull, if_neg hFull, ← hSame.counters]
    exact ⟨rfl, hSame.queue⟩

/- The array answers every call as the list does. -/
theorem simulates_list : Calls.Simulates ChildTable.step listStep SameStatuses := by
  intro c s call hSame
  cases call with
  | record parentPid childPid exitCode =>
    unfold ChildTable.step listStep ChildTable.recordChildExit processRecordChildExit
    dsimp only
    by_cases hInvalid : parentPid = 0 ∨ childPid = 0 ∨ parentPid = childPid
    · rw [if_pos hInvalid, if_pos hInvalid]
      exact ⟨rfl, hSame⟩
    · obtain ⟨hRoom, hQueue⟩ := hSame.makeRoom
      rw [if_neg hInvalid, if_neg hInvalid]
      refine ⟨rfl, ?_, ?_⟩
      · rw [hRoom]
        simp only [decide_eq_true_eq]
      · simp only [decide_eq_true_eq]
        exact hQueue.append _
  | wait parentPid =>
    unfold ChildTable.step listStep ChildTable.waitChild processWaitChild
    dsimp only
    by_cases hInvalid : parentPid = 0
    · rw [if_pos hInvalid, if_pos hInvalid]
      exact ⟨rfl, hSame⟩
    · rw [if_neg hInvalid, if_neg hInvalid, hSame.queue.find?_eq (fun status =>
          status.parentPid == parentPid)]
      cases hFind : s.childStatusQueue.findIdx? (fun status =>
          status.parentPid == parentPid) with
      | none =>
        refine ⟨rfl, ?_, hSame.queue⟩
        dsimp only
        rw [hSame.counters]
      | some i =>
        obtain ⟨hi, -, -⟩ := List.findIdx?_eq_some_iff_getElem.mp hFind
        have hEntry := hSame.queue.entry (by rw [hSame.queue.count]; exact hi)
        refine ⟨?_, ?_, ?_⟩
        · dsimp only
          rw [hEntry]
        · dsimp only
          rw [hSame.counters]
        · exact hSame.queue.remove i

----------
-- The Ledger

/-
  All statuses ever recorded, in order, with the numbers of those that were delivered and of those
  that were dropped.
-/
structure ChildLedger where
  accepted : List ChildStatus
  delivered : List Nat
  dropped : List Nat

namespace ChildLedger

def empty : ChildLedger := ⟨[], [], []⟩

/- The numbers still to be delivered, the oldest first. -/
def pending (l : ChildLedger) : List Nat := (List.range l.accepted.length).filter fun n =>
    decide (n ∉ l.delivered ∧ n ∉ l.dropped)

def statusOf (l : ChildLedger) (n : Nat) : ChildStatus := l.accepted.getD n clearedStatus

/- Drop the oldest pending status. -/
def dropOldest (l : ChildLedger) : ChildLedger :=
  match l.pending with
  | [] => l
  | n :: _ => { l with dropped := l.dropped ++ [n] }

def record (status : ChildStatus) (l : ChildLedger) : ChildLedger :=
  let l := if 16 ≤ l.pending.length then l.dropOldest else l
  { l with accepted := l.accepted ++ [status] }

/- Deliver the oldest pending status of a parent. -/
def wait (parentPid : Nat) (l : ChildLedger) : Option ChildStatus × ChildLedger :=
  match l.pending.find? fun n =>
    (l.statusOf n).parentPid == parentPid with
  | none => (none, l)
  | some n => (some (l.statusOf n), { l with delivered := l.delivered ++ [n] })

def step (l : ChildLedger) : ChildCall → ChildReply × ChildLedger
| .record parentPid childPid exitCode =>
    if parentPid = 0 ∨ childPid = 0 ∨ parentPid = childPid then
      (.recorded false, l)
    else
      (.recorded true, l.record ⟨parentPid, childPid, exitCode⟩)
| .wait parentPid =>
    if parentPid = 0 then
      (.waited none, l)
    else
      (.waited (l.wait parentPid).1, (l.wait parentPid).2)

theorem mem_pending : n ∈ l.pending ↔ n < l.accepted.length ∧ n ∉ l.delivered ∧ n ∉ l.dropped := by
  unfold pending
  rw [List.mem_filter, List.mem_range, decide_eq_true_eq]

theorem pending_nodup (l : ChildLedger) : l.pending.Nodup := List.nodup_range.filter _

/- A number that is settled leaves the pending ones. -/
theorem pending_erase {l' : ChildLedger} (hAccepted : l'.accepted = l.accepted)
    (hSettled :
      ∀ m, m ∈ l'.delivered ∨ m ∈ l'.dropped ↔ (m ∈ l.delivered ∨ m ∈ l.dropped) ∨ m = n) :
    l'.pending = l.pending.erase n := by
  rw [l.pending_nodup.erase_eq_filter]
  unfold pending
  rw [hAccepted, List.filter_filter]
  refine List.filter_congr fun m _ => ?_
  have hm := hSettled m
  by_cases hEq : m = n
  · have hLeft : m ∈ l'.delivered ∨ m ∈ l'.dropped := hm.mpr (Or.inr hEq)
    rw [decide_eq_false (by tauto)]
    simp [hEq]
  · have hSame :
        decide (m ∉ l'.delivered ∧ m ∉ l'.dropped) = decide (m ∉ l.delivered ∧ m ∉ l.dropped) :=
      decide_eq_decide.mpr (by tauto)
    rw [hSame]
    simp [hEq]

/- The statuses of a ledger are settled once, if at all. -/
structure Law (l : ChildLedger) : Prop where
  depth : l.pending.length ≤ 16
  once : (l.delivered ++ l.dropped).Nodup
  known : ∀ n ∈ l.delivered ++ l.dropped, n < l.accepted.length
  balance : l.accepted.length = l.delivered.length + l.dropped.length + l.pending.length

theorem law_empty : Law empty :=
  ⟨Nat.zero_le _, List.nodup_nil, fun _ hn => absurd hn List.not_mem_nil, rfl⟩

theorem Law.not_known (hLaw : l.Law) :
    l.accepted.length ∉ l.delivered ∧ l.accepted.length ∉ l.dropped := by
  refine ⟨fun hMem => ?_, fun hMem => ?_⟩
  · exact Nat.lt_irrefl _ (hLaw.known _ (List.mem_append_left _ hMem))
  · exact Nat.lt_irrefl _ (hLaw.known _ (List.mem_append_right _ hMem))

/- A new status is the last of the pending ones. -/
theorem Law.pending_append (hLaw : l.Law) (status : ChildStatus) :
    { l with accepted := l.accepted ++ [status] }.pending =
      l.pending ++ [l.accepted.length] := by
  have hLast := decide_eq_true
      (p := l.accepted.length ∉ l.delivered ∧ l.accepted.length ∉ l.dropped) hLaw.not_known
  unfold pending
  dsimp only
  rw [List.length_append, List.length_singleton,
    List.range_succ, List.filter_append, List.filter_singleton, hLast]
  rfl

theorem statusOf_append (status : ChildStatus) (hn : n < l.accepted.length) :
    { l with accepted := l.accepted ++ [status] }.statusOf n =
      l.statusOf n :=
  List.getD_append _ _ _ _ hn

theorem statusOf_last (l : ChildLedger) (status : ChildStatus) :
    { l with accepted := l.accepted ++ [status] }.statusOf
      l.accepted.length = status := by
  unfold statusOf
  dsimp only
  rw [List.getD_append_right _ _ _ _ (Nat.le_refl _), Nat.sub_self]
  rfl

/- The pending statuses with a new one behind them. -/
theorem Law.map_append (hLaw : l.Law) (status : ChildStatus) :
    { l with accepted := l.accepted ++ [status] }.pending.map
        { l with accepted := l.accepted ++ [status] }.statusOf =
      l.pending.map l.statusOf ++ [status] := by
  rw [hLaw.pending_append, List.map_append]
  congr 1
  · refine List.map_congr_left fun n hn => ?_
    exact statusOf_append status (mem_pending.mp hn).1
  · rw [List.map_singleton, statusOf_last]

theorem Law.append (hLaw : l.Law) (hRoom : l.pending.length < 16) (status : ChildStatus) :
    Law { l with accepted := l.accepted ++ [status] } := by
  have hPending := hLaw.pending_append status
  have hBalance := hLaw.balance
  refine ⟨?_, hLaw.once, ?_, ?_⟩
  · rw [hPending, List.length_append]
    exact hRoom
  · intro n hn
    have hLt := hLaw.known n hn
    dsimp only
    rw [List.length_append]
    omega
  · rw [hPending, List.length_append, List.length_append,
      List.length_singleton, List.length_singleton]
    dsimp only
    omega

theorem Law.dropOldest (hLaw : l.Law) {rest : List Nat} (hPending : l.pending = n :: rest) :
    l.dropOldest = { l with dropped := l.dropped ++ [n] } ∧ l.dropOldest.pending = rest ∧
      l.dropOldest.Law := by
  have hEq : l.dropOldest = { l with dropped := l.dropped ++ [n] } := by
    unfold ChildLedger.dropOldest
    rw [hPending]
  have hMember : n ∈ l.pending := by
    rw [hPending]
    exact List.mem_cons_self
  obtain ⟨hn, hDelivered, hDropped⟩ := mem_pending.mp hMember
  have hErase : { l with dropped := l.dropped ++ [n] }.pending = l.pending.erase n := by
    refine pending_erase rfl fun m => ?_
    simp only [List.mem_append, List.mem_singleton]
    tauto
  have hRest : { l with dropped := l.dropped ++ [n] }.pending = rest := by
    rw [hErase, hPending, List.erase_cons_head]
  have hBalance := hLaw.balance
  have hDepth := hLaw.depth
  rw [hPending, List.length_cons] at hBalance hDepth
  rw [hEq]
  refine ⟨rfl, hRest, ?_, ?_, ?_, ?_⟩
  · rw [hRest]
    omega
  · dsimp only
    rw [← List.append_assoc]
    refine List.nodup_append.mpr ⟨hLaw.once, List.nodup_singleton _, ?_⟩
    intro m hm k hk
    rw [List.mem_singleton] at hk
    rintro rfl
    subst hk
    rcases List.mem_append.mp hm with hOld | hOld
    · exact hDelivered hOld
    · exact hDropped hOld
  · intro m hm
    dsimp only at hm ⊢
    rw [← List.append_assoc] at hm
    rcases List.mem_append.mp hm with hOld | hNew
    · exact hLaw.known m hOld
    · rw [List.mem_singleton.mp hNew]
      exact hn
  · rw [hRest]
    dsimp only
    rw [List.length_append, List.length_singleton]
    omega

theorem Law.deliver (hLaw : l.Law) (hMember : n ∈ l.pending) :
    { l with delivered := l.delivered ++ [n] }.pending = l.pending.erase n ∧
      Law { l with delivered := l.delivered ++ [n] } := by
  obtain ⟨hn, hDelivered, hDropped⟩ := mem_pending.mp hMember
  have hRest : { l with delivered := l.delivered ++ [n] }.pending = l.pending.erase n := by
    refine pending_erase rfl fun m => ?_
    simp only [List.mem_append, List.mem_singleton]
    tauto
  have hLength := List.length_erase_of_mem hMember
  have hPos := List.length_pos_of_mem hMember
  have hBalance := hLaw.balance
  have hDepth := hLaw.depth
  refine ⟨hRest, ?_, ?_, ?_, ?_⟩
  · rw [hRest]
    omega
  · dsimp only
    rw [List.append_assoc, List.singleton_append]
    refine List.nodup_middle.mpr (List.nodup_cons.mpr ⟨?_, hLaw.once⟩)
    rw [List.mem_append]
    exact not_or.mpr ⟨hDelivered, hDropped⟩
  · intro m hm
    dsimp only at hm ⊢
    rw [List.append_assoc, List.singleton_append] at hm
    rcases List.mem_append.mp hm with hOld | hNew
    · exact hLaw.known m (List.mem_append_left _ hOld)
    · rcases List.mem_cons.mp hNew with rfl | hOld
      · exact hn
      · exact hLaw.known m (List.mem_append_right _ hOld)
  · rw [hRest]
    dsimp only
    rw [List.length_append, List.length_singleton]
    omega

end ChildLedger

----------
-- The List And The Ledger

/- The queue has the pending statuses in their order. -/
structure Accounted (s : ProcessSystem) (l : ChildLedger) : Prop where
  queue : s.childStatusQueue = l.pending.map l.statusOf
  law : l.Law
  records : s.counters.completedChildRecords = u32 l.accepted.length
  waits : s.counters.completedChildWaits = u32 l.delivered.length
  drops : s.counters.completedChildDrops = u32 l.dropped.length

theorem u32_succ_length {α : Type} {counter : Nat} {items : List α}
    (hCounter : counter = u32 items.length) (item : α) :
    u32 (counter + 1) = u32 (items ++ [item]).length := by
  rw [hCounter, List.length_append, List.length_singleton]
  unfold u32
  omega

/- The list answers every call as the ledger does. -/
theorem simulates_ledger : Calls.Simulates listStep ChildLedger.step Accounted := by
  intro s l call hAcc
  cases call with
  | record parentPid childPid exitCode =>
    unfold listStep ChildLedger.step processRecordChildExit
    dsimp only
    by_cases hInvalid : parentPid = 0 ∨ childPid = 0 ∨ parentPid = childPid
    · rw [if_pos hInvalid, if_pos hInvalid]
      exact ⟨rfl, hAcc⟩
    · rw [if_neg hInvalid, if_neg hInvalid]
      refine ⟨rfl, ?_⟩
      have hLength : s.childStatusQueue.length = l.pending.length := by
        rw [hAcc.queue, List.length_map]
      have hLaw := hAcc.law
      dsimp only
      unfold ChildLedger.record childStatusQueueCapacity
      rw [hLength]
      simp only [decide_eq_true_eq]
      by_cases hFull : 16 ≤ l.pending.length
      · -- the oldest pending status makes room
        cases hPending : l.pending with
        | nil => simp [hPending] at hFull
        | cons n rest =>
          obtain ⟨hEq, hRest, hDropped⟩ := hLaw.dropOldest hPending
          have hDepth := hLaw.depth
          rw [hPending] at hFull hDepth
          rw [if_pos hFull, if_pos hFull, if_pos hFull]
          have hRoom : l.dropOldest.pending.length < 16 := by
            rw [hRest]
            rw [List.length_cons] at hDepth
            omega
          refine ⟨?_, hDropped.append hRoom _, ?_, ?_, ?_⟩
          · rw [hDropped.map_append, hRest, hAcc.queue, hPending, hEq]
            rfl
          · rw [hEq]
            exact u32_succ_length hAcc.records _
          · rw [hEq]
            exact hAcc.waits
          · rw [hEq]
            exact u32_succ_length hAcc.drops n
      · rw [if_neg hFull, if_neg hFull, if_neg hFull]
        refine ⟨?_, hLaw.append (by omega) _, ?_, hAcc.waits, hAcc.drops⟩
        · rw [hLaw.map_append, hAcc.queue]
        · exact u32_succ_length hAcc.records _
  | wait parentPid =>
    unfold listStep ChildLedger.step processWaitChild
    dsimp only
    by_cases hInvalid : parentPid = 0
    · rw [if_pos hInvalid, if_pos hInvalid]
      exact ⟨rfl, hAcc⟩
    · rw [if_neg hInvalid, if_neg hInvalid]
      unfold ChildLedger.wait
      rw [hAcc.queue, List.findIdx?_map, List.find?_eq_bind_findIdx?_getElem?]
      have hSame :
          ((fun status : ChildStatus =>
              status.parentPid == parentPid) ∘ l.statusOf) =
            fun n => (l.statusOf n).parentPid == parentPid := rfl
      rw [hSame]
      cases hFind : l.pending.findIdx? (fun n =>
          (l.statusOf n).parentPid == parentPid) with
      | none => exact ⟨rfl, rfl, hAcc.law, hAcc.records, hAcc.waits, hAcc.drops⟩
      | some i =>
        obtain ⟨hi, -, -⟩ := List.findIdx?_eq_some_iff_getElem.mp hFind
        obtain ⟨hRest, hLaw⟩ := hAcc.law.deliver (List.getElem_mem hi)
        rw [l.pending_nodup.erase_getElem i hi] at hRest
        dsimp only [Option.bind_some]
        rw [List.getElem?_eq_getElem hi, List.getElem?_map, List.getElem?_eq_getElem hi]
        refine ⟨rfl, ?_, hLaw, hAcc.records, ?_, hAcc.drops⟩
        · dsimp only
          rw [hRest, List.eraseIdx_map]
          rfl
        · exact u32_succ_length hAcc.waits _

----------
-- Runs

/- What the array is worth next to the ledger. -/
structure ChildQueueLaw (c : ChildTable) (l : ChildLedger) : Prop where
  depth : c.queue.count = l.pending.length
  depth_le : c.queue.count ≤ 16
  entries : (List.range c.queue.count).map c.queue.entries = l.pending.map l.statusOf
  once : (l.delivered ++ l.dropped).Nodup
  balance : l.accepted.length = l.delivered.length + l.dropped.length + c.queue.count
  records : c.counters.completedChildRecords = u32 l.accepted.length
  waits : c.counters.completedChildWaits = u32 l.delivered.length
  drops : c.counters.completedChildDrops = u32 l.dropped.length

theorem Represents.map_eq (hRep : Represents q statuses) :
    (List.range q.count).map q.entries = statuses := by
  refine List.ext_getElem ?_ ?_
  · rw [List.length_map, List.length_range, hRep.count]
  · intro i hLeft hRight
    rw [List.getElem_map, List.getElem_range, hRep.getElem_eq hRight]

theorem sameStatuses_initialized (s : ProcessSystem) :
    SameStatuses .initialized (processInitialize s) :=
  ⟨rfl, rfl, fun i => Or.inl (Nat.zero_le i)⟩

theorem accounted_initialized (s : ProcessSystem) : Accounted (processInitialize s) .empty :=
  ⟨rfl, ChildLedger.law_empty, rfl, rfl, rfl⟩

/-
  From `x86_64_process_initialize` on the array, the list and the ledger answer every sequence of
  calls alike.
-/
theorem childQueue_refines (s : ProcessSystem) (calls : List ChildCall) :
    let array := Calls.run ChildTable.step .initialized calls
    let list := Calls.run listStep (processInitialize s) calls
    let ledger := Calls.run ChildLedger.step .empty calls
    array.1 = ledger.1 ∧ list.1 = ledger.1 ∧ ChildQueueLaw array.2 ledger.2 := by
  intro array list ledger
  obtain ⟨hArray, hSame⟩ := simulates_list.run (sameStatuses_initialized s) calls
  obtain ⟨hList, hAcc⟩ := simulates_ledger.run (accounted_initialized s) calls
  have hEntries := hSame.queue.map_eq.trans hAcc.queue
  have hDepth : array.2.queue.count = ledger.2.pending.length := by
    rw [hSame.queue.count, hAcc.queue, List.length_map]
  refine ⟨hArray.trans hList, hList, hDepth, ?_, hEntries, hAcc.law.once, ?_, ?_, ?_, ?_⟩
  · rw [hDepth]
    exact hAcc.law.depth
  · rw [hDepth]
    exact hAcc.law.balance
  · rw [hSame.counters]
    exact hAcc.records
  · rw [hSame.counters]
    exact hAcc.waits
  · rw [hSame.counters]
    exact hAcc.drops

/- The second of two children of one parent is waited for. -/
example :
    (Calls.run ChildTable.step .initialized
      [.record 1 5 0, .record 2 6 9, .record 1 7 3, .wait 1, .wait 1, .wait 1]).1 =
      [.recorded true, .recorded true, .recorded true,
        .waited (some ⟨1, 5, 0⟩), .waited (some ⟨1, 7, 3⟩),
        .waited none] := by
  decide +kernel

end LiamOS.X64
