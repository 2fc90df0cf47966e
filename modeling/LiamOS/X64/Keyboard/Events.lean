import LiamOS.Lib.Calls
import LiamOS.Lib.Feed
import LiamOS.X64.Keyboard.Model

/-
  Delivery of input events to the readers of the event ring.

  A run interleaves pushes, timer interrupts and reads on any number of cursors; a cursor may be
  started anew at zero or at the latest sequence number. Next to the driver a log of all pushed
  events is kept, and for every reader what it was given since its start and how many events had
  been pushed by then. The ring is a feed of the last 64 events of the log.

  Main declarations: `inputEvents_delivered`.
-/

namespace LiamOS.X64

open Word

variable {k : KeyboardDriver} {log : List InputEvent} {events reader : Nat} {t : InputReaders}
variable {readers : Nat → Feed.Reader}
variable {cursor index : Nat} {receipts : List Feed.Receipt}

----------
-- Readers

inductive InputCall
| timer
| push (type code value flags : Nat)
| start (reader : Nat) (fromLatest : Bool)
| read (reader : Nat) (events maxEvents : UInt64)

/- An event given to a reader after so many pushes. -/
structure Delivery where
  event : InputEvent
  pushes : Nat

variable {d : Delivery}

structure InputReaders where
  driver : KeyboardDriver
  cursors : Nat → Nat
  log : List InputEvent
  started : Nat → Nat
  received : Nat → List Delivery

namespace InputReaders

/- All cursors are zero, as static and stack cursors are. -/
def booted (irq1Unmasked interruptsEnabledAfter : Nat) (k : KeyboardDriver) : InputReaders where
  driver := keyboardInitialize irq1Unmasked interruptsEnabledAfter k
  cursors := fun _ => 0
  log := []
  started := fun _ => 0
  received := fun _ => []

def startAt (reader cursor : Nat) (t : InputReaders) : InputReaders :=
  { t with
    cursors := Function.update t.cursors reader cursor
    started := Function.update t.started reader cursor
    received := Function.update t.received reader [] }

def read (reader events maxEvents : Nat) (t : InputReaders) : List InputEvent × InputReaders :=
  let (stored, cursor, driver) := inputEventsReadFrom (t.cursors reader) events maxEvents t.driver
  (stored,
    { t with
      driver := driver
      cursors := Function.update t.cursors reader cursor
      received := Function.update t.received reader
          (t.received reader ++ stored.map fun event => ⟨event, t.log.length⟩) })

/- The reply is what the call stores in the reader's buffer. -/
def step (t : InputReaders) : InputCall → List InputEvent × InputReaders
| .timer => ([], { t with driver := timerHandleIrq t.driver })
| .push type code value flags =>
    ([],
      { t with
        driver := inputEventPush type code value flags t.driver
        log := t.log ++ [⟨type, code, value, flags, t.driver.timerTicks, t.log.length + 1⟩] })
| .start reader fromLatest =>
    ([], t.startAt reader (if fromLatest then inputEventLatestSequence t.driver else 0))
| .read reader events maxEvents => t.read reader events.toNat maxEvents.toNat

end InputReaders

def pushCount : List InputCall → Nat
| [] => 0
| .push _ _ _ _ :: calls => pushCount calls + 1
| _ :: calls => pushCount calls

----------
-- What Readers May Rely On

/- The event had been overwritten when the reader was first given a newer one. -/
def OverwrittenBefore (received : List Delivery) (event : InputEvent) : Prop :=
  ∃ d ∈ received, event.sequence < d.event.sequence ∧
      (∀ d' ∈ received, event.sequence < d'.event.sequence → d.event.sequence ≤ d'.event.sequence) ∧
      event.sequence + inputEventQueueCapacity ≤ d.pushes

structure DeliveryLaw (t : InputReaders) (reader : Nat) : Prop where
  increasing : (t.received reader).Pairwise fun d d' =>
      d.event.sequence < d'.event.sequence
  pushed : ∀ d ∈ t.received reader,
      t.started reader < d.event.sequence ∧ t.log[d.event.sequence - 1]? = some d.event
  missed : ∀ event ∈ t.log, t.started reader < event.sequence →
      (∃ d ∈ t.received reader, d.event = event) ∨
        (∀ d ∈ t.received reader, d.event.sequence < event.sequence) ∨
        OverwrittenBefore (t.received reader) event

/-
  A read gives the reader every event that is newer than its start, not yet received and not
  overwritten, or as many older ones as the call has room for.
-/
def Served (t : InputReaders) (reader maxEvents : Nat) (stored : List InputEvent) : Prop :=
  ∀ event ∈ t.log, t.started reader < event.sequence →
    (∀ d ∈ t.received reader, d.event.sequence < event.sequence) →
    t.log.length < event.sequence + inputEventQueueCapacity →
      event ∈ stored ∨ stored.length = maxEvents ∧ ∀ older ∈ stored, older.sequence < event.sequence

----------
-- The Ring As The End Of The Log

structure RingHolds (k : KeyboardDriver) (log : List InputEvent) : Prop where
  ready : k.keyboardState.initialized ≠ 0
  next : k.inputEventNextSequence = log.length + 1
  count : k.inputEventCount = min log.length 64
  tail : k.inputEventTail = log.length % 64
  head : k.inputEventHead = (log.length - 64) % 64
  kept : ∀ j event, log[j]? = some event → log.length ≤ j + 64 → k.inputEventQueue (j % 64) = event
  numbered : ∀ j event, log[j]? = some event → event.sequence = j + 1

theorem RingHolds.booted (irq1Unmasked interruptsEnabledAfter : Nat) (k : KeyboardDriver) :
    RingHolds (keyboardInitialize irq1Unmasked interruptsEnabledAfter k) [] where
  ready := Nat.one_ne_zero
  next := rfl
  count := rfl
  tail := rfl
  head := rfl
  kept := fun _ _ hNone => absurd hNone (by simp)
  numbered := fun _ _ hNone => absurd hNone (by simp)

theorem RingHolds.latest (hRing : RingHolds k log) : inputEventLatestSequence k = log.length := by
  unfold inputEventLatestSequence
  rw [hRing.next, if_neg (Nat.succ_ne_zero _), Nat.add_sub_cancel]

/- An entry of a log with one event more. -/
theorem getElem?_pushed {event last : InputEvent} {j : Nat}
    (hEntry : (log ++ [last])[j]? = some event) :
    log[j]? = some event ∨ (j = log.length ∧ event = last) := by
  by_cases hOld : j < log.length
  · rw [List.getElem?_append_left hOld] at hEntry
    exact Or.inl hEntry
  · rw [List.getElem?_append_right (by omega)] at hEntry
    by_cases hLast : j - log.length = 0
    · rw [hLast] at hEntry
      exact Or.inr ⟨by omega, (Option.some.inj hEntry).symm⟩
    · rw [List.getElem?_eq_none (by
        rw [List.length_singleton]
        omega)] at hEntry
      cases hEntry

theorem RingHolds.push (hRing : RingHolds k log) (hRoom : log.length + 2 < 2 ^ 32)
    (type code value flags : Nat) :
    RingHolds (inputEventPush type code value flags k)
      (log ++ [⟨type, code, value, flags, k.timerTicks, log.length + 1⟩]) := by
  have hCount := hRing.count
  have hHead := hRing.head
  have hTail := hRing.tail
  have hDropped : (inputEventDrop k).inputEventQueue = k.inputEventQueue ∧
        (inputEventDrop k).timerTicks = k.timerTicks ∧
        (inputEventDrop k).inputEventNextSequence = k.inputEventNextSequence ∧
        (inputEventDrop k).inputEventTail = k.inputEventTail ∧
        (inputEventDrop k).keyboardState.initialized = k.keyboardState.initialized ∧
        (inputEventDrop k).inputEventCount = min log.length 63 ∧
        (inputEventDrop k).inputEventHead = (log.length - 63) % 64 := by
    unfold inputEventDrop inputEventQueueCapacity
    split
    next hFull =>
      refine ⟨rfl, rfl, rfl, rfl, rfl, ?_, ?_⟩
      · dsimp only
        omega
      · dsimp only
        omega
    next hSpace =>
      refine ⟨rfl, rfl, rfl, rfl, rfl, ?_, ?_⟩
      · omega
      · omega
  obtain ⟨hQueue, hTicks, hNext, hDropTail, hReady, hDropCount, hDropHead⟩ := hDropped
  unfold inputEventPush
  refine ⟨?_, ?_, ?_, ?_, ?_, ?_, ?_⟩
  · dsimp only
    rw [hReady]
    exact hRing.ready
  · dsimp only
    rw [hNext, hRing.next, List.length_append, List.length_singleton]
    exact Nat.mod_eq_of_lt hRoom
  · dsimp only
    rw [hDropCount, List.length_append, List.length_singleton]
    omega
  · dsimp only [inputEventQueueCapacity]
    rw [hDropTail, hTail, List.length_append, List.length_singleton]
    omega
  · dsimp only
    rw [hDropHead, List.length_append, List.length_singleton]
    omega
  · intro j event hEntry hKept
    rw [List.length_append, List.length_singleton] at hKept
    dsimp only
    rw [hQueue, hTicks, hNext, hDropTail, hTail, hRing.next]
    rcases getElem?_pushed hEntry with hOld | ⟨rfl, rfl⟩
    · obtain ⟨hLt, -⟩ := List.getElem?_eq_some_iff.mp hOld
      rw [Function.update_of_ne (by omega)]
      exact hRing.kept j event hOld (by omega)
    · rw [Function.update_self]
  · intro j event hEntry
    rcases getElem?_pushed hEntry with hOld | ⟨rfl, rfl⟩
    · exact hRing.numbered j event hOld
    · rfl

----------
-- A Read As A Piece Of The Log

/- What a reader at a position is given, as in a feed. -/
def unread (log : List InputEvent) (position maxEvents : Nat) : List InputEvent :=
  (log.drop (Feed.first 64 log.length position)).take maxEvents

theorem length_unread (log : List InputEvent) (position maxEvents : Nat) :
    (unread log position maxEvents).length = Feed.taken 64 log.length position maxEvents := by
  rw [unread, List.length_take, List.length_drop, Feed.taken]

/- The event under an offset from the head. -/
theorem RingHolds.event (hRing : RingHolds k log) {i : Nat}
    (hIndex : log.length - 64 + i < log.length) :
    k.inputEventQueue ((k.inputEventHead + i) % inputEventQueueCapacity) =
      log[log.length - 64 + i] := by
  have hSlot : (k.inputEventHead + i) % inputEventQueueCapacity = (log.length - 64 + i) % 64 := by
    rw [hRing.head, inputEventQueueCapacity]
    omega
  rw [hSlot]
  exact hRing.kept _ _ (List.getElem?_eq_getElem hIndex) (by omega)

/-
  The loop from offset `i` on stores the events past the cursor in the order of the log; by
  induction on the turns that are left.
-/
theorem collectEvents_eq (hRing : RingHolds k log) (current maxEvents turns i : Nat)
    (hTurns : log.length - 64 + i + turns = log.length) (events : List InputEvent) (cursor : Nat) :
    let rest := (log.drop (max current (log.length - 64 + i))).take (maxEvents - events.length)
    collectEvents k current maxEvents turns i events cursor =
      (events ++ rest, if rest.length = 0 then
          cursor
        else
          max current (log.length - 64 + i) + rest.length) := by
  induction turns generalizing i events cursor with
  | zero =>
    have hEnd : log.drop (max current (log.length - 64 + i)) = [] :=
      List.drop_eq_nil_of_le (by omega)
    simp only [collectEvents, hEnd, List.take_nil, List.append_nil, List.length_nil, if_true]
  | succ turns ih =>
    have hIndex : log.length - 64 + i < log.length := by omega
    by_cases hSpace : events.length < maxEvents
    · have hEvent := hRing.event hIndex
      have hNumber := hRing.numbered _ _ (List.getElem?_eq_getElem hIndex)
      rw [collectEvents, if_pos hSpace]
      dsimp only
      rw [hEvent, hNumber]
      by_cases hPast : current < log.length - 64 + i + 1
      · have hFrom : max current (log.length - 64 + i) = log.length - 64 + i := by omega
        have hNext : max current (log.length - 64 + (i + 1)) = log.length - 64 + i + 1 := by omega
        obtain ⟨room, hRoom⟩ : ∃ room, maxEvents - events.length = room + 1 :=
          ⟨maxEvents - events.length - 1, by omega⟩
        have hRest : maxEvents - (events ++ [log[log.length - 64 + i]]).length = room := by
          rw [List.length_append, List.length_singleton]
          omega
        rw [if_pos hPast, ih _ (by omega), hFrom, hNext, hRoom,
          hRest, List.drop_eq_getElem_cons hIndex,
          List.take_succ_cons, List.append_assoc,
          List.singleton_append, List.length_cons,
          if_neg (Nat.succ_ne_zero _)]
        refine Prod.ext rfl ?_
        dsimp only
        split
        · omega
        · omega
      · have hFrom :
            max current (log.length - 64 + (i + 1)) = max current (log.length - 64 + i) := by
          omega
        rw [if_neg hPast, ih _ (by omega), hFrom]
    · have hFull : maxEvents - events.length = 0 := by omega
      rw [collectEvents, if_neg hSpace]
      simp only [hFull, List.take_zero, List.append_nil, List.length_nil, if_true]

/- One call on a cursor at or below the latest number. -/
theorem inputEventsReadFrom_eq (hRing : RingHolds k log) {maxEvents : Nat}
    (hCursor : cursor ≤ log.length) (hEvents : events ≠ 0) :
    (inputEventsReadFrom cursor events maxEvents k).1 = unread log cursor maxEvents ∧
      (inputEventsReadFrom cursor events maxEvents k).2.1 =
        (if Feed.taken 64 log.length cursor maxEvents = 0 then
          cursor
        else
          Feed.first 64 log.length cursor + Feed.taken 64 log.length cursor maxEvents) ∧
      RingHolds (inputEventsReadFrom cursor events maxEvents k).2.2 log := by
  unfold inputEventsReadFrom
  by_cases hMax : maxEvents = 0
  · have hNone : Feed.taken 64 log.length cursor maxEvents = 0 := by
      rw [hMax, Feed.taken, Nat.zero_min]
    rw [if_pos (Or.inr (Or.inl hMax)), hNone, if_pos rfl, unread, hMax, List.take_zero]
    exact ⟨rfl, rfl, hRing⟩
  have hCall : ¬ (events = 0 ∨ maxEvents = 0 ∨ k.keyboardState.initialized = 0) := by
    rintro (hNull | hZero | hDown)
    · exact hEvents hNull
    · exact hMax hZero
    · exact hRing.ready hDown
  rw [if_neg hCall]
  dsimp only
  by_cases hEmpty : k.inputEventCount = 0
  · have hLength : log.length = 0 := by
      have hCount := hRing.count
      omega
    have hNone : Feed.taken 64 log.length cursor maxEvents = 0 := by
      unfold Feed.taken Feed.first
      omega
    have hLatest : inputEventLatestSequence k = cursor := by
      rw [hRing.latest]
      omega
    have hNothing : unread log cursor maxEvents = [] :=
      List.length_eq_zero_iff.mp ((length_unread log cursor maxEvents).trans hNone)
    rw [if_pos hEmpty, hNone, if_pos rfl, hNothing]
    exact ⟨rfl, hLatest, ⟨hRing.ready, hRing.next, hRing.count,
      hRing.tail, hRing.head, hRing.kept, hRing.numbered⟩⟩
  · have hCount := hRing.count
    have hHead : log.length - 64 + 0 < log.length := by omega
    have hOldest : (k.inputEventQueue k.inputEventHead).sequence = log.length - 64 + 1 := by
      have hEvent := hRing.event hHead
      rw [Nat.add_zero, hRing.head, inputEventQueueCapacity, Nat.mod_mod] at hEvent
      rw [hRing.head, hEvent]
      exact hRing.numbered _ _ (List.getElem?_eq_getElem hHead)
    have hCurrent :
        (if cursor < log.length - 64 + 1 - 1 then
          log.length - 64 + 1 - 1
        else
          cursor) = Feed.first 64 log.length cursor := by
      unfold Feed.first
      split
      · omega
      · omega
    have hFirst : max (Feed.first 64 log.length cursor) (log.length - 64 + 0) =
          Feed.first 64 log.length cursor := by
      unfold Feed.first
      omega
    rw [if_neg hEmpty, hOldest, hCurrent]
    have hCounted : RingHolds
          { k with
            keyboardState :=
              { k.keyboardState with eventReadCalls := u32 (k.keyboardState.eventReadCalls + 1) } }
          log :=
      ⟨hRing.ready, hRing.next, hRing.count, hRing.tail, hRing.head, hRing.kept, hRing.numbered⟩
    have hCollect := collectEvents_eq hCounted (Feed.first 64 log.length cursor) maxEvents
        k.inputEventCount 0 (by omega) [] cursor
    dsimp only at hCollect
    rw [hFirst, List.length_nil, Nat.sub_zero, List.nil_append] at hCollect
    rw [hCollect]
    dsimp only
    have hLength := length_unread log cursor maxEvents
    unfold unread at hLength
    rw [hLength]
    exact ⟨rfl, rfl, ⟨hRing.ready, hRing.next, hRing.count,
      hRing.tail, hRing.head, hRing.kept, hRing.numbered⟩⟩

----------
-- Readers As Readers Of A Feed

/- The events behind the receipts of a feed's reader. -/
def deliveries (log : List InputEvent) (receipts : List Feed.Receipt) : List Delivery :=
  receipts.filterMap fun receipt =>
    log[receipt.index]?.map fun event => ⟨event, receipt.total⟩

structure Follows (t : InputReaders) (readers : Nat → Feed.Reader) : Prop where
  ring : RingHolds t.driver t.log
  cursors : ∀ r, t.cursors r = (readers r).position
  started : ∀ r, t.started r = (readers r).start
  received : ∀ r, t.received r = deliveries t.log (readers r).receipts
  faithful : ∀ r, Feed.Faithful 64 t.log.length (readers r)

theorem mem_deliveries : d ∈ deliveries log receipts ↔
      ∃ receipt ∈ receipts, log[receipt.index]? = some d.event ∧ receipt.total = d.pushes := by
  rcases d with ⟨event, pushes⟩
  simp only [deliveries, List.mem_filterMap, Option.map_eq_some_iff, Delivery.mk.injEq]
  constructor
  · rintro ⟨receipt, hMember, event', hEntry, rfl, rfl⟩
    exact ⟨receipt, hMember, hEntry, rfl⟩
  · rintro ⟨receipt, hMember, hEntry, rfl⟩
    exact ⟨receipt, hMember, event, hEntry, rfl, rfl⟩

theorem deliveries_append (log : List InputEvent) (receipts later : List Feed.Receipt) :
    deliveries log (receipts ++ later) = deliveries log receipts ++ deliveries log later :=
  List.filterMap_append

/- A longer log has the same events under old receipts. -/
theorem deliveries_grow (hOld : ∀ receipt ∈ receipts, receipt.index < log.length)
    (later : List InputEvent) :
    deliveries (log ++ later) receipts = deliveries log receipts := by
  unfold deliveries
  refine List.filterMap_congr ?_
  intro receipt hMember
  rw [List.getElem?_append_left (hOld receipt hMember)]

/- What a read stores is what its receipts stand for. -/
theorem deliveries_range' (log : List InputEvent) (total start count : Nat) : deliveries log
        ((List.range' start count).map fun index =>
          ⟨index, total⟩) =
      ((log.drop start).take count).map fun event =>
        ⟨event, total⟩ := by
  induction count generalizing start with
  | zero => rfl
  | succ count ih =>
    rw [List.range'_succ, List.map_cons]
    by_cases hIn : start < log.length
    · rw [List.drop_eq_getElem_cons hIn, List.take_succ_cons, List.map_cons, ← ih (start + 1)]
      simp only [deliveries, List.filterMap_cons, List.getElem?_eq_getElem hIn, Option.map_some]
    · have hBehind : log.drop (start + 1) = [] := List.drop_eq_nil_of_le (by omega)
      have hRest := ih (start + 1)
      rw [hBehind, List.take_nil, List.map_nil] at hRest
      rw [List.drop_eq_nil_of_le (by omega), List.take_nil, List.map_nil, ← hRest]
      simp only [deliveries, List.filterMap_cons,
        List.getElem?_eq_none (not_lt.mp hIn), Option.map_none]

theorem Follows.booted (irq1Unmasked interruptsEnabledAfter : Nat) (k : KeyboardDriver) :
    Follows (InputReaders.booted irq1Unmasked interruptsEnabledAfter k)
      (fun _ => Feed.Reader.startAt 0) where
  ring := RingHolds.booted irq1Unmasked interruptsEnabledAfter k
  cursors := fun _ => rfl
  started := fun _ => rfl
  received := fun _ => rfl
  faithful := fun _ => Feed.Faithful.startAt (le_refl _)

section

variable (hFollows : Follows t readers)
include hFollows

theorem Follows.timer :
    Follows { t with driver := timerHandleIrq t.driver } readers where
  ring :=
    ⟨hFollows.ring.ready, hFollows.ring.next, hFollows.ring.count,
      hFollows.ring.tail, hFollows.ring.head, hFollows.ring.kept, hFollows.ring.numbered⟩
  cursors := hFollows.cursors
  started := hFollows.started
  received := hFollows.received
  faithful := hFollows.faithful

theorem Follows.push (hRoom : t.log.length + 2 < 2 ^ 32) (type code value flags : Nat) :
    Follows (t.step (.push type code value flags)).2 readers where
  ring := hFollows.ring.push hRoom type code value flags
  cursors := hFollows.cursors
  started := hFollows.started
  received := by
    intro r
    have hFaithful := hFollows.faithful r
    refine (hFollows.received r).trans (deliveries_grow ?_ _).symm
    intro receipt hMember
    exact lt_of_lt_of_le (hFaithful.passed receipt hMember).2 hFaithful.bounds.2
  faithful := by
    intro r
    refine (hFollows.faithful r).grow ?_
    dsimp only [InputReaders.step]
    rw [List.length_append]
    exact Nat.le_add_right _ _

theorem Follows.startAt (reader : Nat) (hCursor : cursor ≤ t.log.length) :
    Follows (t.startAt reader cursor)
      (Function.update readers reader (Feed.Reader.startAt cursor)) := by
  refine ⟨hFollows.ring, ?_, ?_, ?_, ?_⟩
  all_goals
    intro r
    dsimp only [InputReaders.startAt]
    by_cases hSame : r = reader
  · rw [hSame, Function.update_self, Function.update_self]
    rfl
  · rw [Function.update_of_ne hSame, Function.update_of_ne hSame]
    exact hFollows.cursors r
  · rw [hSame, Function.update_self, Function.update_self]
    rfl
  · rw [Function.update_of_ne hSame, Function.update_of_ne hSame]
    exact hFollows.started r
  · rw [hSame, Function.update_self, Function.update_self]
    rfl
  · rw [Function.update_of_ne hSame, Function.update_of_ne hSame]
    exact hFollows.received r
  · rw [hSame, Function.update_self]
    exact Feed.Faithful.startAt hCursor
  · rw [Function.update_of_ne hSame]
    exact hFollows.faithful r

/- A call without a buffer stores nothing. -/
theorem Follows.read_null (reader maxEvents : Nat) :
    Follows (t.read reader 0 maxEvents).2 readers := by
  have hSame : (t.read reader 0 maxEvents).2 = t := by
    dsimp only [InputReaders.read, inputEventsReadFrom]
    rw [if_pos (Or.inl rfl)]
    dsimp only
    rw [Function.update_eq_self, List.map_nil, List.append_nil, Function.update_eq_self]
  rw [hSame]
  exact hFollows

theorem Follows.cursor_le (reader : Nat) :
    t.cursors reader ≤ t.log.length := by
  rw [hFollows.cursors reader]
  exact (hFollows.faithful reader).bounds.2

theorem Follows.read (reader : Nat) (hEvents : events ≠ 0) (maxEvents : Nat) :
    Follows (t.read reader events maxEvents).2
      (Function.update readers reader ((readers reader).read 64 t.log.length maxEvents)) := by
  obtain ⟨hStored, hCursor, hRing⟩ :=
    inputEventsReadFrom_eq hFollows.ring (hFollows.cursor_le reader) hEvents
  have hTaken := length_unread t.log (t.cursors reader) maxEvents
  refine ⟨hRing, ?_, ?_, ?_, ?_⟩
  all_goals
    intro r
    dsimp only [InputReaders.read]
    by_cases hSame : r = reader
  · rw [hSame, Function.update_self, Function.update_self, hCursor, hFollows.cursors reader]
    rfl
  · rw [Function.update_of_ne hSame, Function.update_of_ne hSame]
    exact hFollows.cursors r
  · rw [hSame, Function.update_self]
    exact hFollows.started reader
  · rw [Function.update_of_ne hSame]
    exact hFollows.started r
  · rw [hSame, Function.update_self, Function.update_self, hFollows.received reader, hStored]
    dsimp only [Feed.Reader.read]
    rw [deliveries_append, Feed.batch, deliveries_range',
      ← hFollows.cursors reader, Feed.taken, ← List.length_drop, ← List.take_eq_take_min]
    rfl
  · rw [Function.update_of_ne hSame, Function.update_of_ne hSame]
    exact hFollows.received r
  · rw [hSame, Function.update_self]
    exact (hFollows.faithful reader).read maxEvents
  · rw [Function.update_of_ne hSame]
    exact hFollows.faithful r

theorem Follows.step (call : InputCall) (hRoom : (t.step call).2.log.length < 2 ^ 32 - 1) :
    ∃ readers', Follows (t.step call).2 readers' := by
  cases call with
  | timer => exact ⟨readers, hFollows.timer⟩
  | push type code value flags =>
    dsimp only [InputReaders.step] at hRoom
    rw [List.length_append, List.length_singleton] at hRoom
    exact ⟨readers, hFollows.push (by omega) type code value flags⟩
  | start reader fromLatest =>
    refine ⟨_, hFollows.startAt reader ?_⟩
    split
    · exact hFollows.ring.latest.le
    · exact Nat.zero_le _
  | read reader events maxEvents =>
    dsimp only [InputReaders.step]
    by_cases hNull : events.toNat = 0
    · rw [hNull]
      exact ⟨readers, hFollows.read_null reader _⟩
    · exact ⟨_, hFollows.read reader hNull _⟩

end

----------
-- Delivery

section

variable (hFollows : Follows t readers)
include hFollows

theorem Follows.received_receipt (hReceived : d ∈ t.received reader) :
    ∃ receipt ∈ (readers reader).receipts,
      t.log[receipt.index]? = some d.event ∧ receipt.total = d.pushes ∧
        d.event.sequence = receipt.index + 1 := by
  rw [hFollows.received reader] at hReceived
  obtain ⟨receipt, hMember, hEntry, hTotal⟩ := mem_deliveries.mp hReceived
  exact ⟨receipt, hMember, hEntry, hTotal, hFollows.ring.numbered _ _ hEntry⟩

theorem Follows.receipt_received {receipt : Feed.Receipt}
    (hMember : receipt ∈ (readers reader).receipts) :
    ∃ d ∈ t.received reader, t.log[receipt.index]? = some d.event ∧ receipt.total = d.pushes ∧
        d.event.sequence = receipt.index + 1 := by
  have hFaithful := hFollows.faithful reader
  have hIndex : receipt.index < t.log.length :=
    lt_of_lt_of_le (hFaithful.passed receipt hMember).2 hFaithful.bounds.2
  have hEntry := List.getElem?_eq_getElem hIndex
  refine ⟨⟨t.log[receipt.index], receipt.total⟩, ?_, hEntry, rfl, hFollows.ring.numbered _ _ hEntry⟩
  rw [hFollows.received reader]
  exact mem_deliveries.mpr ⟨receipt, hMember, hEntry, rfl⟩

/- What the receipts leave out was overwritten in time. -/
theorem Follows.overwritten {event : InputEvent} (hNumber : event.sequence = index + 1)
    (hOvertaken : Feed.Overtaken 64 (readers reader).receipts index) :
    OverwrittenBefore (t.received reader) event := by
  obtain ⟨receipt, hMember, hPast, hFirst, hLost⟩ := hOvertaken
  obtain ⟨d, hReceived, -, hTotal, hSequence⟩ := hFollows.receipt_received hMember
  refine ⟨d, hReceived, by omega, ?_, ?_⟩
  · intro d' hReceived' hPast'
    obtain ⟨receipt', hMember', -, -, hSequence'⟩ := hFollows.received_receipt hReceived'
    have hOrder := hFirst receipt' hMember' (by omega)
    omega
  · rw [inputEventQueueCapacity]
    omega

theorem Follows.delivers (reader : Nat) : DeliveryLaw t reader := by
  have hFaithful := hFollows.faithful reader
  refine ⟨?_, ?_, ?_⟩
  · rw [hFollows.received reader, deliveries, List.pairwise_filterMap]
    refine hFaithful.increasing.imp ?_
    intro receipt receipt' hOrder d hd d' hd'
    obtain ⟨event, hEntry, rfl⟩ := Option.map_eq_some_iff.mp hd
    obtain ⟨event', hEntry', rfl⟩ := Option.map_eq_some_iff.mp hd'
    have hNumber := hFollows.ring.numbered _ _ hEntry
    have hNumber' := hFollows.ring.numbered _ _ hEntry'
    dsimp only
    omega
  · intro d hReceived
    obtain ⟨receipt, hMember, hEntry, -, hSequence⟩ := hFollows.received_receipt hReceived
    have hPassed := hFaithful.passed receipt hMember
    rw [hFollows.started reader, hSequence, Nat.add_sub_cancel]
    exact ⟨by omega, hEntry⟩
  · intro event hPushed hNewer
    obtain ⟨index, hEntry⟩ := List.mem_iff_getElem?.mp hPushed
    have hNumber := hFollows.ring.numbered _ _ hEntry
    rw [hFollows.started reader] at hNewer
    by_cases hPassed : index < (readers reader).position
    · rcases hFaithful.covered index (by omega) hPassed with ⟨receipt, hMember, rfl⟩ | hOvertaken
      · obtain ⟨d, hReceived, hSame, -, -⟩ := hFollows.receipt_received hMember
        rw [hEntry] at hSame
        exact Or.inl ⟨d, hReceived, (Option.some.inj hSame).symm⟩
      · exact Or.inr (Or.inr (hFollows.overwritten hNumber hOvertaken))
    · refine Or.inr (Or.inl ?_)
      intro d hReceived
      obtain ⟨receipt, hMember, -, -, hSequence⟩ := hFollows.received_receipt hReceived
      have hBefore := hFaithful.passed receipt hMember
      omega

/- An event ahead of all received ones has not been passed. -/
theorem Follows.position_le (hStart : (readers reader).start ≤ index)
    (hAhead : ∀ d ∈ t.received reader, d.event.sequence < index + 1) :
    (readers reader).position ≤ index := by
  by_contra hPassed
  rcases (hFollows.faithful reader).covered index hStart
    (by omega) with ⟨receipt, hMember, rfl⟩ | hOvertaken
  · obtain ⟨d, hReceived, -, -, hSequence⟩ := hFollows.receipt_received hMember
    have hLt := hAhead d hReceived
    omega
  · obtain ⟨receipt, hMember, hPast, -, -⟩ := hOvertaken
    obtain ⟨d, hReceived, -, -, hSequence⟩ := hFollows.receipt_received hMember
    have hLt := hAhead d hReceived
    omega

theorem Follows.serves (reader : Nat) (hEvents : events ≠ 0) (maxEvents : Nat) :
    Served t reader maxEvents (t.read reader events maxEvents).1 := by
  obtain ⟨hStored, -, -⟩ := inputEventsReadFrom_eq hFollows.ring (hFollows.cursor_le reader) hEvents
  intro event hPushed hNewer hAhead hKept
  obtain ⟨index, hEntry⟩ := List.mem_iff_getElem?.mp hPushed
  obtain ⟨hIndex, -⟩ := List.getElem?_eq_some_iff.mp hEntry
  have hNumber := hFollows.ring.numbered _ _ hEntry
  rw [hFollows.started reader] at hNewer
  rw [hNumber] at hAhead
  have hPosition := hFollows.position_le (by omega : _ ≤ index) hAhead
  have hFirst : Feed.first 64 t.log.length (t.cursors reader) ≤ index := by
    rw [hFollows.cursors reader, Feed.first]
    rw [hNumber, inputEventQueueCapacity] at hKept
    omega
  change event ∈ (inputEventsReadFrom (t.cursors reader) events maxEvents t.driver).1 ∨
    (inputEventsReadFrom (t.cursors reader) events maxEvents
        t.driver).1.length = maxEvents ∧ ∀ older ∈
      (inputEventsReadFrom (t.cursors reader) events maxEvents
        t.driver).1, older.sequence < event.sequence
  rw [hStored]
  -- whether the call has room up to the event
  by_cases hRoom : index < Feed.first 64 t.log.length (t.cursors reader) + maxEvents
  · refine Or.inl (List.mem_iff_getElem?.mpr
      ⟨index - Feed.first 64 t.log.length (t.cursors reader), ?_⟩)
    rw [unread, List.getElem?_take_of_lt (by omega),
      List.getElem?_drop, Nat.add_sub_cancel' hFirst, hEntry]
  · refine Or.inr ⟨?_, ?_⟩
    · rw [length_unread, Feed.taken]
      omega
    · intro older hOlder
      obtain ⟨j, hj⟩ := List.mem_iff_getElem?.mp hOlder
      obtain ⟨hLength, -⟩ := List.getElem?_eq_some_iff.mp hj
      rw [unread, List.length_take] at hLength
      rw [unread, List.getElem?_take_of_lt (by omega), List.getElem?_drop] at hj
      have hOlderNumber := hFollows.ring.numbered _ _ hj
      omega

end

theorem length_log_step (t : InputReaders) (call : InputCall) (calls : List InputCall) :
    (t.step call).2.log.length + pushCount calls = t.log.length + pushCount (call :: calls) := by
  cases call with
  | push type code value flags =>
    dsimp only [InputReaders.step, pushCount]
    rw [List.length_append, List.length_singleton]
    omega
  | timer => rfl
  | start reader fromLatest => rfl
  | read reader events maxEvents => rfl

/- A run of few enough pushes keeps to the log. -/
theorem Follows.run (hFollows : Follows t readers) {calls : List InputCall}
    (hPushes : t.log.length + pushCount calls < 2 ^ 32 - 1) :
    ∃ readers', Follows (Calls.run InputReaders.step t calls).2 readers' := by
  induction calls generalizing t readers with
  | nil => exact ⟨readers, hFollows⟩
  | cons call calls ih =>
    rw [← length_log_step t call calls] at hPushes
    obtain ⟨readers', hNext⟩ := hFollows.step call (by omega)
    exact ih hNext hPushes

/-
  In every state of a run every reader has received pushed events with increasing numbers and
  missed only overwritten ones, and a read serves what is there.
-/
theorem inputEvents_delivered (irq1Unmasked interruptsEnabledAfter : Nat) (k : KeyboardDriver)
    (calls : List InputCall) (hPushes : pushCount calls < 2 ^ 32 - 1) :
    let t :=
      (Calls.run InputReaders.step
        (InputReaders.booted irq1Unmasked interruptsEnabledAfter k) calls).2
    ∀ reader, DeliveryLaw t reader ∧ ∀ events maxEvents : UInt64, events ≠ 0 →
          Served t reader maxEvents.toNat (t.step (.read reader events maxEvents)).1 := by
  intro t reader
  have hStart := Follows.booted irq1Unmasked interruptsEnabledAfter k
  obtain ⟨readers, hFollows⟩ :=
    hStart.run (by
      dsimp only [InputReaders.booted]
      rw [List.length_nil, Nat.zero_add]
      exact hPushes)
  refine ⟨hFollows.delivers reader, ?_⟩
  intro events maxEvents hEvents
  refine hFollows.serves reader ?_ maxEvents.toNat
  intro hZero
  exact hEvents (UInt64.toNat_inj.mp hZero)

def idleKeyboard : KeyboardDriver where
  timerTicks := 0
  keyboardState := ⟨0, 0, 0, 0, 0, 0, 0, 0, 0, 0, 0, 0, 0, 0, 0, 0, 0, 0, 0, 0, 0, 0⟩
  keyboardBuffer := fun _ => 0
  keyboardBufferHead := 0
  keyboardBufferTail := 0
  keyboardBufferCount := 0
  inputEventQueue := fun _ => ⟨0, 0, 0, 0, 0, 0⟩
  inputEventHead := 0
  inputEventTail := 0
  inputEventCount := 0
  inputEventNextSequence := 0

/- Two keys, with a reader that starts between them. -/
def twoKeys : List InputCall :=
  [ .push 1 30 97 1, .start 7 true, .timer, .push 1 31 115 1, .read 7 0x400000 4,
    .read 0 0x400000 1 ]

theorem inputEvents_delivered_twoKeys :
    let t := (Calls.run InputReaders.step (InputReaders.booted 1 1 idleKeyboard) twoKeys).2
    (t.received 7).map (·.event) = [⟨1, 31, 115, 1, 1, 2⟩] ∧
      (t.received 0).map (·.event) = [⟨1, 30, 97, 1, 0, 1⟩] ∧
      DeliveryLaw t 7 := by
  refine ⟨by decide, by decide, ?_⟩
  exact (inputEvents_delivered 1 1 idleKeyboard twoKeys (by decide) 7).1

end LiamOS.X64
