import LiamOS.X64.Keyboard.Model

/-
  The ring of typed characters as a queue: what was accepted and not yet read stands in it from
  the head on, in the order of the pushes.

  Main declarations: `CharacterTraffic`, `characters_lossless`.
-/

namespace LiamOS.X64

open Word

variable {k : KeyboardDriver} {unread : List UInt8}

inductive CharacterCall
| push (ascii : UInt8)
| read (buffer size : UInt64)

/- The driver with the characters it took and those it gave. -/
structure CharacterTraffic where
  driver : KeyboardDriver
  accepted : List UInt8
  read : List UInt8

/- Whether a push is counted as an overflow. -/
def CharacterTraffic.Refuses (t : CharacterTraffic) (ascii : UInt8) : Prop :=
  (keyboardBufferPush ascii t.driver).keyboardState.bufferOverflows =
    u32 (t.driver.keyboardState.bufferOverflows + 1)

/- A push is accepted if the driver does not count an overflow. -/
def CharacterTraffic.step (t : CharacterTraffic) : CharacterCall → CharacterTraffic
| .push ascii =>
    let driver := keyboardBufferPush ascii t.driver
    let overflows := t.driver.keyboardState.bufferOverflows
    { t with
      driver := driver
      accepted := if driver.keyboardState.bufferOverflows = overflows then
          t.accepted ++ [ascii]
        else
          t.accepted }
| .read buffer size =>
    let result := keyboardRead buffer.toNat size.toNat t.driver
    { t with
      driver := result.2
      read := t.read ++ result.1 }

/- The characters wait in the ring, from the head on. -/
structure RingOf (k : KeyboardDriver) (unread : List UInt8) : Prop where
  count : k.keyboardBufferCount = unread.length
  room : unread.length ≤ 128
  head : k.keyboardBufferHead < 128
  tail : k.keyboardBufferTail = (k.keyboardBufferHead + unread.length) % 128
  bytes : ∀ i c, unread[i]? = some c → k.keyboardBuffer ((k.keyboardBufferHead + i) % 128) = c

theorem RingOf.withState (hRing : RingOf k unread) (state : KeyboardState) :
    RingOf { k with keyboardState := state } unread :=
  ⟨hRing.count, hRing.room, hRing.head, hRing.tail, hRing.bytes⟩

theorem RingOf.push (hRing : RingOf k unread) (hRoom : unread.length < 128) (ascii : UInt8) :
    RingOf (keyboardBufferPush ascii k) (unread ++ [ascii]) := by
  have hCount := hRing.count
  have hTail := hRing.tail
  have hSpace : ¬ keyboardBufferCapacity ≤ k.keyboardBufferCount := by
    rw [hCount, keyboardBufferCapacity]
    omega
  unfold keyboardBufferPush
  rw [if_neg hSpace]
  refine ⟨by simp [hCount], by simpa using hRoom, hRing.head, ?_, ?_⟩
  · simp only [hTail, keyboardBufferCapacity, List.length_append, List.length_singleton]
    omega
  · intro i c hAt
    dsimp only
    by_cases hOld : i < unread.length
    · rw [List.getElem?_append_left hOld] at hAt
      rw [Function.update_of_ne (by omega)]
      exact hRing.bytes i c hAt
    · obtain ⟨hLt, rfl⟩ := List.getElem?_eq_some_iff.mp hAt
      rw [List.length_append, List.length_singleton] at hLt
      obtain rfl : i = unread.length := by omega
      rw [hTail, Function.update_self, List.getElem_concat_length rfl]

/- The head moves past the oldest character. -/
theorem RingOf.pop {ascii : UInt8} (hRing : RingOf k (ascii :: unread)) :
    RingOf
      { k with
        keyboardBufferHead := (k.keyboardBufferHead + 1) % keyboardBufferCapacity
        keyboardBufferCount := k.keyboardBufferCount - 1 }
      unread := by
  have hCount := hRing.count
  have hRoom := hRing.room
  have hTail := hRing.tail
  rw [List.length_cons] at hCount hRoom hTail
  refine ⟨by simp [hCount], by omega, Nat.mod_lt _ (by decide), ?_, ?_⟩
  · simp only [hTail, keyboardBufferCapacity]
    omega
  · intro i c hAt
    have hByte := hRing.bytes (i + 1) c (by simpa using hAt)
    simp only [keyboardBufferCapacity, Nat.mod_add_mod]
    rw [Nat.add_assoc, Nat.add_comm 1 i]
    exact hByte

/- The loop gives the oldest characters; the rest of the ring and the state stay. -/
theorem takeCharacters_eq (size : Nat) (bytes : List UInt8) (hRing : RingOf k unread) :
    ∃ k', takeCharacters size unread.length bytes k =
        (bytes ++ unread.take (size - bytes.length), k') ∧
      RingOf k' (unread.drop (size - bytes.length)) ∧ k'.keyboardState = k.keyboardState := by
  induction unread generalizing k bytes with
  | nil => exact ⟨k, by simp [takeCharacters], by simpa using hRing, rfl⟩
  | cons ascii unread ih =>
    have hCount := hRing.count
    have hFirst := hRing.bytes 0 ascii rfl
    rw [Nat.add_zero, Nat.mod_eq_of_lt hRing.head] at hFirst
    rw [List.length_cons] at hCount ⊢
    rw [takeCharacters]
    by_cases hMore : bytes.length < size
    · obtain ⟨k', hLoop, hRest, hState⟩ := ih (bytes ++ [ascii]) hRing.pop
      obtain ⟨n, hLeft⟩ := Nat.exists_eq_add_of_lt hMore
      have hNow : size - bytes.length = n + 1 := by omega
      have hNext : size - (bytes ++ [ascii]).length = n := by simp; omega
      rw [if_pos ⟨hMore, by omega⟩, hFirst, hLoop, hNow, hNext]
      rw [hNext] at hRest
      exact ⟨k', by simp, hRest, hState⟩
    · have hNone : size - bytes.length = 0 := by omega
      rw [if_neg (fun h => hMore h.1), hNone]
      exact ⟨k, by simp, hRing, rfl⟩

/- What was accepted is what was read and what waits. -/
structure CharacterTraffic.Queued (t : CharacterTraffic) (unread : List UInt8) : Prop where
  ring : RingOf t.driver unread
  split : t.accepted = t.read ++ unread
  buffered : t.driver.keyboardState.bufferedChars = unread.length
  ready : t.driver.keyboardState.initialized ≠ 0

namespace CharacterTraffic.Queued

variable {t : CharacterTraffic}

theorem refuses_iff (hQueued : t.Queued unread) (ascii : UInt8) :
    t.Refuses ascii ↔ unread.length = 128 := by
  have hCount := hQueued.ring.count
  have hRoom := hQueued.ring.room
  unfold CharacterTraffic.Refuses keyboardBufferPush keyboardBufferCapacity
  split_ifs with hFull
  · exact ⟨fun _ => by omega, fun _ => rfl⟩
  · refine ⟨fun hSame => ?_, fun hAll => by omega⟩
    simp only [u32] at hSame
    omega

/- A read with a buffer gives the oldest characters that wait. -/
theorem keyboardRead_eq (hQueued : t.Queued unread) {buffer : Nat} (hBuffer : buffer ≠ 0)
    (size : Nat) :
    (keyboardRead buffer size t.driver).1 = unread.take size ∧
      Queued ⟨(keyboardRead buffer size t.driver).2, t.accepted, t.read ++ unread.take size⟩
        (unread.drop size) := by
  have hSplit : t.accepted = t.read ++ unread.take size ++ unread.drop size := by
    rw [List.append_assoc, List.take_append_drop]
    exact hQueued.split
  unfold keyboardRead
  by_cases hSize : size = 0
  · subst hSize
    rw [if_pos (Or.inr (Or.inl rfl))]
    exact ⟨rfl, hQueued.ring, hSplit, hQueued.buffered, hQueued.ready⟩
  · obtain ⟨k', hLoop, hRest, hState⟩ := takeCharacters_eq size [] (hQueued.ring.withState
        { t.driver.keyboardState with readCalls := u32 (t.driver.keyboardState.readCalls + 1) })
    rw [← hQueued.ring.count] at hLoop
    rw [if_neg (by simp [hBuffer, hSize, hQueued.ready]), hLoop]
    refine ⟨rfl, hRest.withState _, hSplit, hRest.count, ?_⟩
    dsimp only
    rw [hState]
    exact hQueued.ready

theorem step (hQueued : t.Queued unread) (call : CharacterCall) :
    ∃ unread', (t.step call).Queued unread' := by
  cases call with
  | push ascii =>
    have hCount := hQueued.ring.count
    by_cases hFull : keyboardBufferCapacity ≤ t.driver.keyboardBufferCount
    · -- nothing but the overflow counter changes
      have hCounted : u32 (t.driver.keyboardState.bufferOverflows + 1) ≠
            t.driver.keyboardState.bufferOverflows := by
        unfold u32
        omega
      refine ⟨unread, ?_⟩
      simp only [CharacterTraffic.step, keyboardBufferPush, if_pos hFull, if_neg hCounted]
      exact ⟨hQueued.ring.withState _, hQueued.split, hQueued.buffered, hQueued.ready⟩
    · have hRing := hQueued.ring.push (by
        rw [keyboardBufferCapacity] at hFull
        omega) ascii
      refine ⟨unread ++ [ascii], ?_⟩
      simp only [CharacterTraffic.step, keyboardBufferPush, if_neg hFull, if_true] at hRing ⊢
      exact ⟨hRing, by simp [hQueued.split], hRing.count, hQueued.ready⟩
  | read buffer size =>
    unfold CharacterTraffic.step
    by_cases hBuffer : buffer.toNat = 0
    · refine ⟨unread, ?_⟩
      simp only [keyboardRead, hBuffer, true_or, if_true, List.append_nil]
      exact hQueued
    · obtain ⟨hGiven, hNext⟩ := hQueued.keyboardRead_eq hBuffer size.toNat
      dsimp only
      rw [hGiven]
      exact ⟨_, hNext⟩

theorem run (hQueued : t.Queued unread) (calls : List CharacterCall) :
    ∃ unread', (calls.foldl CharacterTraffic.step t).Queued unread' := by
  induction calls generalizing t unread with
  | nil => exact ⟨unread, hQueued⟩
  | cons call calls ih =>
    obtain ⟨_, hNext⟩ := hQueued.step call
    exact ih hNext

end CharacterTraffic.Queued

/- A queue of at most 128 characters that loses nothing it accepted. -/
structure CharacterTraffic.Lossless (t : CharacterTraffic) : Prop where
  inOrder : t.read <+: t.accepted
  buffered : t.driver.keyboardState.bufferedChars = t.accepted.length - t.read.length
  refuses : ∀ ascii, t.Refuses ascii ↔ t.accepted.length - t.read.length = 128
  gives : ∀ buffer size : UInt64, buffer ≠ 0 →
    (keyboardRead buffer.toNat size.toNat t.driver).1 =
      (t.accepted.drop t.read.length).take size.toNat

theorem characters_lossless (irq1Unmasked interruptsEnabledAfter : Nat) (k : KeyboardDriver)
    (calls : List CharacterCall) :
    (calls.foldl CharacterTraffic.step
      ⟨keyboardInitialize irq1Unmasked interruptsEnabledAfter k, [], []⟩).Lossless := by
  have hStart : CharacterTraffic.Queued
      ⟨keyboardInitialize irq1Unmasked interruptsEnabledAfter k, [], []⟩ [] :=
    ⟨⟨rfl, by decide, Nat.zero_lt_succ _, rfl, by simp⟩, rfl, rfl, one_ne_zero⟩
  obtain ⟨unread, hQueued⟩ := hStart.run calls
  generalize calls.foldl _ _ = t at hQueued ⊢
  have hSplit := hQueued.split
  have hLength : t.accepted.length - t.read.length = unread.length := by simp [hSplit]
  refine ⟨⟨unread, hSplit.symm⟩, hLength ▸ hQueued.buffered, ?_, ?_⟩
  · intro ascii
    rw [hLength]
    exact hQueued.refuses_iff ascii
  · intro buffer size hBuffer
    rw [hSplit, List.drop_left]
    exact (hQueued.keyboardRead_eq (fun hNull => hBuffer (UInt64.toNat_inj.mp hNull)) size.toNat).1

end LiamOS.X64
