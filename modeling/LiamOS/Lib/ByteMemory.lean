import Mathlib

/-
  Byte memories with little-endian loads, and computations that log the addresses they read.

  A logged computation has a value if it ends; the log is kept even if it does not.

  Key definitions: `readLE`, `writeLE`, `clearBytes`, `copyBytes`, `Logged`, `load`.
-/

namespace LiamOS

variable {mem : ByteMemory} {n : Nat}
variable {a dest src v x : Nat}

abbrev ByteMemory := Nat → UInt8

variable {mem' : ByteMemory}

/- The bytes of a string constant. -/
def textBytes (text : String) : List UInt8 := text.toList.map fun c => UInt8.ofNat c.toNat

/- The little-endian number of a width at an address. -/
def readLE (mem : ByteMemory) : Nat → Nat → Nat
| _, 0 => 0
| a, n + 1 => (mem a).toNat + 256 * readLE mem (a + 1) n

/- The bytes of a number of a width, lowest first. -/
def bytesLE : Nat → Nat → List UInt8
| _, 0 => []
| value, n + 1 => UInt8.ofNat (value % 256) :: bytesLE (value / 256) n

theorem bytesLE_length (value n : Nat) : (bytesLE value n).length = n := by
  induction n generalizing value with
  | zero => rfl
  | succ n ih => rw [bytesLE, List.length_cons, ih]

theorem readLE_lt (mem : ByteMemory) (a n : Nat) : readLE mem a n < 256 ^ n := by
  induction n generalizing a with
  | zero => simp [readLE]
  | succ n ih =>
    have hRest := ih (a + 1)
    have hByte := (mem a).toNat_lt
    rw [readLE, Nat.pow_succ]
    omega

/- A number depends only on its bytes. -/
theorem readLE_congr (hBytes : ∀ x, a ≤ x → x < a + n → mem x = mem' x) :
    readLE mem a n = readLE mem' a n := by
  induction n generalizing a with
  | zero => rfl
  | succ n ih =>
    have hRest :=
      ih (show ∀ x, a + 1 ≤ x → x < a + 1 + n → mem x = mem' x from fun x hLow hHigh =>
          hBytes x (by omega) (by omega))
    rw [readLE, readLE, hBytes a (by omega) (by omega), hRest]

theorem readLE_zero (hBytes : ∀ x, a ≤ x → x < a + n → mem x = 0) : readLE mem a n = 0 := by
  induction n generalizing a with
  | zero => rfl
  | succ n ih =>
    have hRest :=
      ih (show ∀ x, a + 1 ≤ x → x < a + 1 + n → mem x = 0 from fun x hLow hHigh =>
          hBytes x (by omega) (by omega))
    rw [readLE, hBytes a (by omega) (by omega), hRest]
    rfl

/- The same bytes at two addresses are the same number. -/
theorem readLE_shift {b : Nat} (hBytes : ∀ i, i < n → mem (a + i) = mem' (b + i)) :
    readLE mem a n = readLE mem' b n := by
  induction n generalizing a b with
  | zero => rfl
  | succ n ih =>
    have hRest :=
      ih (show ∀ i, i < n → mem (a + 1 + i) = mem' (b + 1 + i) from fun i hi => by
          have hByte := hBytes (i + 1) (by omega)
          rwa [show a + (i + 1) = a + 1 + i by omega,
            show b + (i + 1) = b + 1 + i by omega] at hByte)
    have hFirst := hBytes 0 (by omega)
    rw [Nat.add_zero, Nat.add_zero] at hFirst
    rw [readLE, readLE, hFirst, hRest]

----------
-- Writes

/- Write the little-endian bytes of a number. -/
def writeLE (mem : ByteMemory) : Nat → Nat → Nat → ByteMemory
| _, 0, _ => mem
| a, n + 1, v => Function.update (writeLE mem (a + 1) n (v / 256)) a (UInt8.ofNat (v % 256))

theorem writeLE_outside (hOutside : x < a ∨ a + n ≤ x) : writeLE mem a n v x = mem x := by
  induction n generalizing a v with
  | zero => rfl
  | succ n ih =>
    rw [writeLE, Function.update_of_ne (by omega)]
    exact ih (by omega)

theorem readLE_writeLE : readLE (writeLE mem a n v) a n = v % 256 ^ n := by
  induction n generalizing a v with
  | zero => rw [readLE, Nat.pow_zero, Nat.mod_one]
  | succ n ih =>
    have hRest : readLE (writeLE mem a (n + 1) v) (a + 1) n = v / 256 % 256 ^ n := by
      rw [← ih]
      apply readLE_congr
      intro x hLow hHigh
      rw [writeLE, Function.update_of_ne (by omega)]
    have hFirst : (writeLE mem a (n + 1) v a).toNat = v % 256 := by
      rw [writeLE, Function.update_self, UInt8.toNat_ofNat']
      omega
    rw [readLE, hRest, hFirst, Nat.pow_succ', Nat.mod_mul]

theorem readLE_writeLE_self (hValue : v < 256 ^ n) : readLE (writeLE mem a n v) a n = v := by
  rw [readLE_writeLE, Nat.mod_eq_of_lt hValue]

/- `clear_bytes` -/
def clearBytes (mem : ByteMemory) : Nat → Nat → ByteMemory
| _, 0 => mem
| a, n + 1 => Function.update (clearBytes mem a n) (a + n) 0

theorem clearBytes_apply (mem : ByteMemory) (a n x : Nat) :
    clearBytes mem a n x = if a ≤ x ∧ x < a + n then 0 else mem x := by
  induction n with
  | zero => rw [clearBytes, if_neg (by omega)]
  | succ n ih =>
    rw [clearBytes]
    by_cases hx : x = a + n
    · rw [hx, Function.update_self, if_pos (by omega)]
    · rw [Function.update_of_ne hx, ih]
      by_cases hIn : a ≤ x ∧ x < a + n
      · rw [if_pos hIn, if_pos (by omega)]
      · rw [if_neg hIn, if_neg (by omega)]

/- `copy_bytes`, byte by byte from the first on. -/
def copyBytes (mem : ByteMemory) : Nat → Nat → Nat → ByteMemory
| _, _, 0 => mem
| dest, src, n + 1 =>
    let copied := copyBytes mem dest src n
    Function.update copied (dest + n) (copied (src + n))

theorem copyBytes_outside (hOutside : x < dest ∨ dest + n ≤ x) :
    copyBytes mem dest src n x = mem x := by
  induction n with
  | zero => rfl
  | succ n ih =>
    rw [copyBytes, Function.update_of_ne (by omega)]
    exact ih (by omega)

/- Between ranges that do not meet, a copy is exact. -/
theorem copyBytes_inside {i : Nat} (hApart : dest + n ≤ src ∨ src + n ≤ dest) (hi : i < n) :
    copyBytes mem dest src n (dest + i) = mem (src + i) := by
  induction n with
  | zero => exact absurd hi (Nat.not_lt_zero i)
  | succ n ih =>
    rw [copyBytes]
    by_cases hLast : i = n
    · rw [hLast, Function.update_self]
      exact copyBytes_outside (by omega)
    · rw [Function.update_of_ne (by omega)]
      exact ih (by omega) (by omega)

----------
-- Logged Computations

structure Logged (α : Type) where
  value : Option α
  reads : List Nat

namespace Logged

variable {α β : Type}

def pure (a : α) : Logged α := ⟨some a, []⟩

/- A computation that has run out of turns. -/
def stuck : Logged α := ⟨none, []⟩

def bind (x : Logged α) (f : α → Logged β) : Logged β :=
  match x.value with
  | none => ⟨none, x.reads⟩
  | some a => ⟨(f a).value, x.reads ++ (f a).reads⟩

instance : Monad Logged where
  pure := pure
  bind := bind

@[simp] theorem value_pure (a : α) : (Pure.pure a : Logged α).value = some a := rfl

@[simp] theorem reads_pure (a : α) : (Pure.pure a : Logged α).reads = [] := rfl

theorem value_bind_some {x : Logged α} {a : α} (hValue : x.value = some a) (f : α → Logged β) :
    (x >>= f).value = (f a).value := by
  show (Logged.bind x f).value = _
  simp [Logged.bind, hValue]

theorem reads_bind_some {x : Logged α} {a : α} (hValue : x.value = some a) (f : α → Logged β) :
    (x >>= f).reads = x.reads ++ (f a).reads := by
  show (Logged.bind x f).reads = _
  simp [Logged.bind, hValue]

end Logged

/- Load a number and log its bytes. -/
def load (mem : ByteMemory) (a n : Nat) : Logged Nat := ⟨some (readLE mem a n), List.range' a n⟩

@[simp] theorem value_load_bind {β : Type} (mem : ByteMemory) (a n : Nat) (f : Nat → Logged β) :
    (load mem a n >>= f).value = (f (readLE mem a n)).value := rfl

@[simp] theorem reads_load_bind {β : Type} (mem : ByteMemory) (a n : Nat) (f : Nat → Logged β) :
    (load mem a n >>= f).reads = List.range' a n ++ (f (readLE mem a n)).reads := rfl

namespace Logged

variable {α β : Type} {x : Logged α} {f : α → Logged β} {lo lo' hi hi' : Nat}

/- A computation that ends and reads only from one address up to another. -/
structure Reads (x : Logged α) (lo hi : Nat) : Prop where
  ends : ∃ v, x.value = some v
  within : ∀ a ∈ x.reads, lo ≤ a ∧ a < hi

/- It also reads the last byte of that range. -/
structure Spans (x : Logged α) (lo hi : Nat) : Prop extends Reads x lo hi where
  last : lo < hi → hi - 1 ∈ x.reads
  le : lo ≤ hi

theorem Reads.mono (hx : Reads x lo hi) (hLow : lo' ≤ lo) (hHigh : hi ≤ hi') : Reads x lo' hi' :=
  ⟨hx.ends, fun a ha => ⟨hLow.trans (hx.within a ha).1, (hx.within a ha).2.trans_le hHigh⟩⟩

theorem Reads.bind (hx : Reads x lo hi) (hf : ∀ v, x.value = some v → Reads (f v) lo hi) :
    Reads (x >>= f) lo hi := by
  obtain ⟨v, hv⟩ := hx.ends
  refine ⟨value_bind_some hv f ▸ (hf v hv).ends, fun a ha => ?_⟩
  rw [reads_bind_some hv, List.mem_append] at ha
  exact ha.elim (hx.within a) ((hf v hv).within a)

theorem Spans.skip (hx : Spans x lo hi) (hLow : lo' ≤ lo) (hSome : lo < hi) : Spans x lo' hi :=
  ⟨hx.mono hLow le_rfl, fun _ => hx.last hSome, hLow.trans hx.le⟩

theorem Reads.of_pure (v : α) (lo hi : Nat) : Reads (Pure.pure v) lo hi :=
  ⟨⟨v, rfl⟩, fun _ ha => absurd ha List.not_mem_nil⟩

theorem spans_pure (v : α) (lo : Nat) : Spans (Pure.pure v) lo lo :=
  ⟨Reads.of_pure v lo lo, fun hSome => absurd hSome (lt_irrefl lo), le_rfl⟩

theorem spans_load (mem : ByteMemory) (a n : Nat) : Spans (load mem a n) a (a + n) :=
  ⟨⟨⟨_, rfl⟩, fun _ => List.mem_range'_1.mp⟩,
    fun hSome => List.mem_range'_1.mpr (by omega), by omega⟩

/- The last byte is read by the first part, or by the second one. -/
theorem Spans.bind_reads (hx : Spans x lo hi)
    (hf : ∀ v, x.value = some v → Reads (f v) lo hi) : Spans (x >>= f) lo hi := by
  refine ⟨hx.toReads.bind hf, fun hSome => ?_, hx.le⟩
  obtain ⟨v, hv⟩ := hx.ends
  rw [reads_bind_some hv]
  exact List.mem_append_left _ (hx.last hSome)

theorem Reads.bind_spans (hx : Reads x lo hi)
    (hf : ∀ v, x.value = some v → Spans (f v) lo hi) : Spans (x >>= f) lo hi := by
  obtain ⟨v, hv⟩ := hx.ends
  refine ⟨hx.bind fun v hv => (hf v hv).toReads, fun hSome => ?_, (hf v hv).le⟩
  rw [reads_bind_some hv]
  exact List.mem_append_right _ ((hf v hv).last hSome)

/- Fields that are read one behind the other. -/
theorem Spans.load_next {f : Nat → Logged β} (hf : Spans (f (readLE mem a n)) (a + n) hi) :
    Spans (load mem a n >>= f) a hi := by
  have hValue : ∀ v, (load mem a n).value = some v → Spans (f v) (a + n) hi := by
    rintro v ⟨⟩
    exact hf
  rcases hf.le.eq_or_lt with rfl | hMore
  · exact (spans_load mem a n).bind_reads fun v hv =>
      (hValue v hv).mono (Nat.le_add_right a n) le_rfl
  · exact ((spans_load mem a n).mono le_rfl hf.le).bind_spans fun v hv =>
      (hValue v hv).skip (Nat.le_add_right a n) hMore

end Logged

end LiamOS
