import LiamOS.Lib.ByteMemory

/-
  Checks one after the other over the bytes of a memory. The first check that fails decides the
  error, a later one may rely on those before it, and every byte read is logged, whether the
  checks pass or not.

  Key definitions: `Checked`, `check`, `fail`, `loadNumber`, `loadBytes`, `ReadsBelow`.
-/

namespace LiamOS

/- A computation with an error, and the addresses it read. -/
structure Checked (ε α : Type) where
  result : Except ε α
  reads : List Nat

namespace Checked

variable {ε α β : Type}

----------
-- Operations

def bind (x : Checked ε α) (f : α → Checked ε β) : Checked ε β :=
  match x.result with
  | .error error => ⟨.error error, x.reads⟩
  | .ok a => ⟨(f a).result, x.reads ++ (f a).reads⟩

instance : Monad (Checked ε) where
  pure := fun a => ⟨.ok a, []⟩
  bind := bind

def fail (error : ε) : Checked ε α := ⟨.error error, []⟩

def check (p : Prop) [Decidable p] (error : ε) : Checked ε Unit :=
  ⟨if p then .ok () else .error error, []⟩

/- A number of a width, lowest byte first. -/
def loadNumber (mem : ByteMemory) (a n : Nat) : Checked ε Nat :=
  ⟨.ok (readLE mem a n), List.range' a n⟩

def loadBytes (mem : ByteMemory) (a n : Nat) : Checked ε (List UInt8) :=
  ⟨.ok ((List.range' a n).map mem), List.range' a n⟩

----------
-- Results

variable {x : Checked ε α}
variable {f : α → Checked ε β}

theorem result_pure_iff {a b : α} : (pure a : Checked ε α).result = .ok b ↔ a = b :=
  ⟨fun h => Except.ok.inj h, fun h => congrArg _ h⟩

theorem result_bind_of_ok {a : α} (hResult : x.result = .ok a) :
    (x >>= f).result = (f a).result := by
  change (bind x f).result = _
  unfold bind
  rw [hResult]

theorem result_bind_iff {b : β} :
    (x >>= f).result = .ok b ↔ ∃ a, x.result = .ok a ∧ (f a).result = .ok b := by
  change (bind x f).result = _ ↔ _
  unfold bind
  cases hResult : x.result with
  | error error => exact iff_of_false nofun nofun
  | ok a =>
    constructor
    · exact fun h => ⟨a, rfl, h⟩
    · rintro ⟨a', hSame, h⟩
      rw [Except.ok.inj hSame]
      exact h

theorem result_check_iff {p : Prop} [Decidable p] {error : ε} {u : Unit} :
    (check p error).result = .ok u ↔ p := by
  unfold check
  dsimp only
  by_cases hPassed : p
  · rw [if_pos hPassed]
    exact iff_of_true rfl hPassed
  · rw [if_neg hPassed]
    exact iff_of_false nofun hPassed

theorem result_check_bind_iff {p : Prop} [Decidable p] {error : ε} {next : Unit → Checked ε β}
    {b : β} :
    (check p error >>= next).result = .ok b ↔ p ∧ (next ()).result = .ok b := by
  rw [result_bind_iff]
  constructor
  · rintro ⟨u, hCheck, hNext⟩
    exact ⟨result_check_iff.mp hCheck, hNext⟩
  · rintro ⟨hPassed, hNext⟩
    exact ⟨(), result_check_iff.mpr hPassed, hNext⟩

----------
-- Reads

/- No byte is read at a limit or above. -/
def ReadsBelow (limit : Nat) (x : Checked ε α) : Prop := ∀ a ∈ x.reads, a < limit

variable {limit : Nat}

theorem readsBelow_pure (a : α) : ReadsBelow limit (pure a : Checked ε α) := nofun

theorem readsBelow_fail (error : ε) : ReadsBelow limit (fail error : Checked ε α) := nofun

theorem readsBelow_check (p : Prop) [Decidable p] (error : ε) : ReadsBelow limit (check p error) :=
  nofun

theorem readsBelow_loadNumber (mem : ByteMemory) {a n : Nat} (hInside : a + n ≤ limit) :
    ReadsBelow limit (loadNumber mem a n : Checked ε Nat) := by
  intro x hx
  change x ∈ List.range' a n at hx
  rw [List.mem_range'_1] at hx
  omega

theorem readsBelow_loadBytes (mem : ByteMemory) {a n : Nat} (hInside : a + n ≤ limit) :
    ReadsBelow limit (loadBytes mem a n : Checked ε (List UInt8)) :=
  @readsBelow_loadNumber ε limit mem a n hInside

/- What follows runs only on the result of what is before. -/
theorem ReadsBelow.bind (hFirst : ReadsBelow limit x)
    (hNext : ∀ a, x.result = .ok a → ReadsBelow limit (f a)) :
    ReadsBelow limit (x >>= f) := by
  change ReadsBelow limit (Checked.bind x f)
  unfold Checked.bind
  cases hResult : x.result with
  | error error => exact hFirst
  | ok a =>
    intro y hy
    rcases List.mem_append.mp hy with hEarly | hLate
    · exact hFirst y hEarly
    · exact hNext a hResult y hLate

theorem readsBelow_check_bind {p : Prop} [Decidable p] {error : ε} {next : Unit → Checked ε β}
    (hNext : p → ReadsBelow limit (next ())) :
    ReadsBelow limit (check p error >>= next) :=
  (readsBelow_check p error).bind fun _ hCheck => hNext (result_check_iff.mp hCheck)

end Checked

end LiamOS
