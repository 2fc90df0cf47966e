import LiamOS.Lib.Transition
import LiamOS.X64.Keyboard.Events

/-
  The shift keys of both keyboard drivers, `kernel/drivers/keyboard.c` and
  `kernel/arch/x86_64/idt.c`: two keys share one flag.

  Main declarations: `I386.keyboardIrqHandler`, `Keyboards`, `shiftFollows_iff`.
-/

namespace LiamOS

open Transition X64

/-
  The flag is `shift_pressed`; the result is the character for the shell. The tables hold the same
  characters as those of the other driver.
-/
def I386.keyboardIrqHandler (scancode : UInt8) (shiftPressed : Bool) : Option UInt8 × Bool :=
  let code := scancode.toNat
  if code = 0x2A ∨ code = 0x36 then
    (none, true)
  else if code = 0xAA ∨ code = 0xB6 then
    (none, false)
  else if 0x80 ≤ code then
    (none, shiftPressed)
  else
    let character := (if shiftPressed then scancodeShiftAsciiMap else scancodeAsciiMap).getD code 0
    (if character = 0 then none else some character, shiftPressed)

/- Both drivers, and which shift keys are held: pressed and not released since. -/
structure Keyboards where
  left : Bool
  right : Bool
  shiftPressed : Bool
  driver : KeyboardDriver

namespace Keyboards

def booted (irq1Unmasked interruptsEnabledAfter : Nat) (k : KeyboardDriver) : Keyboards :=
  ⟨false, false, false, keyboardInitialize irq1Unmasked interruptsEnabledAfter k⟩

def step (t : Keyboards) (scancode : UInt8) : Option Keyboards :=
  some
    { left := if scancode.toNat = 0x2A then true
        else if scancode.toNat = 0xAA then false
        else t.left
      right := if scancode.toNat = 0x36 then true
        else if scancode.toNat = 0xB6 then false
        else t.right
      shiftPressed := (I386.keyboardIrqHandler scancode t.shiftPressed).2
      driver := keyboardHandleIrq scancode t.driver }

def held (t : Keyboards) : Bool := t.left || t.right

/- What a key stands for. -/
def character (t : Keyboards) (scancode : UInt8) : UInt8 :=
  (if t.held then scancodeShiftAsciiMap else scancodeAsciiMap).getD scancode.toNat 0

/- Whichever printable key is pressed now is translated by the keys that are held. -/
structure FollowsShift (t : Keyboards) : Prop where
  i386 : ∀ scancode, t.character scancode ≠ 0 →
    (I386.keyboardIrqHandler scancode t.shiftPressed).1 = some (t.character scancode)
  x64 : ∀ scancode, t.character scancode ≠ 0 →
    (keyboardHandleIrq scancode t.driver).keyboardState.lastAscii = (t.character scancode).toNat

/- The flags are set exactly if a key is held. -/
def FlagsAgree (t : Keyboards) : Prop :=
  t.shiftPressed = t.held ∧ decide (t.driver.keyboardState.shiftPressed ≠ 0) = t.held

end Keyboards

/- The flags behind an interrupt. -/
theorem I386.keyboardIrqHandler_shiftPressed (scancode : UInt8) (shiftPressed : Bool) :
    (keyboardIrqHandler scancode shiftPressed).2 =
      if scancode.toNat = 0x2A ∨ scancode.toNat = 0x36 then true
      else if scancode.toNat = 0xAA ∨ scancode.toNat = 0xB6 then false
      else shiftPressed := by
  unfold keyboardIrqHandler
  dsimp only
  split_ifs <;> rfl

theorem inputEventPush_keyboardState (type code value flags : Nat) (k : KeyboardDriver) :
    (inputEventPush type code value flags k).keyboardState.lastAscii = k.keyboardState.lastAscii ∧
      (inputEventPush type code value flags k).keyboardState.shiftPressed =
        k.keyboardState.shiftPressed := by
  unfold inputEventPush inputEventDrop
  split_ifs
  · exact ⟨rfl, rfl⟩
  · exact ⟨rfl, rfl⟩

theorem keyboardBufferPush_keyboardState (ascii : UInt8) (k : KeyboardDriver) :
    (keyboardBufferPush ascii k).keyboardState.lastAscii = k.keyboardState.lastAscii ∧
      (keyboardBufferPush ascii k).keyboardState.shiftPressed = k.keyboardState.shiftPressed := by
  unfold keyboardBufferPush
  split_ifs
  · exact ⟨rfl, rfl⟩
  · exact ⟨rfl, rfl⟩

theorem keyboardHandleIrq_shiftPressed (scancode : UInt8) (k : KeyboardDriver) :
    (keyboardHandleIrq scancode k).keyboardState.shiftPressed =
      if scancode.toNat = 0x2A ∨ scancode.toNat = 0x36 then 1
      else if scancode.toNat = 0xAA ∨ scancode.toNat = 0xB6 then 0
      else k.keyboardState.shiftPressed := by
  unfold keyboardHandleIrq
  dsimp only
  split_ifs
  all_goals simp only [(inputEventPush_keyboardState _ _ _ _ _).2,
    (keyboardBufferPush_keyboardState _ _).2, keyboardMake, keyboardBreak, keyboardShift]

/- A key with a character is no shift key. -/
theorem Keyboards.character_code {t : Keyboards} {scancode : UInt8}
    (hSome : t.character scancode ≠ 0) :
    scancode.toNat ≠ 0x2A ∧ scancode.toNat ≠ 0x36 ∧ scancode.toNat < 0x80 := by
  have hMaps : ∀ code < 256, ∀ held : Bool,
      (if held then scancodeShiftAsciiMap else scancodeAsciiMap).getD code 0 ≠ 0 →
        code ≠ 0x2A ∧ code ≠ 0x36 ∧ code < 0x80 := by
    decide +kernel
  exact hMaps _ scancode.toNat_lt t.held hSome

/- The character an interrupt reports. -/
theorem keyboardHandleIrq_lastAscii {scancode : UInt8} (hLeft : scancode.toNat ≠ 0x2A)
    (hRight : scancode.toNat ≠ 0x36) (hMake : scancode.toNat < 0x80) (k : KeyboardDriver) :
    (keyboardHandleIrq scancode k).keyboardState.lastAscii =
      (keyboardTranslateScancode scancode k).toNat := by
  unfold keyboardHandleIrq
  dsimp only
  rw [if_neg (by omega), if_neg (by omega), if_neg (by omega)]
  split_ifs
  · exact (inputEventPush_keyboardState _ _ _ _ _).1
  · rw [(keyboardBufferPush_keyboardState _ _).1]
    exact (inputEventPush_keyboardState _ _ _ _ _).1

namespace Keyboards

variable {t : Keyboards}

theorem FlagsAgree.follows (hAgree : t.FlagsAgree) : t.FollowsShift := by
  obtain ⟨hFlag, hDriver⟩ := hAgree
  constructor <;> intro scancode hSome <;> obtain ⟨hLeft, hRight, hMake⟩ := character_code hSome
  · unfold I386.keyboardIrqHandler
    dsimp only
    rw [if_neg (by omega), if_neg (by omega), if_neg (by omega), hFlag]
    exact if_neg hSome
  · rw [keyboardHandleIrq_lastAscii hLeft hRight hMake, keyboardTranslateScancode, character,
      if_neg (by omega), ← hDriver]
    by_cases hSet : t.driver.keyboardState.shiftPressed ≠ 0
    · rw [if_pos hSet, if_pos (decide_eq_true hSet)]
    · rw [if_neg hSet, if_neg (by simpa using hSet)]

/- The letter A tells the tables apart. -/
theorem FollowsShift.agree (hFollows : t.FollowsShift) : t.FlagsAgree := by
  have hLetter : t.character 0x1E = if t.held then 65 else 97 := by
    unfold character
    cases t.held <;> rfl
  have hI386 := hFollows.i386 0x1E
  have hX64 := hFollows.x64 0x1E
  have hFlag : (I386.keyboardIrqHandler 0x1E t.shiftPressed).1 =
      some (if t.shiftPressed then 65 else 97) := by
    cases t.shiftPressed <;> rfl
  have hDriver : keyboardTranslateScancode 0x1E t.driver =
      if decide (t.driver.keyboardState.shiftPressed ≠ 0) then 65 else 97 := by
    rw [keyboardTranslateScancode, if_neg (by decide)]
    by_cases hSet : t.driver.keyboardState.shiftPressed ≠ 0
    · rw [if_pos hSet, if_pos (decide_eq_true hSet)]
      rfl
    · rw [if_neg hSet, if_neg (by simpa using hSet)]
      rfl
  rw [keyboardHandleIrq_lastAscii (by decide) (by decide) (by decide), hDriver, hLetter] at hX64
  rw [hFlag, hLetter] at hI386
  unfold FlagsAgree
  generalize t.held = held at hI386 hX64 ⊢
  generalize t.shiftPressed = flag at hI386 ⊢
  generalize decide (t.driver.keyboardState.shiftPressed ≠ 0) = set at hX64 ⊢
  revert held flag set
  decide

end Keyboards

/- No shift key is released while the other one is held. -/
def ReleasedAlone (t : Taken Keyboards UInt8) : Prop :=
  (t.label.toNat = 0xAA → t.before.right = false) ∧ (t.label.toNat = 0xB6 → t.before.left = false)

theorem agree_step_iff (t : Taken Keyboards UInt8) (hAgree : t.before.FlagsAgree)
    (hStep : t.before.step t.label = some t.after) :
    t.after.FlagsAgree ↔ ReleasedAlone t := by
  obtain ⟨hFlag, hDriver⟩ := hAgree
  have hAfter := Option.some.inj hStep
  unfold Keyboards.FlagsAgree ReleasedAlone
  rw [← hAfter]
  unfold Keyboards.held at hFlag hDriver ⊢
  dsimp only
  rw [keyboardHandleIrq_shiftPressed, I386.keyboardIrqHandler_shiftPressed]
  generalize t.label.toNat = code
  by_cases hLeft : code = 0x2A
  · simp [hLeft]
  by_cases hRight : code = 0x36
  · simp [hRight]
  by_cases hLeftUp : code = 0xAA
  · simp [hLeftUp]
  by_cases hRightUp : code = 0xB6
  · simp [hRightUp]
  · simp only [hLeft, hRight, hLeftUp, hRightUp, or_self, if_false, false_imp_iff, and_self,
      iff_true]
    exact ⟨hFlag, hDriver⟩

theorem shiftFollows_iff (irq1Unmasked interruptsEnabledAfter : Nat) (k : KeyboardDriver)
    (scancodes : List UInt8) :
    (∀ t ∈ steps Keyboards.step (.booted irq1Unmasked interruptsEnabledAfter k) scancodes,
        t.after.FollowsShift) ↔
      ∀ t ∈ steps Keyboards.step (.booted irq1Unmasked interruptsEnabledAfter k) scancodes,
        ReleasedAlone t := by
  have hStart : (Keyboards.booted irq1Unmasked interruptsEnabledAfter k).FlagsAgree := ⟨rfl, rfl⟩
  refine steps_iff ?_ hStart scancodes
  intro t hAgree hStep
  rw [← agree_step_iff t hAgree hStep]
  exact ⟨⟨fun h => h.agree, fun h => h.follows⟩, fun h => h.agree⟩

/- With the right key still down the letter comes out small in both drivers. -/
theorem shift_release_clears_both :
    ∃ t, run Keyboards.step (.booted 1 1 idleKeyboard) [0x2A, 0x36, 0xAA] = some t ∧
      t.right = true ∧
      (I386.keyboardIrqHandler 0x1E t.shiftPressed).1 = some 97 ∧
      (keyboardHandleIrq 0x1E t.driver).keyboardState.lastAscii = 97 :=
  ⟨_, rfl, rfl, rfl, rfl⟩

end LiamOS
