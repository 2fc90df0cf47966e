import LiamOS.Lib.Word

/-
  The two loops that wait for timer ticks: `timer_wait_ticks` of `kernel/drivers/timer.c` and
  `x86_64_timer_wait_for_ticks` of `kernel/arch/x86_64/idt.c`.

  Interrupts move the counter while a loop runs. How many ticks arrive before each of its tests is
  a parameter, and a wait that is still going when they end gives `none`.

  Main declarations: `tickWaits_iff`.
-/

namespace LiamOS

open Word

variable {target now last : Nat} {arrivals : List Nat}

----------
-- The Loops

/- `while (timer_ticks < target) hlt;`, with the counter it ends at. -/
def I386.timerWaitLoop (target : Nat) : Nat → List Nat → Option Nat
| _, [] => none
| now, ticks :: arrivals =>
    let now := u32 (now + ticks)
    if now < target then timerWaitLoop target now arrivals else some now

def I386.timerWaitTicks (start ticks : UInt32) (arrivals : List Nat) : Option Nat :=
  timerWaitLoop (u32 (start.toNat + ticks.toNat)) start.toNat arrivals

/- The counter and the budget a wait ends with. -/
structure X64.TimerWait where
  ticks : Nat
  spinBudget : Nat

def X64.timerWaitLoop (target : Nat) : Nat → Nat → List Nat → Option X64.TimerWait
| _, _, [] => none
| spinBudget, now, ticks :: arrivals =>
    let now := u32 (now + ticks)
    if now < target ∧ 0 < spinBudget then
      timerWaitLoop target (spinBudget - 1) now arrivals
    else
      some ⟨now, spinBudget⟩

/- How the loop of `x86_64_timer_wait_for_ticks` ends. -/
def X64.timerWaitEnds (start ticks : UInt32) (arrivals : List Nat) : Option X64.TimerWait :=
  timerWaitLoop (u32 (start.toNat + ticks.toNat)) 200000000 start.toNat arrivals

----------
-- Ends of the Loops

theorem I386.timerWaitLoop_reaches (hEnd : timerWaitLoop target now arrivals = some last) :
    target ≤ last ∧ last < 4294967296 := by
  induction arrivals generalizing now with
  | nil => cases hEnd
  | cons ticks arrivals ih =>
    rw [timerWaitLoop] at hEnd
    split at hEnd
    · exact ih hEnd
    · next hReached =>
        cases hEnd
        exact ⟨Nat.le_of_not_lt hReached, u32_lt _⟩

theorem X64.timerWaitLoop_reaches {spinBudget : Nat} {wait : X64.TimerWait}
    (hEnd : timerWaitLoop target spinBudget now arrivals = some wait)
    (hLeft : 0 < wait.spinBudget) :
    target ≤ wait.ticks ∧ wait.ticks < 4294967296 := by
  induction arrivals generalizing spinBudget now with
  | nil => cases hEnd
  | cons ticks arrivals ih =>
    rw [timerWaitLoop] at hEnd
    split at hEnd
    · exact ih hEnd
    · next hReached =>
        cases hEnd
        exact ⟨Nat.le_of_not_lt fun hBelow => hReached ⟨hBelow, hLeft⟩, u32_lt _⟩

----------
-- Ticks That Have Passed

/- Every wait that ends, of both kernels, has lasted for the ticks it was asked for. -/
structure WaitsLongEnough (start ticks : UInt32) : Prop where
  i386 : ∀ arrivals now, I386.timerWaitTicks start ticks arrivals = some now →
      ticks.toNat ≤ sub32 now start.toNat
  x64 : ∀ arrivals wait, X64.timerWaitEnds start ticks arrivals = some wait →
      0 < wait.spinBudget → ticks.toNat ≤ sub32 wait.ticks start.toNat

/- A counter at or behind a target that has not wrapped is far enough from the start. -/
theorem elapsed_of_reached {start ticks : Nat} (hFits : start + ticks < 4294967296)
    (hReached : u32 (start + ticks) ≤ now)
    (hNow : now < 4294967296) :
    ticks ≤ sub32 now start := by
  rw [u32_of_lt hFits] at hReached
  rw [sub32_of_le hNow (by omega)]
  omega

theorem tickWaits_iff (start ticks : UInt32) :
    WaitsLongEnough start ticks ↔ start.toNat + ticks.toNat < 4294967296 := by
  have hStart := start.toNat_lt
  have hTicks := ticks.toNat_lt
  constructor
  · intro hWaits
    by_contra hWraps
    -- A wrapped target is not above the start, so the first test ends the loop.
    have hTarget : ¬ start.toNat < u32 (start.toNat + ticks.toNat) := by
      unfold u32
      omega
    have hAtOnce : I386.timerWaitTicks start ticks [0] = some start.toNat := by
      unfold I386.timerWaitTicks I386.timerWaitLoop
      dsimp only
      rw [Nat.add_zero, u32_of_lt hStart, if_neg hTarget]
    have hLong := hWaits.i386 [0] start.toNat hAtOnce
    rw [sub32_of_le hStart (Nat.le_refl _), Nat.sub_self] at hLong
    omega
  · intro hFits
    constructor
    · intro arrivals now hEnd
      obtain ⟨hReached, hNow⟩ := I386.timerWaitLoop_reaches hEnd
      exact elapsed_of_reached hFits hReached hNow
    · intro arrivals wait hEnd hLeft
      obtain ⟨hReached, hNow⟩ := X64.timerWaitLoop_reaches hEnd hLeft
      exact elapsed_of_reached hFits hReached hNow

/- A wait for two ticks at the last value of the counter is over at once in both kernels. -/
theorem wrapped_wait_ends_at_once :
    I386.timerWaitTicks 0xFFFFFFFF 2 [0] = some 0xFFFFFFFF ∧
      X64.timerWaitEnds 0xFFFFFFFF 2 [0] = some ⟨0xFFFFFFFF, 200000000⟩ :=
  ⟨rfl, rfl⟩

end LiamOS
