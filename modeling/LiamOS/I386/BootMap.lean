import LiamOS.I386.PmmRuns
import LiamOS.Lib.Transition

/-
  The walks over the boot memory map, by `boot_initialize` of `kernel/core/boot.c` and by
  `pmm_initialize`. The step is a 32-bit sum, so an entry may lead back to one before it.

  Main declarations: `bootInitialize`, `entryAddress`, `memoryMapWalks_end_iff`.
-/

namespace LiamOS.I386

open Word Transition

variable {mem : ByteMemory} {stop : Nat}

/- The loop of `boot_initialize`: the visits so far are its region count. -/
def bootRegions (mem : ByteMemory) (stop : Nat) : Nat → Nat → Nat → Option Nat
| 0, _, _ => none
| turns + 1, current, memoryMapRegionCount =>
    if current < stop then
      bootRegions mem stop turns (u32 (current + readLE mem current 4 + 4))
        (memoryMapRegionCount + 1)
    else
      some memoryMapRegionCount

/- The region count with a memory map, and `none` while the loop still runs. -/
def bootInitialize (mem : ByteMemory) (boot : BootMemoryMap) (turns : Nat) : Option Nat :=
  if boot.hasMemoryMap then
    bootRegions mem (boot.memoryMapAddress + boot.memoryMapLength).toNat
      turns boot.memoryMapAddress.toNat 0
  else
    some 0

/- The address behind an entry, if there is an entry. -/
def nextEntry (mem : ByteMemory) (stop current : Nat) : Option Nat :=
  if current < stop then some (u32 (current + readLE mem current 4 + 4)) else none

/- Where the size fields lead after so many entries. -/
def entryAddress (mem : ByteMemory) (boot : BootMemoryMap) : Nat → Option Nat :=
  orbit (nextEntry mem (boot.memoryMapAddress + boot.memoryMapLength).toNat)
    boot.memoryMapAddress.toNat

theorem bootRegions_eq (turns current count : Nat) :
    bootRegions mem stop turns current count =
      (memoryMapEntries mem stop turns current).map fun entries => count + entries.length := by
  induction turns generalizing current count with
  | zero => rfl
  | succ turns ih =>
    rw [bootRegions, memoryMapEntries]
    by_cases hMore : current < stop
    · rw [if_pos hMore, if_neg (Nat.not_le.mpr hMore), ih, Option.map_map]
      refine congrArg (Option.map · _) (funext fun entries => ?_)
      simp only [Function.comp_apply, List.length_cons]
      omega
    · rw [if_neg hMore, if_pos (Nat.le_of_not_lt hMore)]
      rfl

theorem memoryMapEntries_ends_iff (turns current : Nat) :
    (∃ entries, memoryMapEntries mem stop turns current = some entries) ↔
      orbit (nextEntry mem stop) current turns = none := by
  induction turns generalizing current with
  | zero => simp [memoryMapEntries, orbit]
  | succ turns ih =>
    rw [memoryMapEntries]
    by_cases hMore : current < stop
    · have hNext : nextEntry mem stop current = some _ := if_pos hMore
      rw [if_neg (Nat.not_le.mpr hMore), orbit_succ_of_next hNext, ← ih]
      simp [readMemoryMapEntry]
    · have hOrbit : orbit (nextEntry mem stop) current 1 = none := by simp [orbit, nextEntry, hMore]
      simp [Nat.le_of_not_lt hMore, orbit_none_of_le hOrbit (Nat.le_add_left 1 turns)]

theorem entryAddress_lt {boot : BootMemoryMap} (n address : Nat)
    (hAt : entryAddress mem boot n = some address) :
    address ∈ Set.Iio 4294967296 := by
  cases n with
  | zero =>
    cases hAt
    exact boot.memoryMapAddress.toNat_lt
  | succ n =>
    obtain ⟨current, -, hNext⟩ := Option.bind_eq_some_iff.mp hAt
    rw [nextEntry] at hNext
    split at hNext
    · cases hNext
      exact u32_lt _
    · cases hNext

/- One entry, of size `2 ^ 32 - 4`. -/
def endlessEntry : ByteMemory := fun address =>
  if address = 0x9000 then 0xFC else 0xFF

end LiamOS.I386
