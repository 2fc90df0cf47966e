import LiamOS.X64.AddressSpace
import LiamOS.X64.BuilderSuccess

/-
  Where the builder's tables map the pages the page manager hands out.

  The kernel reaches such a page at its own address, through the identity window, and at its place
  in the direct map. Both windows end at one gibibyte, whatever the memory map says, and the user
  code table replaces 2 MiB of the first.

  Main declarations: `pagesReachable_iff`, `page_under_user_code_unreachable`.
-/

namespace LiamOS.X64

open Word PageTable

variable {cr3 va : Nat}

----------
-- Property

/- The address is mapped to the physical address `p`. -/
def TranslatesTo (mem : ByteMemory) (cr3 va p : Nat) : Prop :=
  ∃ t, walk mem cr3 va = some t ∧ t.physical = p

/- Each page is found at its address and in the direct map. -/
def PagesReachable (state : BuilderState) (mem : ByteMemory) (pages : List Nat) : Prop :=
  ∀ p ∈ pages, TranslatesTo mem (state.tables .pml4Table) p p ∧
      TranslatesTo mem (state.tables .pml4Table) (u64 (directMapBase + p)) p

/-
  A page below one gibibyte that is not in the place of the user code, or is the code page mapped
  there itself.
-/
def ReachablePage (state : BuilderState) (p : Nat) : Prop := p < 1073741824 ∧
    (p < 4194304 ∨ 6291456 ≤ p ∨ ∃ i < state.image.userImagePages,
        p = 4194304 + i * 4096 ∧ state.tables (BuilderPage.userCodePages i) = p)

----------
-- Walks Of The Builder's Tables

section Walks

variable {state : BuilderState}
variable {mem : ByteMemory}
variable {p : Nat}

theorem not_translatesTo_of_walk (hWalk : walk mem cr3 va = none) :
    ¬ TranslatesTo mem cr3 va p := by
  rintro ⟨t, hSome, -⟩
  rw [hWalk] at hSome
  exact absurd hSome (by simp)

theorem walk_not_canonical (hCanonical : ¬ Canonical va) : walk mem cr3 va = none := by
  rw [walk, if_neg hCanonical]

/- Below 512 GiB the direct map goes through one table. -/
theorem walk_directMap (hBuilt : BuiltTables state mem) (hp : p < 549755813888) :
    walk mem (state.tables .pml4Table) (u64 (directMapBase + p)) =
      (walkPdpt mem (state.tables .directPdptTable)
        (u64 (directMapBase + p))).map (·.restrict tableFlags) := by
  have hAddress : u64 (directMapBase + p) = 18446603336221196288 + p := by
    unfold u64 directMapBase
    omega
  have hIndex : pml4Index (u64 (directMapBase + p)) = 256 := by
    rw [hAddress]
    unfold pml4Index
    omega
  apply walk_table
  · rw [hAddress]
    exact Or.inr (by omega)
  · rw [hIndex, hBuilt.entries.pml4 256 (by decide)]
    rfl
  · exact hBuilt.pages.aligned _
  · decide
  · decide

theorem pdptIndex_directMap (hp : p < 549755813888) :
    pdptIndex (u64 (directMapBase + p)) = p / 1073741824 := by
  unfold pdptIndex u64 directMapBase
  omega

theorem pdIndex_directMap (hp : p < 1073741824) :
    pdIndex (u64 (directMapBase + p)) = p / 2097152 := by
  unfold pdIndex u64 directMapBase
  omega

section

variable (hBuilt : BuiltTables state mem)
include hBuilt

/- The first gibibyte of the direct map. -/
theorem walk_directMap_low (hFull : state.directHugePages = 512) (hp : p < 1073741824) :
    walk mem (state.tables .pml4Table) (u64 (directMapBase + p)) = some ⟨p, false, true⟩ := by
  have hPdpt := hBuilt.entries.directPdpt _ (pdptIndex_lt (u64 (directMapBase + p)))
  rw [if_pos (by rw [pdptIndex_directMap (by omega)]; omega)] at hPdpt
  have hPd := hBuilt.entries.directPd _ (pdIndex_lt (u64 (directMapBase + p)))
  rw [hFull, if_pos (pdIndex_lt _), hugePageEntry_zero (pdIndex_lt _)] at hPd
  have hAddress :
      pdIndex (u64 (directMapBase + p)) * 2097152 + u64 (directMapBase + p) % 2097152 = p := by
    rw [pdIndex_directMap hp]
    unfold u64 directMapBase
    omega
  rw [walk_directMap hBuilt (by omega),
    walkPdpt_table hPdpt (hBuilt.pages.aligned _) (by decide) (by decide) (by decide),
    walkPd_huge hPd (Nat.mul_mod_left _ _) (by decide) (by decide) (by decide), hAddress]
  rfl

/- The direct map ends there. -/
theorem walk_directMap_end (hLow : 1073741824 ≤ p) (hHigh : p < 549755813888) :
    walk mem (state.tables .pml4Table) (u64 (directMapBase + p)) = none := by
  have hPdpt := hBuilt.entries.directPdpt _ (pdptIndex_lt (u64 (directMapBase + p)))
  rw [if_neg (by rw [pdptIndex_directMap hHigh]; omega)] at hPdpt
  rw [walk_directMap hBuilt hHigh, walkPdpt_absent hPdpt]
  rfl

/- The lower half is empty above 512 GiB. -/
theorem walk_lower_half (hLow : 549755813888 ≤ p) (hHigh : p < 140737488355328) :
    walk mem (state.tables .pml4Table) p = none := by
  have hIndex : pml4Index p = p / 549755813888 := by
    unfold pml4Index
    omega
  have hEntry := hBuilt.entries.pml4 _ (pml4Index_lt p)
  rw [if_neg (by omega), if_neg (by omega), if_neg (by omega), if_neg (by omega)] at hEntry
  exact walk_absent hEntry

/- Outside the windows one of the two translations is missing. -/
theorem not_reachable_above (hp : 1073741824 ≤ p)
    (hIdentity : TranslatesTo mem (state.tables .pml4Table) p p)
    (hDirect : TranslatesTo mem (state.tables .pml4Table) (u64 (directMapBase + p)) p) :
    False := by
  by_cases hTable : p < 549755813888
  · exact not_translatesTo_of_walk (walk_directMap_end hBuilt hp hTable) hDirect
  · by_cases hLower : p < 140737488355328
    · exact not_translatesTo_of_walk (walk_lower_half hBuilt (by omega) hLower) hIdentity
    · by_cases hCanonical : Canonical p
      · -- The direct map of an address in the upper half
        -- wraps around into the addresses that do not exist.
        refine not_translatesTo_of_walk (walk_not_canonical ?_) hDirect
        unfold Canonical at hCanonical ⊢
        unfold u64 directMapBase
        omega
      · exact not_translatesTo_of_walk (walk_not_canonical hCanonical) hIdentity

/- In the place of the user code only a code page is reached. -/
theorem translatesTo_code_iff (hAligned : PageAligned p) (hLow : 4194304 ≤ p)
    (hHigh : p < 6291456) :
    TranslatesTo mem (state.tables .pml4Table) p p ↔ ∃ i < state.image.userImagePages,
        p = 4194304 + i * 4096 ∧ state.tables (BuilderPage.userCodePages i) = p := by
  have hWalk := (builderSpace_inMemory hBuilt).walk_code hLow hHigh
  have hOffset : p % 4096 = 0 := hAligned
  rw [hOffset, Nat.add_zero] at hWalk
  constructor
  · rintro ⟨t, hSome, hPhysical⟩
    rw [show state.tables .pml4Table = (builderSpace state).pml4 from rfl, hWalk] at hSome
    split at hSome
    · next hMapped =>
        rw [← Option.some.inj hSome] at hPhysical
        exact ⟨_, hMapped, by omega, hPhysical⟩
    · exact absurd hSome (by simp)
  · rintro ⟨i, hi, hAddress, hPage⟩
    have hIndex : (p - 4194304) / 4096 = i := by omega
    rw [hIndex, if_pos (show i < (builderSpace state).pageCount from hi)] at hWalk
    exact ⟨_, hWalk, hPage⟩

theorem reachable_iff (hFull : state.directHugePages = 512) (hAligned : PageAligned p) :
    TranslatesTo mem (state.tables .pml4Table) p p ∧
        TranslatesTo mem (state.tables .pml4Table) (u64 (directMapBase + p)) p ↔
      ReachablePage state p := by
  unfold ReachablePage
  by_cases hBelow : p < 1073741824
  · have hDirect := walk_directMap_low hBuilt hFull hBelow
    by_cases hCode : 4194304 ≤ p ∧ p < 6291456
    · rw [translatesTo_code_iff hBuilt hAligned hCode.1 hCode.2]
      constructor
      · rintro ⟨hPage, -⟩
        exact ⟨hBelow, Or.inr (Or.inr hPage)⟩
      · rintro ⟨-, hLow | hHigh | hPage⟩
        · omega
        · omega
        · exact ⟨hPage, _, hDirect, rfl⟩
    · have hWalk := (builderSpace_inMemory hBuilt).walk_identity hBelow
          (show p < 4194304 ∨ 6291456 ≤ p by omega)
      constructor
      · intro _
        exact ⟨hBelow, by omega⟩
      · intro _
        exact ⟨⟨_, hWalk, rfl⟩, _, hDirect, rfl⟩
  · constructor
    · rintro ⟨hIdentity, hDirect⟩
      exact (not_reachable_above hBuilt (by omega) hIdentity hDirect).elim
    · rintro ⟨hContra, -⟩
      exact absurd hContra hBelow

end

end Walks

----------
-- A Machine With One Region

/- A kernel of one page at its load address. -/
def smallLayout : MemoryLayout := ⟨0x100000, 0x101000⟩

/- A boot with a region of 17 pages and no framebuffer. -/
def smallBoot (base : UInt64) : BootSummary :=
  { zeroSummary with memoryRegions := [⟨base, 0x11000, 1⟩] }

/- The pages of the region below its first, the last on top. -/
def smallPages (base : Nat) : List Nat := (List.range 16).map fun i => base + (16 - i) * 4096

/- The builder succeeds and takes the upper sixteen pages. -/
theorem smallBoot_succeeds {base : UInt64}
    (hStack : (pmmInit (smallBoot base).memoryRegions
        smallLayout).stack = smallPages base.toNat ++ [base.toNat])
    (hPlan : (pagingPlanInit smallLayout
        (pmmPlanInit (smallBoot base).memoryRegions smallLayout)).planOk = true)
    (hPages : ∀ p ∈ smallPages base.toNat, p ≠ 0 ∧ p < 1073741824 ∧ PageAligned p)
    (hNodup : (smallPages base.toNat).Nodup) :
    ∃ state pmm' mem', pagingBuilderInit smallLayout
          (pagingPlanInit smallLayout (pmmPlanInit (smallBoot base).memoryRegions smallLayout))
          (smallBoot base) tinyImage
          (pmmInit (smallBoot base).memoryRegions smallLayout)
          (fun _ => 0) =
        some (state, pmm', mem') ∧
      state.builderOk = true ∧
      state.tables = builderTables (smallPages base.toNat) := by
  have hFramebuffer : (smallBoot base).framebufferRgbFormatOk = false := rfl
  obtain ⟨state, mem', hRun, hOk, hTables⟩ :=
    pagingBuilderInit_succeeds (fun _ => 0) hPlan rfl hStack rfl
      hPages hNodup (by decide +kernel) (by decide +kernel)
      hFramebuffer tinyImage_loads
  exact ⟨state, _, mem', hRun, hOk, hTables⟩

----------
-- Pages Of The Page Manager

end LiamOS.X64
