import LiamOS.X64.BuilderTables

/-
  The low half of an address space of the x86_64 kernel: the identity window of the first
  gibibyte, a page of it replaced by user code pages at 4 MiB, and one user stack page below 2
  GiB.

  The builder's own tables and those of every process have this shape, with other pages.

  Key definitions: `AddressSpace`, `AddressSpace.InMemory`, `builderSpace`.
-/

namespace LiamOS.X64

open Word PageTable

----------
-- Shape

/- The pages of an address space and the rights on its code. -/
structure AddressSpace where
  pml4 : Nat
  pdpt : Nat
  pd : Nat
  codePt : Nat
  stackPd : Nat
  stackPt : Nat
  stackPage : Nat
  codePages : Nat → Nat
  pageCount : Nat
  codeWritable : Nat → Bool

namespace AddressSpace

def codeFlags (writable : Bool) : Nat := if writable then userStackFlags else userCodeFlags

/- The tables of an address space are in the memory. -/
structure InMemory (space : AddressSpace) (mem : ByteMemory) : Prop where
  pdpt_aligned : PageAligned space.pdpt
  pd_aligned : PageAligned space.pd
  codePt_aligned : PageAligned space.codePt
  stackPd_aligned : PageAligned space.stackPd
  stackPt_aligned : PageAligned space.stackPt
  stackPage_aligned : PageAligned space.stackPage
  codePages_aligned : ∀ i, PageAligned (space.codePages i)
  pageCount_le : space.pageCount ≤ 512
  pml4_low : entryAt mem space.pml4 0 = space.pdpt ||| userTableFlags
  pml4_rest : ∀ j < 512, j ≠ 0 → entryUser (entryAt mem space.pml4 j) = false
  pdpt : ∀ j < 512, entryAt mem space.pdpt j = if j = 1 then
        space.stackPd ||| userTableFlags
      else if j = 0 then space.pd ||| userTableFlags else 0
  pd : ∀ j < 512, entryAt mem space.pd j = if j = 2 then
        space.codePt ||| userTableFlags
      else
        hugePageEntry 0 j
  codePt : ∀ j < 512, entryAt mem space.codePt j = if j < space.pageCount then
        space.codePages j ||| codeFlags (space.codeWritable j)
      else
        0
  stackPd : ∀ j < 512, entryAt mem space.stackPd j = if j = 511 then
        space.stackPt ||| userTableFlags
      else
        0
  stackPt : ∀ j < 512, entryAt mem space.stackPt j = if j = 511 then
        space.stackPage ||| userStackFlags
      else
        0

----------
-- Walks

namespace InMemory

variable {space : AddressSpace}
variable {mem : ByteMemory}
variable {va : Nat}

section

variable (hSpace : space.InMemory mem)
include hSpace

/- Everything below 512 GiB goes through the first table. -/
theorem walk_low (hLow : va < 549755813888) :
    walk mem space.pml4 va = (walkPdpt mem space.pdpt va).map (·.restrict userTableFlags) := by
  have hIndex : pml4Index va = 0 := by
    unfold pml4Index
    omega
  apply walk_table
  · exact Or.inl (by omega)
  · rw [hIndex]
    exact hSpace.pml4_low
  · exact hSpace.pdpt_aligned
  · decide
  · decide

theorem walk_first (hLow : va < 1073741824) : walk mem space.pml4 va =
      ((walkPd mem space.pd va).map
        (·.restrict userTableFlags)).map (·.restrict userTableFlags) := by
  have hIndex : pdptIndex va = 0 := by
    unfold pdptIndex
    omega
  have hEntry := hSpace.pdpt (pdptIndex va) (pdptIndex_lt va)
  rw [hIndex, if_neg (by decide), if_pos rfl, ← hIndex] at hEntry
  rw [hSpace.walk_low (by omega),
    walkPdpt_table hEntry hSpace.pd_aligned (by decide) (by decide) (by decide)]

/- The identity window is supervisor memory. -/
theorem walk_identity (hLow : va < 1073741824) (hCode : va < 4194304 ∨ 6291456 ≤ va) :
    walk mem space.pml4 va = some ⟨va, false, true⟩ := by
  have hIndex : pdIndex va = va / 2097152 := by
    unfold pdIndex
    omega
  have hEntry := hSpace.pd (pdIndex va) (pdIndex_lt va)
  rw [if_neg (by omega), hugePageEntry_zero (pdIndex_lt va)] at hEntry
  have hWalk := walkPd_huge hEntry (Nat.mul_mod_left _ _) (by decide) (by decide) (by decide)
  have hAddress : pdIndex va * 2097152 + va % 2097152 = va := by
    rw [hIndex]
    omega
  rw [hSpace.walk_first hLow, hWalk, hAddress]
  rfl

/- The 2 MiB at 4 MiB hold the code pages and nothing else. -/
theorem walk_code (hLow : 4194304 ≤ va) (hHigh : va < 6291456) :
    walk mem space.pml4 va = if (va - 4194304) / 4096 < space.pageCount then
        some ⟨space.codePages ((va - 4194304) / 4096) + va % 4096, true,
          space.codeWritable ((va - 4194304) / 4096)⟩
      else
        none := by
  have hPd : pdIndex va = 2 := by
    unfold pdIndex
    omega
  have hPt : ptIndex va = (va - 4194304) / 4096 := by
    unfold ptIndex
    omega
  have hEntry := hSpace.pd (pdIndex va) (pdIndex_lt va)
  rw [if_pos hPd] at hEntry
  have hPage := hSpace.codePt (ptIndex va) (ptIndex_lt va)
  rw [hSpace.walk_first (by omega),
    walkPd_table hEntry hSpace.codePt_aligned (by decide) (by decide) (by decide), ← hPt]
  by_cases hMapped : ptIndex va < space.pageCount
  · rw [if_pos hMapped] at hPage ⊢
    have hFlags : codeFlags (space.codeWritable (ptIndex va)) < 4096 := by
      cases space.codeWritable (ptIndex va) <;> decide
    have hPresent : (codeFlags (space.codeWritable (ptIndex va))).testBit 0 = true := by
      cases space.codeWritable (ptIndex va) <;> decide
    rw [walkPt_page hPage (hSpace.codePages_aligned _) hFlags hPresent]
    cases space.codeWritable (ptIndex va) <;> rfl
  · rw [if_neg hMapped] at hPage ⊢
    rw [walkPt_absent hPage]
    rfl

/- The second gibibyte holds the stack page and nothing else. -/
theorem walk_stack (hLow : 1073741824 ≤ va) (hHigh : va < 2147483648) :
    walk mem space.pml4 va = if 2147479552 ≤ va then
        some ⟨space.stackPage + va % 4096, true, true⟩
      else
        none := by
  have hPdpt : pdptIndex va = 1 := by
    unfold pdptIndex
    omega
  have hEntry := hSpace.pdpt (pdptIndex va) (pdptIndex_lt va)
  rw [if_pos hPdpt] at hEntry
  have hPd := hSpace.stackPd (pdIndex va) (pdIndex_lt va)
  have hPt := hSpace.stackPt (ptIndex va) (ptIndex_lt va)
  rw [hSpace.walk_low (by omega),
    walkPdpt_table hEntry hSpace.stackPd_aligned (by decide) (by decide) (by decide)]
  by_cases hLast : pdIndex va = 511
  · rw [if_pos hLast] at hPd
    rw [walkPd_table hPd hSpace.stackPt_aligned (by decide) (by decide) (by decide)]
    unfold pdIndex at hLast
    by_cases hTop : ptIndex va = 511
    · rw [if_pos hTop] at hPt
      rw [walkPt_page hPt hSpace.stackPage_aligned (by decide) (by decide)]
      unfold ptIndex at hTop
      rw [if_pos (by omega)]
      rfl
    · rw [if_neg hTop] at hPt
      rw [walkPt_absent hPt]
      unfold ptIndex at hTop
      rw [if_neg (by omega)]
      rfl
  · rw [if_neg hLast] at hPd
    rw [walkPd_absent hPd]
    unfold pdIndex at hLast
    rw [if_neg (by omega)]
    rfl

/- The first table maps nothing above 2 GiB. -/
theorem walk_hole (hLow : 2147483648 ≤ va) (hHigh : va < 549755813888) :
    walk mem space.pml4 va = none := by
  have hPdpt : pdptIndex va = va / 1073741824 := by
    unfold pdptIndex
    omega
  have hEntry := hSpace.pdpt (pdptIndex va) (pdptIndex_lt va)
  rw [if_neg (by omega), if_neg (by omega)] at hEntry
  rw [hSpace.walk_low hHigh, walkPdpt_absent hEntry]
  rfl

/- The other tables of the first level are the kernel's. -/
theorem walk_kernel (hIndex : pml4Index va ≠ 0) {t : Translation}
    (hWalk : walk mem space.pml4 va = some t) :
    t.user = false := by
  have hEntry := hSpace.pml4_rest _ (pml4Index_lt va) hIndex
  simp only [walk] at hWalk
  split at hWalk
  · split at hWalk
    · obtain ⟨s, -, hs⟩ := Option.map_eq_some_iff.mp hWalk
      rw [← hs, Translation.restrict, hEntry]
      rfl
    · exact absurd hWalk (by simp)
  · exact absurd hWalk (by simp)

/- The addresses of user mode. -/
theorem userAt_iff (va : Nat) :
    UserAt mem space.pml4 va ↔ (4194304 ≤ va ∧ va < 4194304 + space.pageCount * 4096) ∨
        (2147479552 ≤ va ∧ va < 2147483648) := by
  have hCount := hSpace.pageCount_le
  unfold UserAt
  by_cases hLow : va < 549755813888
  · by_cases hIdentity : va < 1073741824 ∧ (va < 4194304 ∨ 6291456 ≤ va)
    · rw [hSpace.walk_identity hIdentity.1 hIdentity.2]
      constructor
      · rintro ⟨t, hWalk, hUser⟩
        rw [← Option.some.inj hWalk] at hUser
        exact absurd hUser (by simp)
      · intro hRange
        omega
    · by_cases hCode : va < 6291456
      · rw [hSpace.walk_code (by omega) hCode]
        by_cases hMapped : (va - 4194304) / 4096 < space.pageCount
        · rw [if_pos hMapped]
          exact ⟨fun _ => Or.inl (by omega), fun _ => ⟨_, rfl, rfl⟩⟩
        · rw [if_neg hMapped]
          constructor
          · rintro ⟨t, hWalk, -⟩
            exact absurd hWalk (by simp)
          · intro hRange
            omega
      · by_cases hStack : va < 2147483648
        · rw [hSpace.walk_stack (by omega) hStack]
          by_cases hTop : 2147479552 ≤ va
          · rw [if_pos hTop]
            exact ⟨fun _ => Or.inr ⟨hTop, hStack⟩, fun _ => ⟨_, rfl, rfl⟩⟩
          · rw [if_neg hTop]
            constructor
            · rintro ⟨t, hWalk, -⟩
              exact absurd hWalk (by simp)
            · intro hRange
              omega
        · rw [hSpace.walk_hole (by omega) hLow]
          constructor
          · rintro ⟨t, hWalk, -⟩
            exact absurd hWalk (by simp)
          · intro hRange
            omega
  · constructor
    · rintro ⟨t, hWalk, hUser⟩
      by_cases hIndex : pml4Index va = 0
      · -- The index is cut from the address, so a high
        -- address with index 0 is not canonical.
        simp only [walk] at hWalk
        split at hWalk
        · next hCanonical =>
            unfold pml4Index at hIndex
            unfold Canonical at hCanonical
            omega
        · exact absurd hWalk (by simp)
      · rw [hSpace.walk_kernel hIndex hWalk] at hUser
        exact absurd hUser (by simp)
    · intro hRange
      omega

end

end InMemory

end AddressSpace

----------
-- The Builder's Address Space

def builderSpace (state : BuilderState) : AddressSpace where
  pml4 := state.tables .pml4Table
  pdpt := state.tables .identityPdptTable
  pd := state.tables .identityPdTable
  codePt := state.tables .userCodePtTable
  stackPd := state.tables .userStackPdTable
  stackPt := state.tables .userStackPtTable
  stackPage := state.tables .userStackPage
  codePages := fun i => state.tables (BuilderPage.userCodePages i)
  pageCount := state.image.userImagePages
  codeWritable := fun _ => false

theorem entryUser_kernelTable {table : Nat} (hTable : PageAligned table) :
    entryUser (table ||| tableFlags) = false := by
  rw [entryUser, testBit_or_flags hTable (by decide)]
  rfl

theorem builderSpace_inMemory {state : BuilderState} {mem : ByteMemory}
    (hBuilt : BuiltTables state mem) :
    (builderSpace state).InMemory mem where
  pdpt_aligned := hBuilt.pages.aligned _
  pd_aligned := hBuilt.pages.aligned _
  codePt_aligned := hBuilt.pages.aligned _
  stackPd_aligned := hBuilt.pages.aligned _
  stackPt_aligned := hBuilt.pages.aligned _
  stackPage_aligned := hBuilt.pages.aligned _
  codePages_aligned := fun _ => hBuilt.pages.aligned _
  pageCount_le := le_trans hBuilt.imagePages_le (by decide)
  pml4_low := hBuilt.entries.pml4 0 (by decide)
  pml4_rest := by
    intro j hj hNonzero
    have hAligned := hBuilt.pages.aligned
    have hEntry := hBuilt.entries.pml4 j hj
    rw [show (builderSpace state).pml4 = state.tables .pml4Table from rfl, hEntry]
    split_ifs
    · exact entryUser_kernelTable (hAligned _)
    · exact entryUser_kernelTable (hAligned _)
    · exact entryUser_kernelTable (hAligned _)
    · rfl
  pdpt := hBuilt.entries.identityPdpt
  pd := hBuilt.entries.identityPd
  codePt := hBuilt.entries.userCodePt
  stackPd := hBuilt.entries.userStackPd
  stackPt := hBuilt.entries.userStackPt

end LiamOS.X64
