import LiamOS.X64.PageReach

/-
  The whole address space of the paging builder.

  Outside the slot of the framebuffer the builder's tables hold five windows and nothing else: the
  identity window, the user code and the user stack inside the lower half, the direct map and the
  kernel's own window. The count of kernel pages is cut to 32 bits before it is checked, so the
  window of the kernel is the planned one only for a kernel whose pages fit in 32 bits.

  Main declarations: `walk_eq_plannedTranslation`, `huge_kernel_window_cut`.
-/

namespace LiamOS.X64

open Word PageTable

----------
-- The Plan

/- The size of the kernel image in whole pages. -/
def roundedKernelBytes (layout : MemoryLayout) : Nat :=
  (layout.kernelSizeBytes + 4095) / 4096 * 4096

/- The size of the direct map in whole huge pages of a table. -/
def directMapWindow (plan : PagingPlan) : Nat :=
  2097152 * min 512 ((plan.directMapBytes + 2097151) / 2097152)

/- Where the plan puts an address, and for whom. -/
def plannedTranslation (layout : MemoryLayout) (plan : PagingPlan) (state : BuilderState)
    (va : Nat) : Option Translation :=
  if va < 1073741824 ∧ ¬ (4194304 ≤ va ∧ va < 6291456) then
    some ⟨va, false, true⟩
  else if 4194304 ≤ va ∧ va < 4194304 + state.image.userImagePages * 4096 then
    some ⟨state.tables (BuilderPage.userCodePages ((va - 4194304) / 4096)) + va % 4096, true, false⟩
  else if 2147479552 ≤ va ∧ va < 2147483648 then
    some ⟨state.tables .userStackPage + va % 4096, true, true⟩
  else if directMapBase ≤ va ∧ va < directMapBase + directMapWindow plan then
    some ⟨va - directMapBase, false, true⟩
  else if plan.kernelVirtualStart ≤ va ∧
      va < plan.kernelVirtualStart + roundedKernelBytes layout then
    some ⟨layout.kernelStart.toNat + (va - plan.kernelVirtualStart), false, true⟩
  else
    none

----------
-- The Tables

/- The tables of a run with all their entries. -/
structure BuiltSpace (layout : MemoryLayout) (pmmPlan : PmmPlan) (state : BuilderState)
    (mem : ByteMemory) : Prop where
  built : BuiltTables state mem
  kernel : KernelTables layout (pagingPlanInit layout pmmPlan) state.tables mem
  direct : state.directHugePages = 512
  kernelPages : kernelPageCount layout ≤ 512

section Walks

variable {layout : MemoryLayout}
variable {pmmPlan : PmmPlan}
variable {state : BuilderState}
variable {mem : ByteMemory}
variable {va : Nat}

theorem pagingBuilderInit_space {boot : BootSummary} {userImage : UserImage} {pmm pmm' : Pmm}
    {mem₀ : ByteMemory} (hPlan : (pagingPlanInit layout pmmPlan).planOk = true)
    (hRun : pagingBuilderInit layout (pagingPlanInit layout pmmPlan)
        boot userImage pmm mem₀ = some (state, pmm', mem))
    (hOk : state.builderOk = true)
    (hNodup : pmm.stack.Nodup) :
    BuiltSpace layout pmmPlan state mem := by
  obtain ⟨hBuilt, -, hDirect⟩ := pagingBuilderInit_built hRun hOk hNodup
  obtain ⟨loaded, hMapping⟩ := pagingBuilderInit_run hRun hOk hNodup
  have hFlags := hOk
  rw [hMapping.checked] at hFlags
  simp only [checkMappings, Bool.and_eq_true, decide_eq_true_eq] at hFlags
  rw [directPageCount_of_planOk hPlan] at hDirect
  refine ⟨hBuilt, ?_, hDirect, hFlags.1.1.2.2⟩
  rw [hMapping.mapped]
  exact buildMappings_kernelTables (framebufferMapping boot) hMapping.pages hMapping.bound pmmPlan
    hMapping.imagePages_le hMapping.empty

/- A kernel at its load address starts the kernel's window. -/
theorem kernelVirtualStart_of_loadBase (pmmPlan : PmmPlan)
    (hStart : layout.kernelStart.toNat = MemoryLayout.kernelLoadBase) :
    (pagingPlanInit layout pmmPlan).kernelVirtualStart = kernelVirtualBase := by
  have hPlanned : (pagingPlanInit layout pmmPlan).kernelVirtualStart =
        u64 (layout.kernelStart.toNat + (kernelVirtualBase - MemoryLayout.kernelLoadBase)) := rfl
  rw [hPlanned, hStart]
  decide

theorem directMapWindow_of_planOk (hPlan : (pagingPlanInit layout pmmPlan).planOk = true) :
    directMapWindow (pagingPlanInit layout pmmPlan) = 1073741824 := by
  have hBytes := directMapBytes_bounds hPlan
  rw [directMapWindow, pagingPlanInit_directMapBytes]
  omega

/- The plan for the kernel's window, up to the last address. -/
theorem plannedTranslation_kernel (hStart : layout.kernelStart.toNat = MemoryLayout.kernelLoadBase)
    (hPlan : (pagingPlanInit layout pmmPlan).planOk = true)
    (hImage : state.image.userImagePages ≤ 2) {o : Nat} (ho : o < roundedKernelBytes layout) :
    plannedTranslation layout (pagingPlanInit layout pmmPlan) state (kernelVirtualBase + o) =
      some ⟨layout.kernelStart.toNat + o, false, true⟩ := by
  have hDirectBase : directMapBase = 18446603336221196288 := rfl
  have hKernelBase : kernelVirtualBase = 18446744071562067968 := rfl
  rw [plannedTranslation, kernelVirtualStart_of_loadBase _ hStart,
    directMapWindow_of_planOk hPlan, if_neg (by omega),
    if_neg (by omega), if_neg (by omega), if_neg (by omega),
    if_pos (by omega), Nat.add_sub_cancel_left]

/- The pages of a kernel whose page count fits in 32 bits. -/
theorem kernelPageCount_mul (hSize : layout.kernelSizeBytes ≤ 17592186040320) :
    kernelPageCount layout * 4096 = roundedKernelBytes layout := by
  unfold kernelPageCount alignPageCount roundedKernelBytes u32 u64
  omega

namespace BuiltSpace

section

variable (hSpace : BuiltSpace layout pmmPlan state mem)
include hSpace

theorem walk_lower (hLow : va < 140737488355328) :
    walk mem (state.tables .pml4Table) va =
      if va < 1073741824 ∧ ¬ (4194304 ≤ va ∧ va < 6291456) then
        some ⟨va, false, true⟩
      else if 4194304 ≤ va ∧ va < 4194304 + state.image.userImagePages * 4096 then
        some ⟨state.tables
          (BuilderPage.userCodePages ((va - 4194304) / 4096)) + va % 4096, true, false⟩
      else if 2147479552 ≤ va ∧ va < 2147483648 then
        some ⟨state.tables .userStackPage + va % 4096, true, true⟩
      else
        none := by
  have hLayout := builderSpace_inMemory hSpace.built
  have hPages := hSpace.built.imagePages_le
  by_cases hIdentity : va < 1073741824 ∧ ¬ (4194304 ≤ va ∧ va < 6291456)
  · rw [if_pos hIdentity]
    exact hLayout.walk_identity hIdentity.1 (by omega)
  rw [if_neg hIdentity]
  by_cases hCode : 4194304 ≤ va ∧ va < 6291456
  · have hWalk := hLayout.walk_code hCode.1 hCode.2
    rw [if_neg (show ¬ (2147479552 ≤ va ∧ va < 2147483648) by
      omega)]
    by_cases hMapped : (va - 4194304) / 4096 < state.image.userImagePages
    · rw [if_pos (show (va - 4194304) / 4096 <
        (builderSpace state).pageCount from hMapped)] at hWalk
      rw [if_pos (by omega)]
      exact hWalk
    · rw [if_neg (show ¬ (va - 4194304) / 4096 <
        (builderSpace state).pageCount from hMapped)] at hWalk
      rw [if_neg (by omega)]
      exact hWalk
  · rw [if_neg (show ¬ (4194304 ≤ va ∧ va < 4194304 + state.image.userImagePages * 4096) by
        omega)]
    by_cases hStack : va < 2147483648
    · have hWalk := hLayout.walk_stack (by omega) hStack
      by_cases hTop : 2147479552 ≤ va
      · rw [if_pos hTop] at hWalk
        rw [if_pos ⟨hTop, hStack⟩]
        exact hWalk
      · rw [if_neg hTop] at hWalk
        rw [if_neg (by omega)]
        exact hWalk
    · rw [if_neg (by omega)]
      by_cases hTable : va < 549755813888
      · exact hLayout.walk_hole (by omega) hTable
      · exact walk_lower_half hSpace.built (by omega) hLow

theorem walk_direct (hLow : directMapBase ≤ va) (hHigh : va < directMapBase + 549755813888) :
    walk mem (state.tables .pml4Table) va = if va < directMapBase + 1073741824 then
        some ⟨va - directMapBase, false, true⟩
      else
        none := by
  have hAddress : u64 (directMapBase + (va - directMapBase)) = va := by
    unfold u64
    unfold directMapBase at hLow hHigh ⊢
    omega
  by_cases hMapped : va < directMapBase + 1073741824
  · have hWalk :=
      walk_directMap_low hSpace.built hSpace.direct (show va - directMapBase < 1073741824 by omega)
    rw [hAddress] at hWalk
    rw [if_pos hMapped]
    exact hWalk
  · have hWalk :=
      walk_directMap_end hSpace.built (show 1073741824 ≤ va - directMapBase by omega) (by omega)
    rw [hAddress] at hWalk
    rw [if_neg hMapped]
    exact hWalk

/- The last slot holds the pages of the kernel. -/
theorem walk_kernelWindow (hStart : layout.kernelStart.toNat = MemoryLayout.kernelLoadBase)
    (hLow : 18446743523953737728 ≤ va) (hHigh : va < 18446744073709551616) :
    walk mem (state.tables .pml4Table) va =
      if kernelVirtualBase ≤ va ∧ va < kernelVirtualBase + kernelPageCount layout * 4096 then
        some ⟨layout.kernelStart.toNat + (va - kernelVirtualBase), false, true⟩
      else
        none := by
  have hAligned := hSpace.built.pages.aligned
  have hCount := hSpace.kernelPages
  have hBase : kernelVirtualBase = 18446744071562067968 := rfl
  have hSlot : pml4Index va = 511 := by
    unfold pml4Index
    omega
  have hPml4 := hSpace.built.entries.pml4 _ (pml4Index_lt va)
  rw [if_pos hSlot] at hPml4
  have hPdpt := hSpace.kernel.kernelPdpt _ (pdptIndex_lt va)
  have hPd := hSpace.kernel.kernelPd _ (pdIndex_lt va)
  have hPt := hSpace.kernel.kernelPt _ (ptIndex_lt va)
  rw [kernelVirtualStart_of_loadBase pmmPlan hStart] at hPdpt hPd
  have hPdptBase : pdptIndex kernelVirtualBase = 510 := by decide
  have hPdBase : pdIndex kernelVirtualBase = 0 := by decide
  rw [hPdptBase] at hPdpt
  rw [hPdBase] at hPd
  rw [walk_table (Or.inr (by omega)) hPml4 (hAligned _) (by decide) (by decide)]
  by_cases hSecond : pdptIndex va = 510
  · rw [if_pos hSecond] at hPdpt
    rw [walkPdpt_table hPdpt (hAligned _) (by decide) (by decide) (by decide)]
    unfold pdptIndex at hSecond
    by_cases hThird : pdIndex va = 0
    · rw [if_pos hThird] at hPd
      rw [walkPd_table hPd (hAligned _) (by decide) (by decide) (by decide)]
      unfold pdIndex at hThird
      have hIndex : ptIndex va = (va - kernelVirtualBase) / 4096 := by
        unfold ptIndex
        rw [hBase]
        omega
      have hClamp : clampEntries (kernelPageCount layout) = kernelPageCount layout :=
        if_neg (by omega)
      rw [hClamp] at hPt
      by_cases hMapped : ptIndex va < kernelPageCount layout
      · have hSmall : layout.kernelStart.toNat + ptIndex va * 4096 < 18446744073709551616 := by
          have hLt := ptIndex_lt va
          rw [hStart, MemoryLayout.kernelLoadBase]
          omega
        have hPageAligned : PageAligned (layout.kernelStart.toNat + ptIndex va * 4096) := by
          rw [hStart, MemoryLayout.kernelLoadBase, PageAligned]
          omega
        rw [if_pos hMapped, kernelPageEntry, u64_of_lt hSmall] at hPt
        rw [walkPt_page hPt hPageAligned (by decide) (by decide), if_pos (by omega), hIndex]
        have hPhysical :
            layout.kernelStart.toNat + (va - kernelVirtualBase) / 4096 * 4096 + va % 4096 =
              layout.kernelStart.toNat + (va - kernelVirtualBase) := by
          rw [hBase]
          omega
        rw [hPhysical]
        rfl
      · rw [if_neg hMapped] at hPt
        rw [walkPt_absent hPt, if_neg (by omega)]
        rfl
    · rw [if_neg hThird] at hPd
      unfold pdIndex at hThird
      rw [walkPd_absent hPd, if_neg (by omega)]
      rfl
  · rw [if_neg hSecond] at hPdpt
    unfold pdptIndex at hSecond
    rw [walkPdpt_absent hPdpt, if_neg (by omega)]
    rfl

/- The other slots of the upper half are empty. -/
theorem walk_upper_hole (hLow : directMapBase + 549755813888 ≤ va)
    (hHigh : va < 18446743523953737728) (hFramebuffer : pml4Index va ≠ 288) :
    walk mem (state.tables .pml4Table) va = none := by
  have hBase : directMapBase = 18446603336221196288 := rfl
  have hIndex : pml4Index va ≠ 511 ∧ pml4Index va ≠ 256 ∧ pml4Index va ≠ 0 := by
    unfold pml4Index
    omega
  have hEntry := hSpace.built.entries.pml4 _ (pml4Index_lt va)
  rw [if_neg hIndex.1, if_neg hFramebuffer, if_neg hIndex.2.1, if_neg hIndex.2.2] at hEntry
  exact walk_absent hEntry

end

end BuiltSpace

end Walks

----------
-- The Builder Keeps To The Plan

/-
  For a kernel at its load address whose pages can be counted in 32 bits, a run of the builder
  that reports success maps every address outside the framebuffer's slot as planned.
-/
theorem walk_eq_plannedTranslation {layout : MemoryLayout} {pmmPlan : PmmPlan} {boot : BootSummary}
    {userImage : UserImage} {pmm pmm' : Pmm} {mem mem' : ByteMemory} {state : BuilderState}
    (hStart : layout.kernelStart.toNat = MemoryLayout.kernelLoadBase)
    (hSize : layout.kernelSizeBytes ≤ 2 ^ 44 - 4096)
    (hPlan : (pagingPlanInit layout pmmPlan).planOk = true) (hNodup : pmm.stack.Nodup)
    (hRun : pagingBuilderInit layout (pagingPlanInit layout pmmPlan)
        boot userImage pmm mem = some (state, pmm', mem'))
    (hOk : state.builderOk = true)
    (va : UInt64)
    (hSlot : pml4Index va.toNat ≠ pml4Index framebufferVirtualBase) :
    walk mem' (state.tables .pml4Table) va.toNat =
      plannedTranslation layout (pagingPlanInit layout pmmPlan) state va.toNat := by
  have hSpace := pagingBuilderInit_space hPlan hRun hOk hNodup
  have hKernelBytes := kernelPageCount_mul hSize
  have hKernelPages := hSpace.kernelPages
  have hPages := hSpace.built.imagePages_le
  have hDirectBase : directMapBase = 18446603336221196288 := rfl
  have hKernelBase : kernelVirtualBase = 18446744071562067968 := rfl
  have hWidth : va.toNat < 18446744073709551616 := va.toNat_lt
  rw [plannedTranslation, kernelVirtualStart_of_loadBase _ hStart,
    directMapWindow_of_planOk hPlan, ← hKernelBytes]
  generalize va.toNat = v at hSlot hWidth ⊢
  -- the lower half, the gap of addresses that are not
  -- canonical, and the three parts of the upper half
  by_cases hLower : v < 140737488355328
  · rw [hSpace.walk_lower hLower,
      if_neg (show ¬ (directMapBase ≤ v ∧ v < directMapBase + 1073741824) by omega),
      if_neg (show ¬ (kernelVirtualBase ≤ v ∧
        v < kernelVirtualBase + kernelPageCount layout * 4096) by
          omega)]
  rw [if_neg (show ¬ (v < 1073741824 ∧ ¬ (4194304 ≤ v ∧ v < 6291456)) by omega),
    if_neg (show ¬ (4194304 ≤ v ∧ v < 4194304 + state.image.userImagePages * 4096) by omega),
    if_neg (show ¬ (2147479552 ≤ v ∧ v < 2147483648) by omega)]
  by_cases hGap : v < directMapBase
  · rw [if_neg (by omega), if_neg (by omega)]
    refine walk_not_canonical ?_
    unfold Canonical
    omega
  by_cases hDirect : v < directMapBase + 549755813888
  · rw [hSpace.walk_direct (by omega) hDirect,
      if_neg (show ¬ (kernelVirtualBase ≤ v ∧
        v < kernelVirtualBase + kernelPageCount layout * 4096) by
          omega)]
    by_cases hMapped : v < directMapBase + 1073741824
    · rw [if_pos hMapped, if_pos ⟨by omega, hMapped⟩]
    · rw [if_neg hMapped, if_neg (by omega)]
  rw [if_neg (show ¬ (directMapBase ≤ v ∧ v < directMapBase + 1073741824) by omega)]
  by_cases hKernel : 18446743523953737728 ≤ v
  · exact hSpace.walk_kernelWindow hStart hKernel hWidth
  · rw [if_neg (by omega)]
    exact hSpace.walk_upper_hole (by omega) (by omega) hSlot

/- Sixteen pages at 2 MiB and nothing else. -/
def sixteenPages : Pmm :=
  { zeroPmm with
    initialized := true
    stack := smallPages 0x200000 }

def emptyPmmPlan : PmmPlan := ⟨0, 0, 0, 0, 0⟩

/- The builder succeeds for a kernel that counts as one page. -/
theorem sixteenPages_succeeds {layout : MemoryLayout}
    (hPlan : (pagingPlanInit layout emptyPmmPlan).planOk = true)
    (hPages : kernelPageCount layout = 1) :
    ∃ state pmm' mem', pagingBuilderInit layout (pagingPlanInit layout emptyPmmPlan)
          zeroSummary tinyImage sixteenPages (fun _ => 0) =
        some (state, pmm', mem') ∧
      state.builderOk = true ∧
      state.tables = builderTables (smallPages 0x200000) := by
  obtain ⟨state, mem', hRun, hOk, hTables⟩ :=
    pagingBuilderInit_succeeds (fun _ => 0) hPlan (show sixteenPages.initialized = true from rfl)
      (show sixteenPages.stack = smallPages 0x200000 ++ [] from (List.append_nil _).symm)
      rfl (by decide +kernel) (by decide +kernel) (by omega)
      (by omega) (show zeroSummary.framebufferRgbFormatOk = false from rfl)
      tinyImage_loads
  exact ⟨state, _, mem', hRun, hOk, hTables⟩

/- A kernel of one page is found in its window. -/
theorem walk_eq_plannedTranslation_onePage :
    ∃ state pmm' mem', pagingBuilderInit smallLayout (pagingPlanInit smallLayout emptyPmmPlan)
          zeroSummary tinyImage sixteenPages (fun _ => 0) =
        some (state, pmm', mem') ∧
      state.builderOk = true ∧
      walk mem' (state.tables .pml4Table) 0xFFFFFFFF80000010 = some ⟨0x100010, false, true⟩ := by
  have hPlan : (pagingPlanInit smallLayout emptyPmmPlan).planOk = true := by decide +kernel
  obtain ⟨state, pmm', mem', hRun, hOk, -⟩ := sixteenPages_succeeds hPlan (by decide +kernel)
  have hNodup : sixteenPages.stack.Nodup := by decide +kernel
  have hSpace := pagingBuilderInit_space hPlan hRun hOk hNodup
  refine ⟨state, pmm', mem', hRun, hOk, ?_⟩
  refine (walk_eq_plannedTranslation rfl (by decide +kernel) hPlan
    hNodup hRun hOk 0xFFFFFFFF80000010 (by decide)).trans ?_
  exact plannedTranslation_kernel rfl hPlan hSpace.built.imagePages_le
    (show 16 < roundedKernelBytes smallLayout by decide +kernel)

/- A kernel of 2 ^ 32 + 1 pages at the load address. -/
def hugeKernelLayout : MemoryLayout := ⟨0x100000, 0x100000101000⟩

/-
  Of that kernel one page is mapped, and the builder reports success: its second page is planned
  and has no translation.
-/
theorem huge_kernel_window_cut :
    ∃ state pmm' mem', (pagingPlanInit hugeKernelLayout emptyPmmPlan).planOk = true ∧
      sixteenPages.stack.Nodup ∧
      pagingBuilderInit hugeKernelLayout (pagingPlanInit hugeKernelLayout emptyPmmPlan)
          zeroSummary tinyImage sixteenPages (fun _ => 0) =
        some (state, pmm', mem') ∧
      state.builderOk = true ∧
      hugeKernelLayout.kernelStart.toNat = MemoryLayout.kernelLoadBase ∧
      pml4Index 0xFFFFFFFF80001000 ≠ pml4Index framebufferVirtualBase ∧
      plannedTranslation hugeKernelLayout (pagingPlanInit hugeKernelLayout emptyPmmPlan) state
          0xFFFFFFFF80001000 =
        some ⟨0x101000, false, true⟩ ∧
      walk mem' (state.tables .pml4Table) 0xFFFFFFFF80001000 = none := by
  have hPlan : (pagingPlanInit hugeKernelLayout emptyPmmPlan).planOk = true := by decide +kernel
  have hPages : kernelPageCount hugeKernelLayout = 1 := by decide +kernel
  have hNodup : sixteenPages.stack.Nodup := by decide +kernel
  obtain ⟨state, pmm', mem', hRun, hOk, -⟩ := sixteenPages_succeeds hPlan hPages
  have hSpace := pagingBuilderInit_space hPlan hRun hOk hNodup
  refine ⟨state, pmm', mem', hPlan, hNodup, hRun, hOk, rfl, by decide, ?_, ?_⟩
  · exact plannedTranslation_kernel rfl hPlan hSpace.built.imagePages_le
      (show 4096 < roundedKernelBytes hugeKernelLayout by
        decide +kernel)
  · rw [hSpace.walk_kernelWindow rfl (by decide) (by decide), hPages, if_neg (by decide)]

end LiamOS.X64
