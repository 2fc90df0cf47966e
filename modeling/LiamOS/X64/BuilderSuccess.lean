import LiamOS.X64.BuilderTables

/-
  When the paging builder succeeds.

  Sixteen distinct pages in the window of the boot tables, a kernel of at most 2 MiB and a program
  that loads are enough if no framebuffer is asked for.

  Key definitions: `KernelTables`.
-/

namespace LiamOS.X64

open Word PageTable

variable {rest taken : List Nat} {pmm : Pmm} {f p : Nat} {layout : MemoryLayout} {pmmPlan : PmmPlan}
variable {mem : ByteMemory}

----------
-- Allocation

theorem allocatePages_run (allocated : List Nat) (mem : ByteMemory) (hInit : pmm.initialized = true)
    (hStack : pmm.stack = taken ++ rest) (hTaken : ∀ p ∈ taken, p ≠ 0 ∧ p < 1073741824) :
    allocatePages taken.length allocated pmm mem =
      some (allocated ++ taken, { pmm with stack := rest }, taken.foldl clearPage mem) := by
  induction taken generalizing pmm mem allocated with
  | nil =>
    rw [List.nil_append] at hStack
    rw [List.append_nil, List.foldl_nil, ← hStack]
    rfl
  | cons page taken ih =>
    have hPage := hTaken page (by simp)
    rw [List.length_cons, allocatePages, pmmAllocPage_cons hInit hStack,
      if_neg (show ¬ page = pmmInvalidPage from hPage.1),
      if_pos (show page < MemoryLayout.bootstrapIdentityMapBytes from hPage.2)]
    refine (ih _ _ ?_ ?_ ?_).trans ?_
    · exact hInit
    · rfl
    · exact fun p hp => hTaken p (by simp [hp])
    · simp

----------
-- Kernel Tables

def kernelPageEntry (layout : MemoryLayout) (i : Nat) : Nat :=
  u64 (layout.kernelStart.toNat + i * 4096) ||| tableFlags

/- The tables of the kernel's own window. -/
structure KernelTables (layout : MemoryLayout) (plan : PagingPlan) (tables : BuilderPage → Nat)
    (mem : ByteMemory) : Prop where
  kernelPdpt : ∀ j < 512, entryAt mem (tables .kernelPdptTable) j =
      if j = pdptIndex plan.kernelVirtualStart then tables .kernelPdTable ||| tableFlags else 0
  kernelPd :
    ∀ j < 512, entryAt mem (tables .kernelPdTable) j = if j = pdIndex plan.kernelVirtualStart then
        tables .kernelPtTable ||| tableFlags
      else
        0
  kernelPt : ∀ j < 512, entryAt mem (tables .kernelPtTable) j =
      if j < clampEntries (kernelPageCount layout) then kernelPageEntry layout j else 0

section Entries

variable {tables : BuilderPage → Nat}
variable {mem : ByteMemory}
variable {layout : MemoryLayout}
variable {userImagePages : Nat}

/- The table of the kernel pages is written in one place. -/
theorem entryAt_kernelPt (framebuffer : FramebufferMapping) (hPages : PageFamily tables)
    (hBound : ∀ b, tables b < 1073741824) (pmmPlan : PmmPlan) (hImage : userImagePages ≤ 2)
    {j : Nat} (hj : j < 512) :
    entryAt
        (buildMappings tables layout (pagingPlanInit layout pmmPlan) framebuffer userImagePages mem)
        (tables .kernelPtTable) j =
      if j < clampEntries (kernelPageCount layout) then
        kernelPageEntry layout j
      else
        entryAt mem (tables .kernelPtTable) j := by
  have hLinks := links_fit hPages hBound layout pmmPlan
  have hFit : 0 + clampEntries (kernelPageCount layout) ≤ 512 := by
    have hClamp := clampEntries_le (kernelPageCount layout)
    omega
  rw [buildMappings, hPages.entryAt_writeEntries _ hj fun w hw =>
      hLinks w (List.mem_append_right _ hw), userLinks_eq,
    entryAt_mapUserCode hPages hBound hImage _ hj,
    if_neg (by simp),
    hPages.entryAt_writeEntries _ hj fun w hw =>
      hLinks w (List.mem_append_left _ hw),
    kernelLinks]
  simp only [lastEntry_nil, lastEntry_other, ne_eq, reduceCtorEq, not_false_eq_true]
  rw [mapKernelPages, hPages.entryAt_fillEntries .kernelPtTable .kernelPtTable hFit hj
      fun i _ => Nat.or_lt_two_pow (n := 64) (u64_lt _) (by decide),
    entryAt_mapFramebuffer hPages hBound (by decide) (by decide) hj,
    entryAt_windows hPages layout pmmPlan _ hj,
    if_neg (show ¬ (BuilderPage.directPdTable =
      BuilderPage.kernelPtTable ∧ j < directPageCount pmmPlan) by simp),
    if_neg (show BuilderPage.identityPdTable ≠ BuilderPage.kernelPtTable by decide)]
  by_cases hMapped : j < clampEntries (kernelPageCount layout)
  · rw [if_pos hMapped, if_pos ⟨rfl, by omega, by omega⟩, kernelPageEntry, Nat.sub_zero]
  · rw [if_neg hMapped, if_neg fun h => hMapped (by omega)]

theorem buildMappings_kernelTables (framebuffer : FramebufferMapping) (hPages : PageFamily tables)
    (hBound : ∀ b, tables b < 1073741824) (pmmPlan : PmmPlan) (hImage : userImagePages ≤ 2)
    (hEmpty :
      ∀ b, b ≠ .userCodePage0 → b ≠ .userCodePage1 → ∀ j < 512, entryAt mem (tables b) j = 0) :
    KernelTables layout (pagingPlanInit layout pmmPlan) tables
      (buildMappings tables layout (pagingPlanInit layout pmmPlan) framebuffer
        userImagePages mem) where
  kernelPdpt := by
    intro j hj
    rw [entryAt_buildMappings hPages hBound pmmPlan hImage (by decide) (by decide) (by decide) hj,
      hEmpty _ (by decide) (by decide) j hj, userLinks_eq,
      kernelLinks, if_neg (by simp), if_neg (by simp),
      if_neg (by simp)]
    simp only [lastEntry_nil, lastEntry_same, lastEntry_other,
      ne_eq, reduceCtorEq, not_false_eq_true]
  kernelPd := by
    intro j hj
    rw [entryAt_buildMappings hPages hBound pmmPlan hImage (by decide) (by decide) (by decide) hj,
      hEmpty _ (by decide) (by decide) j hj, userLinks_eq,
      kernelLinks, if_neg (by simp), if_neg (by simp),
      if_neg (by simp)]
    simp only [lastEntry_nil, lastEntry_same, lastEntry_other,
      ne_eq, reduceCtorEq, not_false_eq_true]
  kernelPt := by
    intro j hj
    rw [entryAt_kernelPt framebuffer hPages hBound pmmPlan hImage hj,
      hEmpty _ (by decide) (by decide) j hj]

end Entries

----------
-- Flags

theorem entryPresent_or (hp : PageAligned p) : entryPresent (p ||| f) = f.testBit 0 :=
  testBit_or_flags hp (by decide)

theorem entryUser_or (hp : PageAligned p) : entryUser (p ||| f) = f.testBit 2 :=
  testBit_or_flags hp (by decide)

theorem entryPresent_hugePageEntry (base i : Nat) : entryPresent (hugePageEntry base i) = true := by
  rw [entryPresent, hugePageEntry, Nat.testBit_or]
  simp [hugePageFlags]

theorem entryPresent_kernelPageEntry (layout : MemoryLayout) (i : Nat) :
    entryPresent (kernelPageEntry layout i) = true := by
  rw [entryPresent, kernelPageEntry, Nat.testBit_or]
  simp [tableFlags]

/- The finished tables pass the builder's own checks. -/
theorem checkMappings_ok {tables : BuilderPage → Nat} {image : EmbeddedImageState}
    {framebuffer : FramebufferMapping} (hPages : PageFamily tables)
    (hTables : BuilderTables tables image.userImagePages (directPageCount pmmPlan) mem)
    (hKernel : KernelTables layout (pagingPlanInit layout pmmPlan) tables mem)
    (hImagePages : 0 < image.userImagePages) (hImageLe : image.userImagePages ≤ 2)
    (hImage : image.elf64LoadOk = true) (hFramebuffer : framebuffer.requested = false)
    (hKernelPos : 0 < kernelPageCount layout) (hKernelLe : kernelPageCount layout ≤ 512)
    (hDirect : 0 < directPageCount pmmPlan) :
    (checkMappings tables image framebuffer layout
      (pagingPlanInit layout pmmPlan) true mem).builderOk = true := by
  have hClamp : 0 < clampEntries (kernelPageCount layout) := by
    unfold clampEntries
    split <;> omega
  have hAligned : tablesAreAligned tables = true := by
    rw [tablesAreAligned, List.all_eq_true]
    exact fun b _ => decide_eq_true (hPages.aligned b)
  have hKernelPdpt :=
    hKernel.kernelPdpt _ (pdptIndex_lt (pagingPlanInit layout pmmPlan).kernelVirtualStart)
  have hKernelPd :=
    hKernel.kernelPd _ (pdIndex_lt (pagingPlanInit layout pmmPlan).kernelVirtualStart)
  have hKernelPt := hKernel.kernelPt 0 (by decide)
  rw [if_pos rfl] at hKernelPdpt hKernelPd
  rw [if_pos hClamp] at hKernelPt
  have hPresent : ∀ i < image.userImagePages,
        entryPresent (entryAt mem (tables .userCodePtTable) (0 + i)) = true := by
    intro i hi
    rw [Nat.zero_add, hTables.userCodePt i (by omega),
      if_pos hi, entryPresent_or (hPages.aligned _)]
    rfl
  have hUser : ∀ i < image.userImagePages,
        entryUser (entryAt mem (tables .userCodePtTable) (0 + i)) = true := by
    intro i hi
    rw [Nat.zero_add, hTables.userCodePt i (by omega), if_pos hi, entryUser_or (hPages.aligned _)]
    rfl
  -- the entries the checks read, table by table
  simp only [checkMappings, userCode_indices, userStack_indices,
    hTables.pml4 0 (by decide), hTables.pml4 256 (by decide), hTables.pml4 511 (by decide),
    hTables.identityPdpt 0 (by decide), hTables.identityPdpt 1 (by decide),
    hTables.identityPd 0 (by decide), hTables.identityPd 2 (by decide),
    hTables.directPdpt 0 (by decide), hTables.directPd 0 (by decide), hDirect,
    hTables.userStackPd 511 (by decide), hTables.userStackPt 511 (by decide),
    ↓reduceIte, Nat.reduceEqDiff, zero_ne_one,
    hFramebuffer, hImage, hAligned, hKernelLe,
    pagingPlanInit_identityPml4Index,
    pagingPlanInit_kernelPml4Index,
    pagingPlanInit_directMapPml4Index, Bool.and_eq_true,
    Bool.not_false, Bool.true_or, decide_true, and_true,
    true_and, decide_eq_true_eq, List.all_eq_true,
    List.mem_range, hKernelPdpt, hKernelPd, hKernelPt, entryPresent_or (hPages.aligned _),
    entryUser_or (hPages.aligned _),
    entryPresent_hugePageEntry, entryPresent_kernelPageEntry,
    show userTableFlags.testBit 0 = true from rfl,
    show userTableFlags.testBit 2 = true from rfl,
    show tableFlags.testBit 0 = true from rfl,
    show userStackFlags.testBit 0 = true from rfl,
    show userStackFlags.testBit 2 = true from rfl]
  exact ⟨⟨Nat.ne_of_gt hImagePages, hPresent⟩, hUser⟩

----------
-- Runs

theorem clearPage_foldl {pages : List Nat} {x : Nat}
    (hx : mem x = 0 ∨ ∃ p ∈ pages, p ≤ x ∧ x < p + 4096) :
    pages.foldl clearPage mem x = 0 := by
  induction pages generalizing mem with
  | nil => simpa using hx
  | cons page pages ih =>
    rw [List.foldl_cons]
    apply ih
    rw [clearPage, clearBytes_apply]
    rcases hx with hZero | ⟨p, hp, hRange⟩
    · left
      split
      · rfl
      · exact hZero
    · rcases List.mem_cons.mp hp with rfl | hRest
      · exact Or.inl (if_pos hRange)
      · exact Or.inr ⟨p, hRest, hRange⟩

/- The builder succeeds on sixteen pages it can reach. -/
theorem pagingBuilderInit_succeeds {boot : BootSummary} {userImage : UserImage} (mem : ByteMemory)
    (hPlan : (pagingPlanInit layout pmmPlan).planOk = true) (hInit : pmm.initialized = true)
    (hStack : pmm.stack = taken ++ rest) (hLength : taken.length = 16)
    (hTaken : ∀ p ∈ taken, p ≠ 0 ∧ p < 1073741824 ∧ PageAligned p) (hNodup : taken.Nodup)
    (hKernelPos : 0 < kernelPageCount layout) (hKernelLe : kernelPageCount layout ≤ 512)
    (hFramebuffer : boot.framebufferRgbFormatOk = false)
    (hImage : ∀ codePages stack mem,
        (loadEmbeddedUserImage userImage codePages stack mem).1.elf64LoadOk = true) :
    ∃ state mem', pagingBuilderInit layout (pagingPlanInit layout pmmPlan) boot userImage pmm mem =
        some (state, { pmm with stack := rest }, mem') ∧
      state.builderOk = true ∧
      state.tables = builderTables taken := by
  have hRun :=
    allocatePages_run [] mem hInit hStack fun p hp => ⟨(hTaken p hp).1, (hTaken p hp).2.1⟩
  rw [hLength, List.nil_append] at hRun
  have hMember := fun b => builderTables_mem hLength b
  have hAligned : tablesAreAligned (builderTables taken) = true := by
    rw [tablesAreAligned, List.all_eq_true]
    exact fun b _ =>
      decide_eq_true (hTaken _ (hMember b)).2.2
  have hPages := pageFamily_builderTables hLength hNodup hAligned
  have hBound : ∀ b, builderTables taken b < 1073741824 := fun b => (hTaken _ (hMember b)).2.1
  have hCleared : ∀ b, ∀ i < 4096, taken.foldl clearPage mem (builderTables taken b + i) = 0 :=
    fun b i hi =>
      clearPage_foldl (Or.inr ⟨_, hMember b, by omega⟩)
  generalize taken.foldl clearPage mem = cleared at hRun hCleared
  have hLoaded :=
    loadEmbeddedUserImage_onlyPages userImage (builderTables taken .userStackPage) cleared
      fun i => hPages.aligned (BuilderPage.userCodePages i)
  have hPageCount := userImagePages_bounds userImage (builderTables taken .userStackPage) cleared
      fun i => builderTables taken (BuilderPage.userCodePages i)
  have hOk := hImage (fun i => builderTables taken (BuilderPage.userCodePages i))
      (builderTables taken .userStackPage) cleared
  have hEmpty := fun b hCode0 hCode1 j hj =>
      entryAt_loaded hPages hCleared hLoaded (b := b) hCode0 hCode1 (j := j) hj
  generalize hImageState : loadEmbeddedUserImage userImage
        (fun i =>
          builderTables taken (BuilderPage.userCodePages i))
        (builderTables taken .userStackPage) cleared = loaded
    at hPageCount hOk hEmpty
  refine ⟨checkMappings (builderTables taken) loaded.1 (framebufferMapping boot) layout
      (pagingPlanInit layout pmmPlan) true (buildMappings (builderTables taken) layout
        (pagingPlanInit layout pmmPlan) (framebufferMapping boot) loaded.1.userImagePages loaded.2),
    buildMappings (builderTables taken) layout
      (pagingPlanInit layout pmmPlan) (framebufferMapping boot)
      loaded.1.userImagePages loaded.2, ?_, ?_, rfl⟩
  · have hFull : ¬ taken.length < 16 := by omega
    simp only [pagingBuilderInit, show allocatedPageCount = 16 from rfl, hRun]
    rw [if_neg hFull, hImageState, decide_eq_true hLength]
  · apply checkMappings_ok hPages
      (buildMappings_tables _ _ hPages hBound pmmPlan hPageCount.1 hEmpty)
      (buildMappings_kernelTables _ hPages hBound pmmPlan hPageCount.1 hEmpty)
      (hPageCount.2 hOk) hPageCount.1 hOk _ hKernelPos
      hKernelLe
      (by rw [directPageCount_of_planOk hPlan]; decide)
    rw [framebufferMapping, hFramebuffer]
    rfl

----------
-- A Program That Loads

/- An executable with one segment of one cleared byte. -/
def tinyImage : UserImage where
  bytes := fun a =>
    [0x7F, 0x45, 0x4C, 0x46, 2, 1, 1, 0, 0, 0, 0, 0, 0, 0, 0, 0,
      2, 0, 0x3E, 0, 1, 0, 0, 0, 0, 0, 0x40, 0, 0, 0, 0, 0,
      64, 0, 0, 0, 0, 0, 0, 0, 0, 0, 0, 0, 0, 0, 0, 0,
      0, 0, 0, 0, 64, 0, 56, 0, 1, 0, 0, 0, 0, 0, 0, 0,
      1, 0, 0, 0, 5, 0, 0, 0, 0, 0, 0, 0, 0, 0, 0, 0,
      0, 0, 0x40, 0, 0, 0, 0, 0, 0, 0, 0, 0, 0, 0, 0, 0,
      0, 0, 0, 0, 0, 0, 0, 0, 1, 0, 0, 0, 0, 0, 0, 0,
      0, 16, 0, 0, 0, 0, 0, 0].getD a 0
  size := 120

def tinyHeader : ElfProgramHeader := ⟨1, 5, 0, 0x400000, 0, 1, 4096⟩

theorem checkImage_tinyImage : checkImage tinyImage =
      (⟨true, true, true, true, true, true, 0, 0, 0, false, false, false⟩, some tinyHeader) := by
  decide +kernel

theorem tinyImage_loads (codePages : Nat → Nat) (stack : Nat) (mem : ByteMemory) :
    (loadEmbeddedUserImage tinyImage codePages stack mem).1.elf64LoadOk = true := by
  rw [loadEmbeddedUserImage, checkImage_tinyImage]
  simp [segmentAccepted, finishImage, recordSegment, pageLoaded, tinyHeader]

end LiamOS.X64
