import LiamOS.X64.PagingBuilder

/-
  What the tables of the paging builder hold once it has reported success.

  The claims about address spaces only use `BuilderTables`, the entries of every table that an
  address below the kernel's own half or in the direct map can reach.

  Key definitions: `BuilderTables`, `BuiltTables`, `MappingRun`.
-/

namespace LiamOS.X64

open Word PageTable

variable {allocated : List Nat} {b : BuilderPage} {userImagePages : Nat}

----------
-- Allocation

/-
  The pages taken come from the top of the stack, lie in the window of the boot tables and are
  cleared. Clearing a page leaves cleared bytes cleared.
-/
theorem allocatePages_spec {n : Nat} {allocated' : List Nat} {pmm pmm' : Pmm}
    {mem mem' : ByteMemory}
    (hRun : allocatePages n allocated pmm mem = some (allocated', pmm', mem')) :
    ∃ taken, allocated' = allocated ++ taken ∧ taken.length ≤ n ∧
        (taken.length = n → pmm.stack = taken ++ pmm'.stack) ∧
        (∀ p ∈ taken, p ≠ 0 ∧ p < 1073741824) ∧
        (∀ x, mem x = 0 → mem' x = 0) ∧
        ∀ p ∈ taken, ∀ i < 4096, mem' (p + i) = 0 := by
  induction n generalizing allocated pmm mem with
  | zero =>
    simp only [allocatePages, Option.some.injEq, Prod.mk.injEq] at hRun
    obtain ⟨rfl, rfl, rfl⟩ := hRun
    exact ⟨[], by simp⟩
  | succ n ih =>
    simp only [allocatePages] at hRun
    by_cases hInvalid : (pmmAllocPage pmm).1 = pmmInvalidPage
    · rw [if_pos hInvalid] at hRun
      simp only [Option.some.injEq, Prod.mk.injEq] at hRun
      obtain ⟨rfl, rfl, rfl⟩ := hRun
      exact ⟨[], by simp⟩
    · rw [if_neg hInvalid] at hRun
      by_cases hWindow : (pmmAllocPage pmm).1 < MemoryLayout.bootstrapIdentityMapBytes
      · rw [if_pos hWindow] at hRun
        obtain ⟨taken, rfl, hLength, hStack, hBound, hZero, hCleared⟩ := ih hRun
        have hTop := (pmmAllocPage_spec pmm).1 hInvalid
        have hClear := clearBytes_apply mem (pmmAllocPage pmm).1 4096
        refine ⟨(pmmAllocPage pmm).1 :: taken, by simp, ?_, ?_, ?_, ?_, ?_⟩
        · simpa using hLength
        · intro hFull
          rw [hTop, hStack (by simpa using hFull)]
          rfl
        · intro p hp
          rcases List.mem_cons.mp hp with rfl | hOld
          · exact ⟨hInvalid, hWindow⟩
          · exact hBound p hOld
        · intro x hx
          apply hZero
          rw [clearPage, hClear]
          split
          · rfl
          · exact hx
        · intro p hp i hi
          rcases List.mem_cons.mp hp with rfl | hOld
          · apply hZero
            rw [clearPage, hClear, if_pos (by omega)]
          · exact hCleared p hOld i hi
      · rw [if_neg hWindow] at hRun
        exact absurd hRun (by simp)

theorem BuilderPage.index_lt (b : BuilderPage) : b.index < 16 := by
  cases b <;> decide

theorem BuilderPage.index_injective : Function.Injective BuilderPage.index := by
  intro a b hab
  cases a <;> cases b <;> first | rfl | exact absurd hab (by decide)

theorem mem_allBuilderPages (b : BuilderPage) : b ∈ allBuilderPages := by
  cases b <;> decide

/- Tables are empty until the builder writes them. -/
theorem entryAt_loaded {tables : BuilderPage → Nat} (hPages : PageFamily tables)
    {mem mem' : ByteMemory} (hCleared : ∀ b, ∀ i < 4096, mem (tables b + i) = 0)
    (hLoaded : OnlyPages [tables .userCodePage0, tables .userCodePage1] mem mem')
    (hCode0 : b ≠ .userCodePage0) (hCode1 : b ≠ .userCodePage1) {j : Nat} (hj : j < 512) :
    entryAt mem' (tables b) j = 0 := by
  rw [hLoaded.entryAt_eq (hPages.aligned b) _ hj]
  · apply readLE_zero
    intro x hLow hHigh
    obtain ⟨i, rfl⟩ := Nat.exists_eq_add_of_le hLow
    rw [Nat.add_assoc]
    exact hCleared b _ (by omega)
  · intro hMem
    simp only [List.mem_cons, List.not_mem_nil, or_false] at hMem
    rcases hMem with hEq | hEq
    · exact hCode0 (hPages.injective hEq)
    · exact hCode1 (hPages.injective hEq)

theorem builderTables_mem (hLength : allocated.length = 16) (b : BuilderPage) :
    builderTables allocated b ∈ allocated := by
  have hIndex : b.index < allocated.length := by
    rw [hLength]
    exact b.index_lt
  rw [builderTables, List.getD_eq_getElem _ _ hIndex]
  exact List.getElem_mem hIndex

theorem pageFamily_builderTables (hLength : allocated.length = 16) (hNodup : allocated.Nodup)
    (hAligned : tablesAreAligned (builderTables allocated) = true) :
    PageFamily (builderTables allocated) where
  injective := by
    intro a b hab
    have ha : a.index < allocated.length := by
      rw [hLength]
      exact a.index_lt
    have hb : b.index < allocated.length := by
      rw [hLength]
      exact b.index_lt
    rw [builderTables, builderTables, List.getD_eq_getElem _ _ ha,
      List.getD_eq_getElem _ _ hb] at hab
    exact BuilderPage.index_injective ((hNodup.getElem_inj_iff).mp hab)
  aligned := by
    intro b
    have hAll := List.all_eq_true.mp hAligned b (mem_allBuilderPages b)
    exact of_decide_eq_true hAll

----------
-- Entries

/- The finished tables, entry by entry. -/
structure BuilderTables (tables : BuilderPage → Nat) (userImagePages directPages : Nat)
    (mem : ByteMemory) : Prop where
  pml4 : ∀ j < 512, entryAt mem (tables .pml4Table) j = if j = 511 then
        tables .kernelPdptTable ||| tableFlags
      else if j = 288 then
        tables .framebufferPdptTable ||| tableFlags
      else if j = 256 then
        tables .directPdptTable ||| tableFlags
      else if j = 0 then tables .identityPdptTable ||| userTableFlags else 0
  identityPdpt : ∀ j < 512, entryAt mem (tables .identityPdptTable) j = if j = 1 then
        tables .userStackPdTable ||| userTableFlags
      else if j = 0 then tables .identityPdTable ||| userTableFlags else 0
  identityPd : ∀ j < 512, entryAt mem (tables .identityPdTable) j = if j = 2 then
        tables .userCodePtTable ||| userTableFlags
      else
        hugePageEntry 0 j
  directPdpt : ∀ j < 512, entryAt mem (tables .directPdptTable) j = if j = 0 then
        tables .directPdTable ||| tableFlags
      else
        0
  directPd : ∀ j < 512, entryAt mem (tables .directPdTable) j =
      if j < directPages then hugePageEntry 0 j else 0
  userCodePt : ∀ j < 512, entryAt mem (tables .userCodePtTable) j = if j < userImagePages then
        tables (BuilderPage.userCodePages j) ||| userCodeFlags
      else
        0
  userStackPd : ∀ j < 512, entryAt mem (tables .userStackPdTable) j = if j = 511 then
        tables .userStackPtTable ||| userTableFlags
      else
        0
  userStackPt : ∀ j < 512, entryAt mem (tables .userStackPtTable) j = if j = 511 then
        tables .userStackPage ||| userStackFlags
      else
        0

section Entries

variable {tables : BuilderPage → Nat}
variable {mem : ByteMemory}
variable {layout : MemoryLayout}
variable {framebuffer : FramebufferMapping}
variable {j : Nat}

theorem hugePageEntry_lt (base i : Nat) : hugePageEntry base i < 18446744073709551616 :=
  Nat.or_lt_two_pow (n := 64) (u64_lt _) (by decide)

theorem hugePageEntry_zero {i : Nat} (hi : i < 512) :
    hugePageEntry 0 i = i * 2097152 ||| hugePageFlags := by
  rw [hugePageEntry, u64_of_lt (by omega), Nat.zero_add]

theorem clampEntries_le (count : Nat) : clampEntries count ≤ 512 := by
  unfold clampEntries
  split <;> omega

/- The framebuffer's writes stay in its own two tables. -/
theorem entryAt_mapFramebuffer (hPages : PageFamily tables) (hBound : ∀ b, tables b < 1073741824)
    (hPdpt : b ≠ .framebufferPdptTable) (hPd : b ≠ .framebufferPdTable) (hj : j < 512) :
    entryAt (mapFramebuffer tables framebuffer mem) (tables b) j = entryAt mem (tables b) j := by
  have hSmall := hBound .framebufferPdTable
  have hAligned := hPages.aligned .framebufferPdTable
  rw [mapFramebuffer]
  split
  · next hMapped =>
      have hFit : pdIndex framebufferVirtualBase + framebuffer.hugePages ≤ 512 := by
        simp only [framebufferMappingFits, Bool.and_eq_true, decide_eq_true_eq] at hMapped
        omega
      rw [hPages.entryAt_fillEntries _ _ hFit hj fun i _ => hugePageEntry_lt _ i,
        if_neg fun h => hPd h.1.symm,
        hPages.entryAt_setEntry _ _ (by decide) hj (or_flags_lt hAligned (by omega) (by decide)),
        if_neg fun h => hPdpt h.1.symm]
  · rfl

/- The links only hold table indices and table entries. -/
theorem links_fit (hPages : PageFamily tables) (hBound : ∀ b, tables b < 1073741824)
    (layout : MemoryLayout) (pmmPlan : PmmPlan) :
    ∀ w ∈ kernelLinks tables (pagingPlanInit layout pmmPlan) ++
        userLinks tables (pagingPlanInit layout pmmPlan),
      w.2.1 < 512 ∧ w.2.2 < 18446744073709551616 := by
  have hEntry : ∀ b f, f < 4096 → tables b ||| f < 18446744073709551616 := by
    intro b f hf
    have hb := hBound b
    exact or_flags_lt (hPages.aligned b) (by omega) hf
  simp only [kernelLinks, userLinks, List.cons_append, List.nil_append, List.forall_mem_cons,
    pagingPlanInit_identityPml4Index, pagingPlanInit_kernelPml4Index,
    pagingPlanInit_directMapPml4Index]
  refine ⟨⟨by decide, hEntry _ _ (by decide)⟩, ⟨by decide, hEntry _ _ (by decide)⟩,
    ⟨pdptIndex_lt _, hEntry _ _ (by decide)⟩,
    ⟨pdIndex_lt _, hEntry _ _ (by decide)⟩,
    ⟨by decide, hEntry _ _ (by decide)⟩,
    ⟨by decide, hEntry _ _ (by decide)⟩,
    ⟨by decide, hEntry _ _ (by decide)⟩,
    ⟨by decide, hEntry _ _ (by decide)⟩,
    ⟨by decide, hEntry _ _ (by decide)⟩,
    ⟨by decide, hEntry _ _ (by decide)⟩,
    ⟨by decide, hEntry _ _ (by decide)⟩,
    ⟨by decide, hEntry _ _ (by decide)⟩, ?_⟩
  exact fun w hw => absurd hw (by simp)

theorem userLinks_eq (tables : BuilderPage → Nat) (layout : MemoryLayout) (pmmPlan : PmmPlan) :
    userLinks tables (pagingPlanInit layout pmmPlan) =
      [(.identityPdTable, 2, tables .userCodePtTable ||| userTableFlags),
        (.userStackPtTable, 511, tables .userStackPage ||| userStackFlags),
        (.userStackPdTable, 511, tables .userStackPtTable ||| userTableFlags),
        (.identityPdptTable, 1, tables .userStackPdTable ||| userTableFlags),
        (.pml4Table, 0, tables .identityPdptTable ||| userTableFlags),
        (.pml4Table, 256, tables .directPdptTable ||| tableFlags),
        (.pml4Table, 288, tables .framebufferPdptTable ||| tableFlags),
        (.pml4Table, 511, tables .kernelPdptTable ||| tableFlags)] := rfl

/- The kernel pages fill one table. -/
theorem entryAt_mapKernelPages (hPages : PageFamily tables) (hKernel : b ≠ .kernelPtTable)
    (hj : j < 512) :
    entryAt (mapKernelPages tables layout mem) (tables b) j = entryAt mem (tables b) j := by
  have hFit : 0 + clampEntries (kernelPageCount layout) ≤ 512 := by
    have hClamp := clampEntries_le (kernelPageCount layout)
    omega
  rw [mapKernelPages, hPages.entryAt_fillEntries .kernelPtTable b hFit hj
      fun i _ => Nat.or_lt_two_pow (n := 64) (u64_lt _) (by decide),
    if_neg fun h => hKernel h.1.symm]

/- The user code pages stand at the start of their table. -/
theorem entryAt_mapUserCode (hPages : PageFamily tables) (hBound : ∀ b, tables b < 1073741824)
    (hImage : userImagePages ≤ 2) (b : BuilderPage) (hj : j < 512) :
    entryAt (mapUserCode tables userImagePages mem) (tables b) j =
      if .userCodePtTable = b ∧ j < userImagePages then
        tables (BuilderPage.userCodePages j) ||| userCodeFlags
      else
        entryAt mem (tables b) j := by
  have hEntry :
      ∀ i, tables (BuilderPage.userCodePages i) ||| userCodeFlags < 18446744073709551616 := by
    intro i
    have hb := hBound (BuilderPage.userCodePages i)
    exact or_flags_lt (hPages.aligned _) (by omega) (by decide)
  rw [mapUserCode, userCode_indices.2.2.2,
    hPages.entryAt_fillEntries .userCodePtTable b (by omega) hj fun i _ => hEntry i]
  simp only [Nat.zero_le, true_and, Nat.zero_add, Nat.sub_zero]

def directPageCount (pmmPlan : PmmPlan) : Nat :=
  clampEntries (hugePageCountFor (plannedDirectMapBytes pmmPlan))

/- The identity window and the direct map fill one table each. -/
theorem entryAt_windows (hPages : PageFamily tables) (layout : MemoryLayout) (pmmPlan : PmmPlan)
    (b : BuilderPage) (hj : j < 512) :
    entryAt
        (mapDirectMap tables (pagingPlanInit layout pmmPlan)
          (mapIdentityWindow tables (pagingPlanInit layout pmmPlan) mem))
        (tables b) j =
      if .directPdTable = b ∧ j < directPageCount pmmPlan then
        hugePageEntry 0 j
      else if .identityPdTable = b then
        hugePageEntry 0 j
      else
        entryAt mem (tables b) j := by
  have hDirect : clampEntries (hugePageCountFor (pagingPlanInit layout pmmPlan).directMapBytes) =
        directPageCount pmmPlan := rfl
  have hFit : 0 + directPageCount pmmPlan ≤ 512 := by
    have hClamp := clampEntries_le (hugePageCountFor (plannedDirectMapBytes pmmPlan))
    rw [directPageCount]
    omega
  have hIdentity :
      clampEntries (hugePageCountFor (pagingPlanInit layout pmmPlan).identityWindowBytes) =
        512 := by
    rw [pagingPlanInit_identityWindowBytes]
    decide
  rw [mapDirectMap, hDirect, hPages.entryAt_fillEntries _ _ hFit hj fun i _ => hugePageEntry_lt _ i,
    mapIdentityWindow, hIdentity,
    hPages.entryAt_fillEntries _ _ (by omega) hj fun i _ => hugePageEntry_lt _ i,
    Nat.sub_zero]
  simp only [Nat.zero_le, true_and, Nat.zero_add, hj, and_true]

/-
  An entry after all writes: the links of the user part, the user code pages, the links of the
  kernel part and the two windows, the last of them first.
-/
theorem entryAt_buildMappings (hPages : PageFamily tables) (hBound : ∀ b, tables b < 1073741824)
    (pmmPlan : PmmPlan) (hImage : userImagePages ≤ 2) (hKernel : b ≠ .kernelPtTable)
    (hPdpt : b ≠ .framebufferPdptTable) (hPd : b ≠ .framebufferPdTable) (hj : j < 512) :
    entryAt
        (buildMappings tables layout (pagingPlanInit layout pmmPlan) framebuffer userImagePages mem)
        (tables b) j =
      lastEntry b j (userLinks tables (pagingPlanInit layout pmmPlan))
        (if .userCodePtTable = b ∧ j < userImagePages then
          tables (BuilderPage.userCodePages j) ||| userCodeFlags
        else
          lastEntry b j (kernelLinks tables (pagingPlanInit layout pmmPlan))
            (if .directPdTable = b ∧ j < directPageCount pmmPlan then
              hugePageEntry 0 j
            else if .identityPdTable = b then
              hugePageEntry 0 j
            else
              entryAt mem (tables b) j)) := by
  have hLinks := links_fit hPages hBound layout pmmPlan
  rw [buildMappings, hPages.entryAt_writeEntries b hj fun w hw =>
      hLinks w (List.mem_append_right _ hw), entryAt_mapUserCode hPages hBound hImage b hj,
    hPages.entryAt_writeEntries b hj fun w hw =>
      hLinks w (List.mem_append_left _ hw), entryAt_mapKernelPages hPages hKernel hj,
    entryAt_mapFramebuffer hPages hBound hPdpt hPd hj, entryAt_windows hPages layout pmmPlan b hj]

/- The tables, provided they were empty before. -/
theorem buildMappings_tables (layout : MemoryLayout) (framebuffer : FramebufferMapping)
    (hPages : PageFamily tables) (hBound : ∀ b, tables b < 1073741824) (pmmPlan : PmmPlan)
    (hImage : userImagePages ≤ 2)
    (hEmpty :
      ∀ b, b ≠ .userCodePage0 → b ≠ .userCodePage1 → ∀ j < 512, entryAt mem (tables b) j = 0) :
    BuilderTables tables userImagePages (directPageCount pmmPlan)
      (buildMappings tables layout (pagingPlanInit layout pmmPlan) framebuffer
        userImagePages mem) := by
  -- The conditions are rewritten, not computed: the kernel
  -- would unfold the products in the entries.
  have hUser := userLinks_eq tables layout pmmPlan
  constructor <;> intro j hj <;>
    rw [entryAt_buildMappings hPages hBound pmmPlan hImage (by decide) (by decide) (by decide) hj,
      hEmpty _ (by decide) (by decide) j hj, hUser, kernelLinks]
  case identityPd =>
    rw [if_neg (by simp), if_neg (by simp), if_pos rfl]
    simp only [lastEntry_nil, lastEntry_same, lastEntry_other,
      ne_eq, reduceCtorEq, not_false_eq_true]
  case directPd =>
    rw [if_neg (by simp)]
    simp only [lastEntry_nil, lastEntry_other, ne_eq,
      reduceCtorEq, not_false_eq_true, true_and, if_false]
  case userCodePt =>
    simp only [lastEntry_nil, lastEntry_other, ne_eq,
      reduceCtorEq, not_false_eq_true, true_and, false_and,
      if_false]
  all_goals
    rw [if_neg (by simp), if_neg (by simp), if_neg (by simp)]
    simp only [lastEntry_nil, lastEntry_same, lastEntry_other,
      ne_eq, reduceCtorEq, not_false_eq_true]

end Entries

----------
-- Successful Runs

/- What holds of a state the builder reports as good. -/
structure BuiltTables (state : BuilderState) (mem : ByteMemory) : Prop where
  pages : PageFamily state.tables
  nonzero : ∀ b, state.tables b ≠ 0
  bound : ∀ b, state.tables b < 1073741824
  imagePages_pos : 0 < state.image.userImagePages
  imagePages_le : state.image.userImagePages ≤ 2
  entries : BuilderTables state.tables state.image.userImagePages state.directHugePages mem

theorem allBuilderPages_index : allBuilderPages.map BuilderPage.index = List.range 16 := by
  decide

theorem map_builderTables (hLength : allocated.length = 16) :
    allBuilderPages.map (builderTables allocated) = allocated := by
  have hRange : allBuilderPages.map (builderTables allocated) =
        (List.range 16).map fun k => allocated.getD k 0 := by
    rw [← allBuilderPages_index, List.map_map]
    rfl
  rw [hRange]
  apply List.ext_getElem
  · rw [List.length_map, List.length_range, hLength]
  · intro i hi hAllocated
    rw [List.getElem_map, List.getElem_range, List.getD_eq_getElem _ _ hAllocated]

variable {layout : MemoryLayout} {pmmPlan : PmmPlan}
variable {boot : BootSummary} {userImage : UserImage}
variable {pmm pmm' : Pmm} {mem mem' : ByteMemory}
variable {state : BuilderState}

/-
  A run that ends in a good state: the pages it took, the memory behind the loading of the
  program, in which the tables are still empty, and the mappings made from there.
-/
structure MappingRun (layout : MemoryLayout) (plan : PagingPlan) (boot : BootSummary)
    (stack : List Nat) (state : BuilderState) (stack' : List Nat)
    (loaded mem : ByteMemory) : Prop where
  pages : PageFamily state.tables
  nonzero : ∀ b, state.tables b ≠ 0
  bound : ∀ b, state.tables b < 1073741824
  imagePages_pos : 0 < state.image.userImagePages
  imagePages_le : state.image.userImagePages ≤ 2
  taken : stack = allBuilderPages.map state.tables ++ stack'
  empty :
    ∀ b, b ≠ .userCodePage0 → b ≠ .userCodePage1 → ∀ j < 512, entryAt loaded (state.tables b) j = 0
  mapped : mem =
      buildMappings state.tables layout plan (framebufferMapping boot) state.image.userImagePages
        loaded
  checked :
    state = checkMappings state.tables state.image (framebufferMapping boot) layout plan true mem

theorem pagingBuilderInit_run {plan : PagingPlan}
    (hRun : pagingBuilderInit layout plan boot userImage pmm mem = some (state, pmm', mem'))
    (hOk : state.builderOk = true) (hNodup : pmm.stack.Nodup) :
    ∃ loaded, MappingRun layout plan boot pmm.stack state pmm'.stack loaded mem' := by
  simp only [pagingBuilderInit] at hRun
  split at hRun
  · exact absurd hRun (by simp)
  · next allocated pmm₁ mem₁ hAllocate =>
      obtain ⟨taken, hTaken, hLe, hStack, hBound, -, hCleared⟩ := allocatePages_spec hAllocate
      rw [List.nil_append] at hTaken
      subst hTaken
      split at hRun
      · -- Without all its pages the builder reports nothing.
        simp only [Option.some.injEq, Prod.mk.injEq] at hRun
        rw [← hRun.1] at hOk
        exact absurd hOk (by simp [clearedBuilderState])
      · next hFull =>
          have hLength : allocated.length = 16 := Nat.le_antisymm hLe (Nat.not_lt.mp hFull)
          simp only [Option.some.injEq, Prod.mk.injEq] at hRun
          obtain ⟨hState, hPmm, hMem⟩ := hRun
          rw [hLength, decide_eq_true (show 16 = allocatedPageCount from rfl)] at hState
          have hSplit := hStack hLength
          rw [hSplit] at hNodup
          have hFlags := hOk
          rw [← hState] at hFlags
          simp only [checkMappings, Bool.and_eq_true] at hFlags
          have hPages := pageFamily_builderTables hLength (List.nodup_append.mp hNodup).1 hFlags.2
          have hLoaded :=
            loadEmbeddedUserImage_onlyPages userImage (builderTables allocated .userStackPage) mem₁
              (fun i => hPages.aligned (BuilderPage.userCodePages i))
          have hImage :=
            userImagePages_bounds userImage (builderTables allocated .userStackPage) mem₁
              (fun i => builderTables allocated (BuilderPage.userCodePages i))
          subst hPmm hMem hState
          refine ⟨_, hPages, fun b => (hBound _ (builderTables_mem hLength b)).1,
            fun b => (hBound _ (builderTables_mem hLength b)).2,
            hImage.2 hFlags.1.2.2, hImage.1, ?_, ?_, rfl, rfl⟩
          · rw [hSplit]
            exact congrArg (· ++ _) (map_builderTables hLength).symm
          · intro b hCode0 hCode1 j hj
            exact entryAt_loaded hPages (fun b => hCleared _ (builderTables_mem hLength b))
              hLoaded hCode0 hCode1 hj

/-
  A good state comes with the tables in memory, and its pages are the ones taken from the page
  manager.
-/
theorem pagingBuilderInit_built
    (hRun : pagingBuilderInit layout (pagingPlanInit layout pmmPlan)
        boot userImage pmm mem = some (state, pmm', mem'))
    (hOk : state.builderOk = true)
    (hNodup : pmm.stack.Nodup) :
    BuiltTables state mem' ∧ pmm.stack = allBuilderPages.map state.tables ++ pmm'.stack ∧
      state.directHugePages = directPageCount pmmPlan := by
  obtain ⟨loaded, hMapping⟩ := pagingBuilderInit_run hRun hOk hNodup
  have hDirect : state.directHugePages = directPageCount pmmPlan := by
    rw [hMapping.checked]
    rfl
  have hEntries :=
    buildMappings_tables layout (framebufferMapping boot) hMapping.pages hMapping.bound pmmPlan
      hMapping.imagePages_le hMapping.empty
  rw [← hMapping.mapped, ← hDirect] at hEntries
  exact ⟨⟨hMapping.pages, hMapping.nonzero, hMapping.bound,
    hMapping.imagePages_pos, hMapping.imagePages_le, hEntries⟩, hMapping.taken, hDirect⟩

/- An accepted plan fills the table of the direct map. -/
theorem directPageCount_of_planOk (hPlan : (pagingPlanInit layout pmmPlan).planOk = true) :
    directPageCount pmmPlan = 512 := by
  have hBytes := directMapBytes_bounds hPlan
  rw [directPageCount, clampEntries, hugePageCountFor]
  unfold u32 u64
  split <;> omega

end LiamOS.X64
