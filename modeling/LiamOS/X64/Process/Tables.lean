import LiamOS.X64.AddressSpace
import LiamOS.X64.BuilderSuccess
import LiamOS.X64.Process.Model

/-
  The page tables of a process: what cloning the kernel mappings and building the user tables
  leave in memory, and that the kernel's own validation accepts it.

  Key definitions: `processSpace`, `SpaceFits`, `Prepared`, `KernelCloned`, `KernelTablesPresent`.
-/

namespace LiamOS.X64

open Word PageTable

variable {f j page : Nat} {mem' : ByteMemory} {pages : List Nat} {codeWritable : Nat → Bool}

----------
-- Address Space Of A Process

theorem mem_addressSpacePages (p : SpacePage) : p ∈ addressSpacePages := by
  cases p with
  | userCodePages i => fin_cases i <;> decide
  | _ => decide

theorem nodup_addressSpacePages : addressSpacePages.Nodup := by
  decide

def processSpace (process : Process) (codeWritable : Nat → Bool) : AddressSpace where
  pml4 := process.pages .cr3
  pdpt := process.pages .userPdptPage
  pd := process.pages .userCodePdPage
  codePt := process.pages .userCodePtPage
  stackPd := process.pages .userStackPdPage
  stackPt := process.pages .userStackPtPage
  stackPage := process.pages .userStackPage
  codePages := process.codePageAt
  pageCount := process.userCodePageCount
  codeWritable := codeWritable

/- The pages of an address space next to the builder's. -/
structure SpaceFits (builder : BuilderState) (pages : SpacePage → Nat) : Prop where
  family : PageFamily pages
  nonzero : ∀ p, pages p ≠ 0
  bound : ∀ p, pages p < 18446744073709551616
  apart : ∀ b p, builder.tables b ≠ pages p

/- The tables of a process where `build_user_page_tables` does not write. -/
structure Prepared (builder : BuilderState) (pages : SpacePage → Nat)
    (mem : ByteMemory) : Prop where
  cr3 : ∀ j < 512, j ≠ 0 → entryAt mem (pages .cr3) j = entryAt mem (builder.tables .pml4Table) j
  pdpt : ∀ j < 512, j ≠ 0 → j ≠ 1 → entryAt mem (pages .userPdptPage) j = 0
  codePd : ∀ j < 512, j ≠ 2 → entryAt mem (pages .userCodePdPage) j = hugePageEntry 0 j
  codePt : ∀ j < 512, j ≠ 0 → entryAt mem (pages .userCodePtPage) j = 0
  stackPd : ∀ j < 512, j ≠ 511 → entryAt mem (pages .userStackPdPage) j = 0
  stackPt : ∀ j < 512, j ≠ 511 → entryAt mem (pages .userStackPtPage) j = 0

----------
-- Writing The Tables

section Write

variable {builder : BuilderState}
variable {process : Process}
variable {mem : ByteMemory}

/- The fields `allocate_address_space` has set. -/
structure SpaceOpened (process : Process) : Prop where
  code : process.userCodeVirtual = userCodeBase
  stack : process.userStackVirtual = userStackVirtual
  count_pos : 0 < process.userCodePageCount
  count_le : process.userCodePageCount ≤ 4

theorem processLinks_eq (hOpened : SpaceOpened process) : processLinks process =
      [(.cr3, 0, process.pages .userPdptPage ||| userTableFlags),
        (.userPdptPage, 0, process.pages .userCodePdPage ||| userTableFlags),
        (.userPdptPage, 1, process.pages .userStackPdPage ||| userTableFlags),
        (.userCodePdPage, 2, process.pages .userCodePtPage ||| userTableFlags),
        (.userStackPdPage, 511, process.pages .userStackPtPage ||| userTableFlags)] := by
  rw [processLinks, hOpened.code, hOpened.stack]
  rfl

theorem SpaceFits.or_flags_lt (hFits : SpaceFits builder process.pages) (p : SpacePage)
    (hf : f < 4096) :
    process.pages p ||| f < 18446744073709551616 :=
  PageTable.or_flags_lt (hFits.family.aligned p) (hFits.bound p) hf

section

variable (hFits : SpaceFits builder process.pages) (hOpened : SpaceOpened process)
include hFits hOpened

theorem processLinks_fit :
    ∀ w ∈ processLinks process, w.2.1 < 512 ∧ w.2.2 < 18446744073709551616 := by
  have hEntry := fun p => hFits.or_flags_lt p (show userTableFlags < 4096 by decide)
  rw [processLinks_eq hOpened]
  simp only [List.forall_mem_cons]
  refine ⟨⟨by decide, hEntry _⟩, ⟨by decide, hEntry _⟩,
    ⟨by decide, hEntry _⟩, ⟨by decide, hEntry _⟩,
    ⟨by decide, hEntry _⟩, ?_⟩
  exact fun w hw => absurd hw (by simp)

/- An entry of the process after its tables are written. -/
theorem entryAt_writeUserPageTables
    (hFlags : ∀ i < process.userCodePageCount, process.codeFlagsAt i < 4096) (p : SpacePage)
    {j : Nat} (hj : j < 512) :
    entryAt (writeUserPageTables process mem) (process.pages p) j =
      if .userStackPtPage = p ∧ j = 511 then
        process.pages .userStackPage ||| userStackFlags
      else if .userCodePtPage = p ∧ j < process.userCodePageCount then
        process.codePageAt j ||| process.codeFlagsAt j
      else
        lastEntry p j (processLinks process) (entryAt mem (process.pages p) j) := by
  have hCount := hOpened.count_le
  have hStack : ptIndex process.userStackVirtual = 511 := by
    rw [hOpened.stack]
    decide
  have hCode : ptIndex process.userCodeVirtual = 0 := by
    rw [hOpened.code]
    decide
  have hPage : ∀ i < process.userCodePageCount,
        process.codePageAt i ||| process.codeFlagsAt i < 18446744073709551616 :=
    fun i hi => hFits.or_flags_lt _ (hFlags i hi)
  rw [writeUserPageTables, hStack, hCode,
    hFits.family.entryAt_setEntry _ _ (by decide) hj (hFits.or_flags_lt _ (by decide)),
    hFits.family.entryAt_fillEntries _ _ (by omega) hj hPage,
    hFits.family.entryAt_writeEntries p hj (processLinks_fit hFits hOpened)]
  simp only [Nat.zero_le, true_and, Nat.zero_add, Nat.sub_zero]

/- The pages of an address space that hold tables. -/
def tablePages : List SpacePage :=
  [.cr3, .userPdptPage, .userCodePdPage, .userStackPdPage, .userCodePtPage, .userStackPtPage]

theorem onlyPages_tablePages :
    OnlyPages (tablePages.map process.pages) mem (writeUserPageTables process mem) := by
  have hMem : ∀ p ∈ tablePages, process.pages p ∈ tablePages.map process.pages :=
    fun p hp => List.mem_map_of_mem hp
  have hCount := hOpened.count_le
  have hCode : ptIndex process.userCodeVirtual = 0 := by
    rw [hOpened.code]
    decide
  rw [writeUserPageTables]
  apply OnlyPages.trans _
    ((onlyPages_setEntry (hFits.family.aligned _)
      (ptIndex_lt _)).mono (by simpa using hMem .userStackPtPage (by decide)))
  apply OnlyPages.trans _
    ((onlyPages_fillEntries (hFits.family.aligned _)
      (by rw [hCode]; omega)).mono (by simpa using hMem .userCodePtPage (by decide)))
  apply hFits.family.onlyPages_writeEntries
  intro w hw
  refine ⟨(processLinks_fit hFits hOpened w hw).1, hMem _ ?_⟩
  have hTables : ∀ t ∈ (processLinks process).map Prod.fst, t ∈ tablePages := by
    show ∀ t ∈ [SpacePage.cr3, .userPdptPage, .userPdptPage,
      .userCodePdPage, .userStackPdPage], t ∈ tablePages
    decide
  exact hTables _ (List.mem_map_of_mem hw)

theorem onlyPages_writeUserPageTables :
    OnlyPages (addressSpacePages.map process.pages) mem (writeUserPageTables process mem) :=
  (onlyPages_tablePages hFits hOpened).mono (List.map_subset _ (fun p _ => mem_addressSpacePages p))

end

/- The builder's tables are read from their own pages only. -/
theorem BuiltTables.of_agree (hBuilt : BuiltTables builder mem)
    (hAgree : ∀ b x, pageOf x = builder.tables b → mem' x = mem x) :
    BuiltTables builder mem' := by
  have hEntry :
      ∀ b j, j < 512 → entryAt mem' (builder.tables b) j = entryAt mem (builder.tables b) j := by
    intro b j hj
    refine readLE_congr fun x hLow hHigh => hAgree b x ?_
    obtain ⟨i, rfl⟩ := Nat.exists_eq_add_of_le hLow
    rw [Nat.add_assoc, pageOf_add (hBuilt.pages.aligned b) (by omega)]
  refine ⟨hBuilt.pages, hBuilt.nonzero, hBuilt.bound,
    hBuilt.imagePages_pos, hBuilt.imagePages_le, ?_⟩
  constructor <;> intro j hj <;> rw [hEntry _ j hj]
  · exact hBuilt.entries.pml4 j hj
  · exact hBuilt.entries.identityPdpt j hj
  · exact hBuilt.entries.identityPd j hj
  · exact hBuilt.entries.directPdpt j hj
  · exact hBuilt.entries.directPd j hj
  · exact hBuilt.entries.userCodePt j hj
  · exact hBuilt.entries.userStackPd j hj
  · exact hBuilt.entries.userStackPt j hj

/- Writes to its own pages leave the builder's tables. -/
theorem BuiltTables.of_onlyPages (hBuilt : BuiltTables builder mem)
    (hOnly : OnlyPages pages mem mem') (hApart : ∀ b, builder.tables b ∉ pages) :
    BuiltTables builder mem' := by
  refine hBuilt.of_agree fun b x hPage => hOnly x ?_
  rw [hPage]
  exact hApart b

/- The entries of every table of the process, read off from the writes. -/
structure TablesWritten (process : Process) (mem mem' : ByteMemory) : Prop where
  cr3 : ∀ j < 512, entryAt mem' (process.pages .cr3) j = if j = 0 then
      process.pages .userPdptPage ||| userTableFlags
    else
      entryAt mem (process.pages .cr3) j
  pdpt : ∀ j < 512, entryAt mem' (process.pages .userPdptPage) j = if j = 1 then
      process.pages .userStackPdPage ||| userTableFlags
    else if j = 0 then
      process.pages .userCodePdPage ||| userTableFlags
    else
      entryAt mem (process.pages .userPdptPage) j
  codePd : ∀ j < 512, entryAt mem' (process.pages .userCodePdPage) j = if j = 2 then
      process.pages .userCodePtPage ||| userTableFlags
    else
      entryAt mem (process.pages .userCodePdPage) j
  codePt : ∀ j < 512, entryAt mem' (process.pages .userCodePtPage) j =
    if j < process.userCodePageCount then
      process.codePageAt j ||| process.codeFlagsAt j
    else
      entryAt mem (process.pages .userCodePtPage) j
  stackPd : ∀ j < 512, entryAt mem' (process.pages .userStackPdPage) j = if j = 511 then
      process.pages .userStackPtPage ||| userTableFlags
    else
      entryAt mem (process.pages .userStackPdPage) j
  stackPt : ∀ j < 512, entryAt mem' (process.pages .userStackPtPage) j = if j = 511 then
      process.pages .userStackPage ||| userStackFlags
    else
      entryAt mem (process.pages .userStackPtPage) j

theorem tablesWritten (hFits : SpaceFits builder process.pages) (hOpened : SpaceOpened process)
    (hFlags : ∀ i < process.userCodePageCount, process.codeFlagsAt i < 4096) :
    TablesWritten process mem (writeUserPageTables process mem) := by
  have hEntry := fun p j hj =>
      @entryAt_writeUserPageTables builder process mem hFits hOpened hFlags p j hj
  rw [processLinks_eq hOpened] at hEntry
  constructor <;> intro j hj <;> rw [hEntry _ j hj] <;>
    simp only [lastEntry_nil, lastEntry_same, lastEntry_other, ne_eq, reduceCtorEq,
      not_false_eq_true, false_and, true_and, if_false]

theorem codeFlags_lt (writable : Bool) : AddressSpace.codeFlags writable < 4096 := by
  cases writable <;> decide

theorem codeFlagsAt_lt
    (hFlags : ∀ i < process.userCodePageCount,
        process.codeFlagsAt i = AddressSpace.codeFlags (codeWritable i)) :
    ∀ i < process.userCodePageCount, process.codeFlagsAt i < 4096 := by
  intro i hi
  rw [hFlags i hi]
  exact codeFlags_lt _

/- The finished tables are those of an address space. -/
theorem Prepared.inMemory (hPrepared : Prepared builder process.pages mem)
    (hBuilt : BuiltTables builder mem) (hFits : SpaceFits builder process.pages)
    (hOpened : SpaceOpened process)
    (hFlags : ∀ i < process.userCodePageCount,
        process.codeFlagsAt i = AddressSpace.codeFlags (codeWritable i)) :
    (processSpace process codeWritable).InMemory (writeUserPageTables process mem) := by
  have hWritten := @tablesWritten _ _ mem hFits hOpened (codeFlagsAt_lt hFlags)
  constructor
  case pdpt_aligned => exact hFits.family.aligned _
  case pd_aligned => exact hFits.family.aligned _
  case codePt_aligned => exact hFits.family.aligned _
  case stackPd_aligned => exact hFits.family.aligned _
  case stackPt_aligned => exact hFits.family.aligned _
  case stackPage_aligned => exact hFits.family.aligned _
  case codePages_aligned =>
    exact fun i => hFits.family.aligned _
  case pageCount_le => exact le_trans hOpened.count_le (by decide)
  case pml4_low => exact hWritten.cr3 0 (by decide)
  case pml4_rest =>
    intro j hj hNonzero
    have hEntry := hWritten.cr3 j hj
    rw [if_neg hNonzero, hPrepared.cr3 j hj hNonzero] at hEntry
    exact (congrArg entryUser hEntry).trans ((builderSpace_inMemory hBuilt).pml4_rest j hj hNonzero)
  case pdpt =>
    intro j hj
    refine (hWritten.pdpt j hj).trans (ite_congr rfl (fun _ => rfl) ?_)
    intro hStack
    refine ite_congr rfl (fun _ => rfl) ?_
    intro hCode
    exact hPrepared.pdpt j hj hCode hStack
  case pd =>
    intro j hj
    exact (hWritten.codePd j hj).trans (ite_congr rfl (fun _ => rfl) (hPrepared.codePd j hj))
  case codePt =>
    intro j hj
    refine (hWritten.codePt j hj).trans (ite_congr rfl ?_ ?_)
    · intro hMapped
      rw [hFlags j hMapped]
      rfl
    · intro hUnmapped
      exact hPrepared.codePt j hj fun hZero => hUnmapped (hZero ▸ hOpened.count_pos)
  case stackPd =>
    intro j hj
    exact (hWritten.stackPd j hj).trans (ite_congr rfl (fun _ => rfl) (hPrepared.stackPd j hj))
  case stackPt =>
    intro j hj
    exact (hWritten.stackPt j hj).trans (ite_congr rfl (fun _ => rfl) (hPrepared.stackPt j hj))

theorem SpaceFits.not_mem (hFits : SpaceFits builder process.pages) (b : BuilderPage) :
    builder.tables b ∉ addressSpacePages.map process.pages := by
  intro hMem
  obtain ⟨p, -, hp⟩ := List.mem_map.mp hMem
  exact hFits.apart b p hp.symm

section

variable (hPrepared : Prepared builder process.pages mem) (hBuilt : BuiltTables builder mem)
variable (hFits : SpaceFits builder process.pages)
include hPrepared hBuilt hFits

/- The kernel's part of the first table is the builder's. -/
theorem Prepared.kernel_entry (hOpened : SpaceOpened process)
    (hFlags : ∀ i < process.userCodePageCount, process.codeFlagsAt i < 4096) (hj : j < 512)
    (hNonzero : j ≠ 0) :
    entryAt (writeUserPageTables process mem) (process.pages .cr3) j =
      entryAt (writeUserPageTables process mem) (builder.tables .pml4Table) j := by
  have hOnly := @onlyPages_writeUserPageTables builder process mem hFits hOpened
  rw [hOnly.entryAt_eq (hBuilt.pages.aligned _) (hFits.not_mem .pml4Table) hj,
    (tablesWritten hFits hOpened hFlags).cr3 j hj, if_neg hNonzero, hPrepared.cr3 j hj hNonzero]

/- Pages of others leave the prepared tables alone. -/
theorem Prepared.of_onlyPages (hOnly : OnlyPages pages mem mem')
    (hBuilder : builder.tables .pml4Table ∉ pages)
    (hTables : ∀ p ∈ [SpacePage.cr3, .userPdptPage, .userCodePdPage,
        .userCodePtPage, .userStackPdPage, .userStackPtPage], process.pages p ∉ pages) :
    Prepared builder process.pages mem' := by
  have hEntry :
      ∀ p ∈ [SpacePage.cr3, .userPdptPage, .userCodePdPage,
        .userCodePtPage, .userStackPdPage, .userStackPtPage],
        ∀ j < 512, entryAt mem' (process.pages p) j = entryAt mem (process.pages p) j :=
    fun p hp j hj =>
      hOnly.entryAt_eq (hFits.family.aligned p) (hTables p hp) hj
  constructor <;> intro j hj
  · intro hNonzero
    rw [hEntry .cr3 (by decide) j hj, hOnly.entryAt_eq (hBuilt.pages.aligned _) hBuilder hj]
    exact hPrepared.cr3 j hj hNonzero
  · rw [hEntry .userPdptPage (by decide) j hj]
    exact hPrepared.pdpt j hj
  · rw [hEntry .userCodePdPage (by decide) j hj]
    exact hPrepared.codePd j hj
  · rw [hEntry .userCodePtPage (by decide) j hj]
    exact hPrepared.codePt j hj
  · rw [hEntry .userStackPdPage (by decide) j hj]
    exact hPrepared.stackPd j hj
  · rw [hEntry .userStackPtPage (by decide) j hj]
    exact hPrepared.stackPt j hj

/- Tables for one code page can be written again. -/
theorem Prepared.write (hOpened : SpaceOpened process) (hCount : process.userCodePageCount = 1)
    (hFlags : ∀ i < process.userCodePageCount, process.codeFlagsAt i < 4096) :
    Prepared builder process.pages (writeUserPageTables process mem) := by
  have hWritten := @tablesWritten _ _ mem hFits hOpened hFlags
  constructor <;> intro j hj
  · exact hPrepared.kernel_entry hBuilt hFits hOpened hFlags hj
  · intro hFirst hSecond
    rw [hWritten.pdpt j hj, if_neg hSecond, if_neg hFirst]
    exact hPrepared.pdpt j hj hFirst hSecond
  · intro hCode
    rw [hWritten.codePd j hj, if_neg hCode]
    exact hPrepared.codePd j hj hCode
  · intro hFirst
    rw [hWritten.codePt j hj, if_neg (by omega)]
    exact hPrepared.codePt j hj hFirst
  · intro hStack
    rw [hWritten.stackPd j hj, if_neg hStack]
    exact hPrepared.stackPd j hj hStack
  · intro hStack
    rw [hWritten.stackPt j hj, if_neg hStack]
    exact hPrepared.stackPt j hj hStack

end

----------
-- Validation

theorem entryPointsTo_or (hPage : PageAligned page) (hBound : page < 18446744073709551616)
    (hf : f < 4096) :
    entryPointsTo (page ||| f) page = true := by
  have hLow := alignDown_page (or_flags_lt hPage hBound hf)
  have hAnd : (page ||| f) &&& not64 4095 = page := by
    refine hLow.trans ?_
    rw [or_flags hPage hf]
    unfold PageAligned at hPage
    omega
  rw [entryPointsTo, hAnd]
  exact beq_self_eq_true page

theorem or_flags_mod (hPage : PageAligned page) (hf : f < 4096) : (page ||| f) % 4096 = f := by
  rw [or_flags hPage hf]
  unfold PageAligned at hPage
  omega

/- A context that is set names the builder's tables. -/
theorem setPagingContext_initialized (hInit : (setPagingContext builder).initialized = true) :
    setPagingContext builder =
      { initialized := true
        identityPml4Index := 0
        directMapPml4Index := 256
        kernelPml4Index := 511
        sourcePml4Table := builder.tables .pml4Table
        sourceIdentityPdptTable := builder.tables .identityPdptTable
        sourceIdentityPdTable := builder.tables .identityPdTable } := by
  unfold setPagingContext at hInit ⊢
  split at hInit
  · exact absurd hInit (by decide)
  · next hSet =>
      rw [if_neg hSet]
      rfl

/- A context that was set from finished tables. -/
theorem setPagingContext_built (hBuilt : BuiltTables builder mem) (hOk : builder.builderOk = true) :
    (setPagingContext builder).initialized = true := by
  have hNonzero := hBuilt.nonzero
  unfold setPagingContext
  rw [if_neg (by simp [hOk, hNonzero])]

theorem setPagingContext_eq (hBuilt : BuiltTables builder mem) (hOk : builder.builderOk = true) :
    setPagingContext builder =
      { initialized := true
        identityPml4Index := 0
        directMapPml4Index := 256
        kernelPml4Index := 511
        sourcePml4Table := builder.tables .pml4Table
        sourceIdentityPdptTable := builder.tables .identityPdptTable
        sourceIdentityPdTable := builder.tables .identityPdTable } :=
  setPagingContext_initialized (setPagingContext_built hBuilt hOk)

/- The kernel's entries in the tables of a process. -/
structure KernelCloned (builder : BuilderState) (pages : SpacePage → Nat)
    (mem : ByteMemory) : Prop where
  cr3 : ∀ j < 512, j ≠ 0 → entryAt mem (pages .cr3) j = entryAt mem (builder.tables .pml4Table) j
  codePd : ∀ j < 512, j ≠ 2 →
      entryAt mem (pages .userCodePdPage) j = entryAt mem (builder.tables .identityPdTable) j

/- What the kernel's tables must hold for a process with a table of its own for the code. -/
structure KernelTablesPresent (builder : BuilderState) (codePt : Nat)
    (mem : ByteMemory) : Prop where
  direct : entryPresent (entryAt mem (builder.tables .pml4Table) 256) = true
  kernel : entryPresent (entryAt mem (builder.tables .pml4Table) 511) = true
  pdpt : entryPresent (entryAt mem (builder.tables .identityPdptTable) 0) = true
  pd : entryPresent (entryAt mem (builder.tables .identityPdTable) 0) = true
  code : entryAt mem (builder.tables .identityPdTable) 2 ≠ codePt ||| userTableFlags

/- Both are read from the pages they name. -/
theorem KernelTablesPresent.of_onlyPages {codePt : Nat}
    (hPresent : KernelTablesPresent builder codePt mem)
    (hAligned : ∀ b, PageAligned (builder.tables b)) (hOnly : OnlyPages pages mem mem')
    (hApart : ∀ b, builder.tables b ∉ pages) :
    KernelTablesPresent builder codePt mem' := by
  have hEntry := fun b j hj => hOnly.entryAt_eq (hAligned b) (hApart b) (show j < 512 from hj)
  constructor <;> rw [hEntry _ _ (by decide)]
  · exact hPresent.direct
  · exact hPresent.kernel
  · exact hPresent.pdpt
  · exact hPresent.pd
  · exact hPresent.code

section

variable (hCloned : KernelCloned builder process.pages mem)
variable (hAligned : ∀ b, PageAligned (builder.tables b))
include hCloned hAligned

theorem KernelCloned.of_onlyPages (hFits : SpaceFits builder process.pages)
    (hOnly : OnlyPages pages mem mem') (hApart : ∀ b, builder.tables b ∉ pages)
    (hCr3 : process.pages .cr3 ∉ pages) (hCodePd : process.pages .userCodePdPage ∉ pages) :
    KernelCloned builder process.pages mem' := by
  have hSource := fun b j hj => hOnly.entryAt_eq (hAligned b) (hApart b) (show j < 512 from hj)
  constructor <;> intro j hj
  · rw [hSource _ j hj, hOnly.entryAt_eq (hFits.family.aligned _) hCr3 hj]
    exact hCloned.cr3 j hj
  · rw [hSource _ j hj, hOnly.entryAt_eq (hFits.family.aligned _) hCodePd hj]
    exact hCloned.codePd j hj

/- Writing the tables leaves the kernel's entries in them. -/
theorem KernelCloned.write (hFits : SpaceFits builder process.pages) (hOpened : SpaceOpened process)
    (hFlags : ∀ i < process.userCodePageCount, process.codeFlagsAt i < 4096) :
    KernelCloned builder process.pages (writeUserPageTables process mem) := by
  have hOnly := @onlyPages_writeUserPageTables builder process mem hFits hOpened
  have hWritten := @tablesWritten _ _ mem hFits hOpened hFlags
  constructor <;> intro j hj hOther
  · rw [hOnly.entryAt_eq (hAligned _) (hFits.not_mem _) hj, hWritten.cr3 j hj, if_neg hOther]
    exact hCloned.cr3 j hj hOther
  · rw [hOnly.entryAt_eq (hAligned _) (hFits.not_mem _) hj, hWritten.codePd j hj, if_neg hOther]
    exact hCloned.codePd j hj hOther

/-
  The check of the kernel's mappings asks for nothing but the entries of the kernel's own tables.
-/
theorem validateKernelMappings_iff (hInit : (setPagingContext builder).initialized = true)
    (hFits : SpaceFits builder process.pages) (hOpened : SpaceOpened process)
    (hFlags : ∀ i < process.userCodePageCount, process.codeFlagsAt i < 4096) :
    validateKernelMappings (setPagingContext builder) process
        (writeUserPageTables process mem) = true ↔
      KernelTablesPresent builder (process.pages .userCodePtPage) mem := by
  have hLinks := @tablesWritten _ _ mem hFits hOpened hFlags
  have hSource : ∀ b, ∀ j < 512, entryAt (writeUserPageTables process mem) (builder.tables b) j =
          entryAt mem (builder.tables b) j :=
    fun b j hj =>
      (onlyPages_writeUserPageTables hFits hOpened).entryAt_eq (hAligned b) (hFits.not_mem b) hj
  have hWritten := hCloned.write hAligned hFits hOpened hFlags
  have hCr3 := hLinks.cr3 0 (by decide)
  have hPdpt := hLinks.pdpt 0 (by decide)
  have hPd := hLinks.codePd 2 (by decide)
  rw [if_pos rfl] at hCr3 hPd
  rw [if_neg (by decide), if_pos rfl] at hPdpt
  have hDirect := hWritten.cr3 256 (by decide) (by decide)
  have hHigh := hWritten.cr3 511 (by decide) (by decide)
  have hFirst := hWritten.codePd 0 (by decide) (by decide)
  have hPoints := fun q => entryPointsTo_or (hFits.family.aligned q)
      (hFits.bound q) (show userTableFlags < 4096 by decide)
  have hUser : ∀ q, entryUser (process.pages q ||| userTableFlags) = true :=
    fun q => entryUser_or (hFits.family.aligned q)
  generalize writeUserPageTables process mem = mem' at hSource hCr3 hPdpt hPd hDirect hHigh hFirst ⊢
  simp only [validateKernelMappings, setPagingContext_initialized hInit, hOpened.code,
    userCode_indices, Bool.and_eq_true, bne_iff_ne, beq_iff_eq, and_assoc,
    hCr3, hPdpt, hPd, hDirect, hHigh, hFirst, hPoints, hUser, hSource _ _ (show 0 < 512 by decide),
    hSource _ _ (show 2 < 512 by decide),
    hSource _ _ (show 256 < 512 by decide),
    hSource _ _ (show 511 < 512 by decide)]
  constructor
  · rintro ⟨-, -, -, -, hDirect, hKernel, -, -, -, -, -, -, hSourcePdpt, hSourcePd, -, hCode⟩
    exact ⟨hDirect, hKernel, hSourcePdpt, hSourcePd, hCode.symm⟩
  · intro hPresent
    exact ⟨trivial, hFits.nonzero _, hFits.nonzero _,
      hFits.nonzero _, hPresent.direct, hPresent.kernel, trivial,
      trivial, trivial, trivial, trivial, trivial,
      hPresent.pdpt, hPresent.pd, trivial, hPresent.code.symm⟩

/- The links of a process pass their own part of the check. -/
theorem validateUserPageTables_iff {codeWritable : Nat → Bool}
    (hInit : (setPagingContext builder).initialized = true)
    (hFits : SpaceFits builder process.pages) (hOpened : SpaceOpened process)
    (hFlags : ∀ i < process.userCodePageCount,
        process.codeFlagsAt i = AddressSpace.codeFlags (codeWritable i)) :
    validateUserPageTables (setPagingContext builder) process
        (writeUserPageTables process mem) = true ↔
      KernelTablesPresent builder (process.pages .userCodePtPage) mem := by
  have hLow := codeFlagsAt_lt hFlags
  rw [← validateKernelMappings_iff hCloned hAligned hInit hFits hOpened hLow]
  have hLinks := @tablesWritten _ _ mem hFits hOpened hLow
  have hCount := hOpened.count_le
  have hCr3 := hLinks.cr3 0 (by decide)
  have hPdpt := hLinks.pdpt 0 (by decide)
  have hPdptStack := hLinks.pdpt 1 (by decide)
  have hPd := hLinks.codePd 2 (by decide)
  have hStackPd := hLinks.stackPd 511 (by decide)
  have hStackPt := hLinks.stackPt 511 (by decide)
  rw [if_pos rfl] at hCr3 hPdptStack hPd hStackPd hStackPt
  rw [if_neg (by decide), if_pos rfl] at hPdpt
  have hCodeEntry : ∀ i < process.userCodePageCount,
        entryAt (writeUserPageTables process mem) (process.pages .userCodePtPage) i =
          process.codePageAt i ||| AddressSpace.codeFlags (codeWritable i) := by
    intro i hi
    rw [hLinks.codePt i (by omega), if_pos hi, hFlags i hi]
  generalize writeUserPageTables process mem = mem'
    at hCr3 hPdpt hPdptStack hPd hStackPd hStackPt hCodeEntry ⊢
  have hPoints :=
    fun q f hf => entryPointsTo_or (hFits.family.aligned q) (hFits.bound q) (show f < 4096 from hf)
  have hCodePage : ∀ i < process.userCodePageCount, codePageOk process mem' i = true := by
    intro i hi
    have hFlagBits : AddressSpace.codeFlags (codeWritable i) ≠ 0 ∧
          (AddressSpace.codeFlags (codeWritable i)).testBit 0 = true ∧
          (AddressSpace.codeFlags (codeWritable i)).testBit 2 = true := by
      cases codeWritable i <;> decide
    simp only [codePageOk, hOpened.code, userCode_indices, Nat.zero_add,
      hCodeEntry i hi, hFlags i hi, Bool.and_eq_true,
      decide_eq_true_eq, bne_iff_ne, beq_iff_eq, and_assoc]
    exact ⟨by omega, hFits.nonzero _, hFlagBits.1,
      (entryPresent_or (hFits.family.aligned _)).trans hFlagBits.2.1,
      (entryUser_or (hFits.family.aligned _)).trans hFlagBits.2.2,
      hPoints _ _ (codeFlags_lt _),
      or_flags_mod (hFits.family.aligned _) (codeFlags_lt _)⟩
  have hLinked : ∀ q f, f < 4096 → f.testBit 0 = true → f.testBit 2 = true →
        (entryPresent (process.pages q ||| f) = true ∧ entryUser (process.pages q ||| f) = true) ∧
          entryPointsTo (process.pages q ||| f) (process.pages q) = true :=
    fun q f hf hPresentBit hUserBit =>
      ⟨⟨(entryPresent_or (hFits.family.aligned q)).trans hPresentBit,
        (entryUser_or (hFits.family.aligned q)).trans hUserBit⟩, hPoints q f hf⟩
  have hTableLinked := fun q => hLinked q userTableFlags (by decide) (by decide) (by decide)
  simp only [validateUserPageTables, hOpened.code, hOpened.stack,
    userCode_indices, userStack_indices, Bool.and_eq_true, bne_iff_ne,
    beq_iff_eq, decide_eq_true_eq, hCr3, hPdpt, hPdptStack, hPd,
    hStackPd, hStackPt, List.all_eq_true, List.mem_range]
  constructor
  · exact fun hChecks => hChecks.2
  · intro hKernel
    exact ⟨⟨⟨⟨⟨⟨⟨⟨trivial, hTableLinked _⟩, hTableLinked _⟩,
      hTableLinked _⟩, hTableLinked _⟩, hTableLinked _⟩,
      ⟨Nat.ne_of_gt hOpened.count_pos, hCount⟩, hCodePage⟩,
      hLinked _ _ (by decide) (by decide) (by decide)⟩, hKernel⟩

end

/- Prepared tables hold the kernel's entries. -/
theorem Prepared.cloned (hPrepared : Prepared builder process.pages mem)
    (hBuilt : BuiltTables builder mem) :
    KernelCloned builder process.pages mem := by
  refine ⟨hPrepared.cr3, ?_⟩
  intro j hj hCode
  rw [hPrepared.codePd j hj hCode, hBuilt.entries.identityPd j hj, if_neg hCode]

theorem BuiltTables.present (hBuilt : BuiltTables builder mem)
    (hFits : SpaceFits builder process.pages) :
    KernelTablesPresent builder (process.pages .userCodePtPage) mem := by
  have hAligned := hBuilt.pages.aligned
  have hDirect : entryAt mem (builder.tables .pml4Table) 256 =
        builder.tables .directPdptTable ||| tableFlags :=
    hBuilt.entries.pml4 256 (by decide)
  have hHigh : entryAt mem (builder.tables .pml4Table) 511 =
        builder.tables .kernelPdptTable ||| tableFlags :=
    hBuilt.entries.pml4 511 (by decide)
  have hPdpt : entryAt mem (builder.tables .identityPdptTable) 0 =
        builder.tables .identityPdTable ||| userTableFlags :=
    hBuilt.entries.identityPdpt 0 (by decide)
  have hPd : entryAt mem (builder.tables .identityPdTable) 0 = hugePageEntry 0 0 :=
    hBuilt.entries.identityPd 0 (by decide)
  have hCode : entryAt mem (builder.tables .identityPdTable) 2 =
        builder.tables .userCodePtTable ||| userTableFlags :=
    hBuilt.entries.identityPd 2 (by decide)
  refine ⟨?_, ?_, ?_, ?_, ?_⟩
  · rw [hDirect, entryPresent_or (hAligned _)]
    rfl
  · rw [hHigh, entryPresent_or (hAligned _)]
    rfl
  · rw [hPdpt, entryPresent_or (hAligned _)]
    rfl
  · rw [hPd, entryPresent_hugePageEntry]
  · intro hEq
    rw [hCode, or_flags (hAligned _) (by decide),
      or_flags (hFits.family.aligned _) (by decide)] at hEq
    exact hFits.apart _ _ (Nat.add_right_cancel hEq)

theorem Prepared.validate (hPrepared : Prepared builder process.pages mem)
    (hBuilt : BuiltTables builder mem) (hOk : builder.builderOk = true)
    (hFits : SpaceFits builder process.pages) (hOpened : SpaceOpened process)
    (hFlags : ∀ i < process.userCodePageCount,
        process.codeFlagsAt i = AddressSpace.codeFlags (codeWritable i)) :
    validateUserPageTables (setPagingContext builder) process
      (writeUserPageTables process mem) = true :=
  (validateUserPageTables_iff (hPrepared.cloned hBuilt)
    hBuilt.pages.aligned (setPagingContext_built hBuilt hOk)
    hFits hOpened hFlags).mpr (hBuilt.present hFits)

----------
-- Fresh Address Spaces

theorem onlyPages_clearPages (hAligned : ∀ p ∈ pages, PageAligned p) :
    OnlyPages pages mem (pages.foldl clearPage mem) := by
  have hFold : ∀ (rest : List Nat) (m : ByteMemory), rest ⊆ pages →
        OnlyPages pages m (rest.foldl clearPage m) := by
    intro rest
    induction rest with
    | nil => exact fun m _ => OnlyPages.refl _ _
    | cons page rest ih =>
      intro m hSubset
      obtain ⟨hPage, hRest⟩ := List.cons_subset.mp hSubset
      exact ((onlyPages_clearPage (hAligned page hPage)).mono
        (by simpa using hPage)).trans (ih _ hRest)
  exact hFold pages mem (List.Subset.refl _)

theorem clearProcessPages_eq (pages : SpacePage → Nat) (mem : ByteMemory) :
    clearProcessPages pages mem = (addressSpacePages.map pages).foldl clearPage mem :=
  List.foldl_map.symm

theorem onlyPages_clearProcessPages {pages : SpacePage → Nat} (hFamily : PageFamily pages) :
    OnlyPages (addressSpacePages.map pages) mem (clearProcessPages pages mem) := by
  rw [clearProcessPages_eq]
  apply onlyPages_clearPages
  intro page hPage
  obtain ⟨p, -, rfl⟩ := List.mem_map.mp hPage
  exact hFamily.aligned p

theorem entryAt_clearProcessPages (pages : SpacePage → Nat) (p : SpacePage) (hj : j < 512) :
    entryAt (clearProcessPages pages mem) (pages p) j = 0 := by
  apply readLE_zero
  intro x hLow hHigh
  rw [clearProcessPages_eq]
  refine clearPage_foldl (Or.inr ⟨pages p, ?_, by omega, by omega⟩)
  exact List.mem_map_of_mem (mem_addressSpacePages p)

section

variable (hAligned : ∀ b, PageAligned (builder.tables b))
variable (hInit : (setPagingContext builder).initialized = true)
variable (hFits : SpaceFits builder process.pages)
include hAligned hInit hFits

/- An entry of the process after the copies and the link. -/
theorem entryAt_cloneKernelMappings :
    (∀ p, ∀ j < 512,
        entryAt (cloneKernelMappings (setPagingContext builder) process mem) (process.pages p) j =
          if .cr3 = p ∧ j = 0 then
            process.pages .userPdptPage ||| userTableFlags
          else if .userCodePdPage = p then
            entryAt mem (builder.tables .identityPdTable) j
          else if .userPdptPage = p then
            entryAt mem (builder.tables .identityPdptTable) j
          else if .cr3 = p then
            entryAt mem (builder.tables .pml4Table) j
          else
            entryAt mem (process.pages p) j) ∧
      OnlyPages (addressSpacePages.map process.pages) mem
        (cloneKernelMappings (setPagingContext builder) process mem) := by
  have hMem : ∀ p, [process.pages p] ⊆ addressSpacePages.map process.pages := fun p => by
      simpa using List.mem_map_of_mem (f := process.pages) (mem_addressSpacePages p)
  have hCopy : ∀ p b m, OnlyPages (addressSpacePages.map process.pages) m
          (copyPage m (process.pages p) (builder.tables b)) :=
    fun p b m =>
      (onlyPages_copyBytes (hFits.family.aligned p) (le_refl 4096)).mono (hMem p)
  -- the pages that are copied stay as they are meanwhile
  have hSource : ∀ m, OnlyPages (addressSpacePages.map process.pages) mem m →
        ∀ b, ∀ j < 512, entryAt m (builder.tables b) j = entryAt mem (builder.tables b) j :=
    fun m hOnly b j hj =>
      hOnly.entryAt_eq (hAligned b) (hFits.not_mem b) hj
  have hFamily := fun p q b m j hj =>
      @PageFamily.entryAt_copyPage _ _ process.pages hFits.family
        m p q (builder.tables b) j (hAligned b)
        (fun hEq => hFits.apart b p hEq.symm) hj
  rw [setPagingContext_initialized hInit]
  unfold cloneKernelMappings
  dsimp only
  generalize hFirst : copyPage mem (process.pages .cr3) (builder.tables .pml4Table) = m₁
  generalize hSecond :
    copyPage m₁ (process.pages .userPdptPage) (builder.tables .identityPdptTable) = m₂
  generalize hThird :
    copyPage m₂ (process.pages .userCodePdPage) (builder.tables .identityPdTable) = m₃
  have hOnly₁ := hFirst ▸ hCopy .cr3 .pml4Table mem
  have hOnly₂ := hOnly₁.trans (hSecond ▸ hCopy .userPdptPage .identityPdptTable m₁)
  have hOnly₃ := hOnly₂.trans (hThird ▸ hCopy .userCodePdPage .identityPdTable m₂)
  have hLink :=
    @onlyPages_setEntry m₃ (process.pages .cr3) 0 (process.pages .userPdptPage ||| userTableFlags)
      (hFits.family.aligned .cr3) (by decide)
  refine ⟨?_, hOnly₃.trans (hLink.mono (hMem .cr3))⟩
  intro p j hj
  rw [hFits.family.entryAt_setEntry _ _ (by decide) hj (hFits.or_flags_lt _ (by decide)),
    ← hThird, hFamily .userCodePdPage p .identityPdTable m₂ j
      hj, hSource m₂ hOnly₂ .identityPdTable j hj,
    ← hSecond, hFamily .userPdptPage p .identityPdptTable m₁ j
      hj, hSource m₁ hOnly₁ .identityPdptTable j hj,
    ← hFirst, hFamily .cr3 p .pml4Table mem j hj]

theorem kernelCloned_of_clone :
    KernelCloned builder process.pages
      (cloneKernelMappings (setPagingContext builder) process mem) := by
  obtain ⟨hEntry, hOnly⟩ := @entryAt_cloneKernelMappings builder process mem hAligned hInit hFits
  constructor <;> intro j hj hOther
  · rw [hEntry .cr3 j hj, if_neg fun h => hOther h.2,
      if_neg (by simp), if_neg (by simp), if_pos rfl,
      hOnly.entryAt_eq (hAligned _) (hFits.not_mem _) hj]
  · rw [hEntry .userCodePdPage j hj, if_neg (by simp), if_pos rfl,
      hOnly.entryAt_eq (hAligned _) (hFits.not_mem _) hj]

end

/- Cloning the kernel's tables prepares the process's. -/
theorem prepared_of_clone (hBuilt : BuiltTables builder mem) (hOk : builder.builderOk = true)
    (hFits : SpaceFits builder process.pages)
    (hEmpty : ∀ p, ∀ j < 512, entryAt mem (process.pages p) j = 0) :
    Prepared builder process.pages (cloneKernelMappings (setPagingContext builder) process mem) ∧
      OnlyPages (addressSpacePages.map process.pages) mem
        (cloneKernelMappings (setPagingContext builder) process mem) := by
  have hInit := setPagingContext_built hBuilt hOk
  obtain ⟨hEntry, hOnly⟩ :=
    @entryAt_cloneKernelMappings builder process mem hBuilt.pages.aligned hInit hFits
  refine ⟨?_, hOnly⟩
  constructor <;> intro j hj
  · exact (kernelCloned_of_clone hBuilt.pages.aligned hInit hFits).cr3 j hj
  · intro hCode hStack
    rw [hEntry .userPdptPage j hj, if_neg (by simp), if_neg (by simp), if_pos rfl,
      hBuilt.entries.identityPdpt j hj, if_neg hStack,
      if_neg hCode]
  · intro hCode
    rw [hEntry .userCodePdPage j hj, if_neg (by simp), if_pos rfl,
      hBuilt.entries.identityPd j hj, if_neg hCode]
  · intro _
    rw [hEntry .userCodePtPage j hj, if_neg (by simp),
      if_neg (by simp), if_neg (by simp), if_neg (by simp),
      hEmpty _ j hj]
  · intro _
    rw [hEntry .userStackPdPage j hj, if_neg (by simp),
      if_neg (by simp), if_neg (by simp), if_neg (by simp),
      hEmpty _ j hj]
  · intro _
    rw [hEntry .userStackPtPage j hj, if_neg (by simp),
      if_neg (by simp), if_neg (by simp), if_neg (by simp),
      hEmpty _ j hj]

end Write

end LiamOS.X64
