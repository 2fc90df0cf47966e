import LiamOS.I386.Pmm
import LiamOS.I386.Heap.Model

/-
  The i386 virtual memory manager, `kernel/memory/vmm.c`, over a flat memory of 32-bit words.

  The page directory and the page tables are words at physical addresses; a new table is a page of
  the physical memory manager. `PageState.Separate` says that no page in use as a directory, a
  table or by a growth in progress can be handed out again, which is what keeps one mapping from
  destroying another.

  Main declarations: `vmmGetOrCreatePageTable_spec`, `vmmMapPage_spec`, `vmmUnmapPage_separate`.
-/

namespace LiamOS.I386

open Word

variable {a flags t v : Nat} {s s' : PageState} {held : List Nat}
variable {page : Nat} {held' : List Nat}

----------
-- State

def vmmPagePresent : Nat := 0x001

def vmmPageUser : Nat := 0x004

def vmmAllowedFlags : Nat := vmmPageWritable ||| vmmPageUser

/- `vmm_stats_t`. -/
structure VmmStats where
  initialized : Bool
  mappedPages : Nat
  createdPageTables : Nat
  lastMappedVirtualAddress : Nat
  lastMappedPhysicalAddress : Nat
  failedMapCount : Nat
  failedUnmapCount : Nat
  remapCount : Nat
  invalidMapCount : Nat
  missingUnmapCount : Nat
deriving DecidableEq

/- The memory managers together. `directory` is what `paging_get_directory_address` returns. -/
structure PageState where
  pmm : Pmm
  memory : Nat → Nat
  directory : Nat
  vmm : VmmStats

/- Store a word. -/
def PageState.write (s : PageState) (address value : Nat) : PageState :=
  { s with
    memory := fun a =>
      if a = address then value else s.memory a }

def pageDirectoryIndex (address : Nat) : Nat := (address >>> 22) &&& 0x3FF

def pageTableIndex (address : Nat) : Nat := (address >>> 12) &&& 0x3FF

def pageAlignDown (address : Nat) : Nat := address &&& 0xFFFFF000

def pageOffset (address : Nat) : Nat := address &&& 0xFFF

def vmmAddressIsPageAligned (address : Nat) : Bool := pageOffset address == 0

def vmmFlagsAreValid (flags : Nat) : Bool := flags &&& not32 vmmAllowedFlags == 0

/- Whether an entry has its present bit. -/
def entryPresent (entry : Nat) : Bool := entry &&& vmmPagePresent != 0

/- The address of the directory entry for an address. -/
def PageState.directorySlot (s : PageState) (virtualAddress : Nat) : Nat :=
  s.directory + 4 * pageDirectoryIndex virtualAddress

/- The table a directory entry points to. -/
def PageState.tableFor (s : PageState) (virtualAddress : Nat) : Nat :=
  pageAlignDown (s.memory (s.directorySlot virtualAddress))

/- The address of the table entry for an address. -/
def PageState.tableSlot (s : PageState) (virtualAddress : Nat) : Nat :=
  s.tableFor virtualAddress + 4 * pageTableIndex virtualAddress

----------
-- Operations

/- The loop of `vmm_clear_page_table`, up to an index. -/
def vmmClearPageTable (pageTable : Nat) : Nat → PageState → PageState
| 0, s => s
| i + 1, s => (vmmClearPageTable pageTable i s).write (pageTable + 4 * i) 0

/- Clear a new table and enter it in the directory. -/
def vmmEnterPageTable (slot pageTable flags : Nat) (s : PageState) : PageState :=
  let entered := (vmmClearPageTable pageTable 1024 s).write slot
      (pageAlignDown pageTable ||| vmmPagePresent ||| vmmPageWritable ||| (flags &&& vmmPageUser))
  { entered with
    vmm := { entered.vmm with createdPageTables := u32 (entered.vmm.createdPageTables + 1) } }

/- The table for an address, and `0` when there is none. -/
def vmmGetOrCreatePageTable (virtualAddress flags : Nat) (s : PageState) : Nat × PageState :=
  let slot := s.directorySlot virtualAddress
  if entryPresent (s.memory slot) then
    let marked := if flags &&& vmmPageUser ≠ 0 then
        s.write slot (s.memory slot ||| vmmPageUser)
      else
        s
    (pageAlignDown (marked.memory slot), marked)
  else
    let (pageTable, pmm) := pmmAllocPage s.pmm
    if pageTable = 0 then
      (0, { s with pmm := pmm })
    else
      (pageTable, vmmEnterPageTable slot pageTable flags { s with pmm := pmm })

def vmmMapPage (virtualAddress physicalAddress flags : Nat) (s : PageState) : Bool × PageState :=
  if s.vmm.initialized = false then
    (false,
      { s with
        vmm := { s.vmm with failedMapCount := u32 (s.vmm.failedMapCount + 1) } })
  else if !vmmFlagsAreValid flags then
    (false,
      { s with
        vmm :=
          { s.vmm with
            invalidMapCount := u32 (s.vmm.invalidMapCount + 1)
            failedMapCount := u32 (s.vmm.failedMapCount + 1) } })
  else
    let alignedVirtual := pageAlignDown virtualAddress
    let alignedPhysical := pageAlignDown physicalAddress
    let s₁ :=
      if !vmmAddressIsPageAligned virtualAddress || !vmmAddressIsPageAligned physicalAddress then
        { s with
          vmm := { s.vmm with invalidMapCount := u32 (s.vmm.invalidMapCount + 1) } }
      else
        s
    let (pageTable, s₂) := vmmGetOrCreatePageTable alignedVirtual flags s₁
    if pageTable = 0 then
      (false,
        { s₂ with
          vmm := { s₂.vmm with failedMapCount := u32 (s₂.vmm.failedMapCount + 1) } })
    else
      let slot := pageTable + 4 * pageTableIndex alignedVirtual
      let wasMapped := entryPresent (s₂.memory slot)
      let s₃ := s₂.write slot (alignedPhysical ||| vmmPagePresent ||| flags)
      (true,
        { s₃ with
          vmm :=
            { s₃.vmm with
              mappedPages := if !wasMapped then u32 (s₃.vmm.mappedPages + 1) else s₃.vmm.mappedPages
              remapCount := if !wasMapped then s₃.vmm.remapCount else u32 (s₃.vmm.remapCount + 1)
              lastMappedVirtualAddress := alignedVirtual
              lastMappedPhysicalAddress := alignedPhysical } })

/- An unmapping that found nothing mapped. -/
def PageState.countMissingUnmap (s : PageState) : PageState :=
  { s with
    vmm :=
      { s.vmm with
        failedUnmapCount := u32 (s.vmm.failedUnmapCount + 1)
        missingUnmapCount := u32 (s.vmm.missingUnmapCount + 1) } }

def vmmUnmapPage (virtualAddress : Nat) (s : PageState) : Bool × PageState :=
  if s.vmm.initialized = false then
    (false,
      { s with
        vmm := { s.vmm with failedUnmapCount := u32 (s.vmm.failedUnmapCount + 1) } })
  else
    let alignedVirtual := pageAlignDown virtualAddress
    if !entryPresent (s.memory (s.directorySlot alignedVirtual)) then
      (false, s.countMissingUnmap)
    else if !entryPresent (s.memory (s.tableSlot alignedVirtual)) then
      (false, s.countMissingUnmap)
    else
      let s₁ := s.write (s.tableSlot alignedVirtual) 0
      (true,
        { s₁ with
          vmm :=
            { s₁.vmm with
              mappedPages := if 0 < s₁.vmm.mappedPages then
                  s₁.vmm.mappedPages - 1
                else
                  s₁.vmm.mappedPages } })

def vmmIsMapped (virtualAddress : Nat) (s : PageState) : Bool := if s.vmm.initialized = false then
    false
  else
    let alignedVirtual := pageAlignDown virtualAddress
    if !entryPresent (s.memory (s.directorySlot alignedVirtual)) then
      false
    else
      entryPresent (s.memory (s.tableSlot alignedVirtual))

/- The managers as the heap calls them. -/
def pageServices : PageServices PageState where
  pmmAllocPage := fun s =>
    ((pmmAllocPage s.pmm).1, { s with pmm := (pmmAllocPage s.pmm).2 })
  pmmFreePage := fun page s =>
    { s with pmm := pmmFreePage page s.pmm }
  vmmMapPage := vmmMapPage
  vmmUnmapPage := vmmUnmapPage
  vmmIsMapped := vmmIsMapped

----------
-- Entries And Slots

theorem pageDirectoryIndex_lt (address : Nat) : pageDirectoryIndex address < 1024 :=
  Nat.lt_of_le_of_lt Nat.and_le_right (by norm_num)

theorem pageTableIndex_lt (address : Nat) : pageTableIndex address < 1024 :=
  Nat.lt_of_le_of_lt Nat.and_le_right (by norm_num)

theorem pageAlignDown_mod (address : Nat) : pageAlignDown address % 4096 = 0 := by
  have hMod := Nat.and_mod_two_pow (a := address) (b := 0xFFFFF000) (n := 12)
  norm_num at hMod
  exact hMod

theorem pageAlignDown_of_page (hAligned : page % 4096 = 0) (hWord : page < 4294967296) :
    pageAlignDown page = page := by
  have hMask := and_not32_low (x := page) 12 (by omega) hWord
  have hConst : not32 (2 ^ 12 - 1) = 0xFFFFF000 := by decide
  rw [hConst] at hMask
  rw [pageAlignDown, hMask]
  omega

/- Flag bits do not change the table an entry points to. -/
theorem pageAlignDown_or (entry : Nat) (hFlags : flags &&& 0xFFFFF000 = 0) :
    pageAlignDown (entry ||| flags) = pageAlignDown entry := by
  simp [pageAlignDown, Nat.and_or_distrib_right, hFlags]

theorem entryPresent_eq_testBit (entry : Nat) : entryPresent entry = entry.testBit 0 := by
  simp only [entryPresent, vmmPagePresent, Nat.and_one_is_mod, Nat.testBit_zero]
  rcases Nat.mod_two_eq_zero_or_one entry with hBit | hBit
  · simp [hBit]
  · simp [hBit]

@[simp] theorem entryPresent_or (x y : Nat) :
    entryPresent (x ||| y) = (entryPresent x || entryPresent y) := by
  simp [entryPresent_eq_testBit]

@[simp] theorem entryPresent_present : entryPresent vmmPagePresent = true := by
  decide

@[simp] theorem write_pmm (s : PageState) (a x : Nat) : (s.write a x).pmm = s.pmm := rfl

@[simp] theorem write_directory (s : PageState) (a x : Nat) :
    (s.write a x).directory = s.directory := rfl

@[simp] theorem write_vmm (s : PageState) (a x : Nat) : (s.write a x).vmm = s.vmm := rfl

@[simp] theorem write_memory_self (s : PageState) (a x : Nat) : (s.write a x).memory a = x := by
  simp [PageState.write]

theorem write_memory_ne (s : PageState) {b : Nat} (x : Nat) (hNe : b ≠ a) :
    (s.write a x).memory b = s.memory b := by
  simp [PageState.write, hNe]

@[simp] theorem write_directorySlot (s : PageState) (a x w : Nat) :
    (s.write a x).directorySlot w = s.directorySlot w := rfl

/- Words of different pages have different addresses. -/
theorem slot_ne {x y i j : Nat} (hx : x % 4096 = 0) (hy : y % 4096 = 0) (hNe : x ≠ y)
    (hi : i < 1024) (hj : j < 1024) :
    x + 4 * i ≠ y + 4 * j := by
  omega

theorem tableFor_mod (s : PageState) (w : Nat) : s.tableFor w % 4096 = 0 := pageAlignDown_mod _

theorem vmmClearPageTable_memory (pageTable : Nat) (n : Nat) (s : PageState)
    (hOutside : ∀ i, i < n → a ≠ pageTable + 4 * i) :
    (vmmClearPageTable pageTable n s).memory a = s.memory a := by
  induction n with
  | zero => rfl
  | succ n ih =>
    have hNe := hOutside n (by omega)
    simp only [vmmClearPageTable, PageState.write, if_neg hNe]
    exact ih (fun i hi => hOutside i (by omega))

/- Clearing a table changes memory only. -/
theorem vmmClearPageTable_rest (pageTable n : Nat) (s : PageState) :
    (vmmClearPageTable pageTable n s).pmm = s.pmm ∧
      (vmmClearPageTable pageTable n s).directory = s.directory ∧
      (vmmClearPageTable pageTable n s).vmm = s.vmm := by
  induction n with
  | zero => exact ⟨rfl, rfl, rfl⟩
  | succ n ih => exact ih

----------
-- Separation

/- The directory has a table for the address. -/
def PageState.HasTable (s : PageState) (w : Nat) : Prop :=
  entryPresent (s.memory (s.directorySlot w)) = true

/-
  No page in use can be handed out again: not the directory, no table, and none of the pages
  `held` by a growth.
-/
structure PageState.Separate (s : PageState) (held : List Nat) : Prop where
  pmm : s.pmm.Wf
  directoryAligned : s.directory % 4096 = 0
  directoryTaken : ¬ s.pmm.Available s.directory
  tableTaken : ∀ w, s.HasTable w → ¬ s.pmm.Available (s.tableFor w)
  tableApart : ∀ w, s.HasTable w → s.tableFor w ≠ s.directory
  heldNodup : held.Nodup
  heldTaken : ∀ page ∈ held, ¬ s.pmm.Available page
  heldApart : ∀ page ∈ held, page ≠ s.directory ∧ ∀ w, s.HasTable w → page ≠ s.tableFor w

section

variable (hSep : s.Separate held)
include hSep

/- A page the heap keeps is no longer watched. -/
theorem PageState.Separate.of_subset (hNodup : held'.Nodup) (hSub : held' ⊆ held) :
    s.Separate held' :=
  { hSep with
    heldNodup := hNodup
    heldTaken := fun page hp => hSep.heldTaken page (hSub hp)
    heldApart := fun page hp => hSep.heldApart page (hSub hp) }

theorem PageState.Separate.forget (hSub : held'.Sublist held) :
    s.Separate held' :=
  hSep.of_subset (hSep.heldNodup.sublist hSub) hSub.subset

theorem PageState.Separate.perm (hPerm : held.Perm held') :
    s.Separate held' :=
  hSep.of_subset (hPerm.nodup_iff.mp hSep.heldNodup) hPerm.symm.subset

/-
  A state is separate when it hands out no more pages than a separate one and every table is an
  old one or a page of its own.
-/
theorem PageState.Separate.ofTables (hWf : s'.pmm.Wf)
    (hFewer : ∀ q, s'.pmm.Available q → s.pmm.Available q) (hDirectory : s'.directory = s.directory)
    (hTables : ∀ w, s'.HasTable w → (s.HasTable w ∧ s'.tableFor w = s.tableFor w) ∨
          (¬ s'.pmm.Available (s'.tableFor w) ∧ s'.tableFor w ≠ s.directory ∧
            s'.tableFor w ∉ held)) :
    s'.Separate held := by
  refine ⟨hWf, by rw [hDirectory]; exact hSep.directoryAligned, ?_, ?_, ?_, hSep.heldNodup, ?_, ?_⟩
  · rw [hDirectory]
    exact fun hAvail =>
      hSep.directoryTaken (hFewer _ hAvail)
  · intro w hw
    rcases hTables w hw with ⟨hOld, hEq⟩ | ⟨hNew, -, -⟩
    · rw [hEq]
      exact fun hAvail =>
        hSep.tableTaken w hOld (hFewer _ hAvail)
    · exact hNew
  · intro w hw
    rw [hDirectory]
    rcases hTables w hw with ⟨hOld, hEq⟩ | ⟨-, hNew, -⟩
    · rw [hEq]
      exact hSep.tableApart w hOld
    · exact hNew
  · exact fun page hp hAvail =>
      hSep.heldTaken page hp (hFewer _ hAvail)
  · intro page hp
    rw [hDirectory]
    refine ⟨(hSep.heldApart page hp).1, ?_⟩
    intro w hw
    rcases hTables w hw with ⟨hOld, hEq⟩ | ⟨-, -, hNew⟩
    · rw [hEq]
      exact (hSep.heldApart page hp).2 w hOld
    · exact fun hEq => hNew (hEq ▸ hp)

/- Taking a page from the physical memory manager. -/
theorem PageState.Separate.alloc (hSome : (pmmAllocPage s.pmm).1 ≠ 0) :
    ({ s with pmm := (pmmAllocPage s.pmm).2 } :
      PageState).Separate ((pmmAllocPage s.pmm).1 :: held) := by
  rcases pmmAllocPage_spec hSep.pmm with ⟨hNone, -⟩ | ⟨-, hTaken⟩
  · exact absurd hNone hSome
  refine ⟨hTaken.wf, hSep.directoryAligned, ?_, ?_, hSep.tableApart, ?_, ?_, ?_⟩
  · exact fun hAvail =>
      hSep.directoryTaken (hTaken.fewer _ hAvail)
  · exact fun w hw hAvail =>
      hSep.tableTaken w hw (hTaken.fewer _ hAvail)
  · refine List.nodup_cons.mpr ⟨?_, hSep.heldNodup⟩
    exact fun hMem => hSep.heldTaken _ hMem hTaken.was
  · intro page hp
    rcases List.mem_cons.mp hp with hEq | hMem
    · rw [hEq]
      exact hTaken.gone
    · exact fun hAvail =>
        hSep.heldTaken page hMem (hTaken.fewer _ hAvail)
  · intro page hp
    rcases List.mem_cons.mp hp with hEq | hMem
    · rw [hEq]
      refine ⟨?_, ?_⟩
      · intro hSame
        have hWas := hTaken.was
        rw [hSame] at hWas
        exact hSep.directoryTaken hWas
      · intro w hw hSame
        have hWas := hTaken.was
        rw [hSame] at hWas
        exact hSep.tableTaken w hw hWas
    · exact hSep.heldApart page hMem

end

/- Giving back a held page. -/
theorem PageState.Separate.free (hSep : s.Separate (page :: held)) :
    ({ s with pmm := pmmFreePage page s.pmm } : PageState).Separate held := by
  have hNodup := List.nodup_cons.mp hSep.heldNodup
  have hMine := hSep.heldApart page (by simp)
  refine ⟨pmmFreePage_wf hSep.pmm page, hSep.directoryAligned, ?_, ?_, hSep.tableApart, hNodup.2,
    ?_, ?_⟩
  · intro hAvail
    rcases pmmFreePage_available hAvail with hOld | hEq
    · exact hSep.directoryTaken hOld
    · exact hMine.1 hEq.symm
  · intro w hw hAvail
    rcases pmmFreePage_available hAvail with hOld | hEq
    · exact hSep.tableTaken w hw hOld
    · exact hMine.2 w hw hEq.symm
  · intro q hq hAvail
    rcases pmmFreePage_available hAvail with hOld | hEq
    · exact hSep.heldTaken q (by simp [hq]) hOld
    · exact hNodup.1 (hEq ▸ hq)
  · intro q hq
    exact hSep.heldApart q (by simp [hq])

----------
-- Tables

/-
  After `vmm_get_or_create_page_table` the address has the table `t`, and every table there was
  before is still there with the same words.
-/
structure TableReady (s : PageState) (held : List Nat) (v t : Nat) (s' : PageState) : Prop where
  separate : s'.Separate held
  directory : s'.directory = s.directory
  initialized : s'.vmm.initialized = s.vmm.initialized
  has : s'.HasTable v
  table : s'.tableFor v = t
  keeps : ∀ w, s.HasTable w → s'.HasTable w ∧ s'.tableFor w = s.tableFor w ∧
        ∀ i, i < 1024 → s'.memory (s.tableFor w + 4 * i) = s.memory (s.tableFor w + 4 * i)

/- Storing an entry changes the tables of its addresses only. -/
theorem hasTable_write_slot (s : PageState) (v w entry : Nat) :
    (s.write (s.directorySlot v) entry).HasTable w ↔ if s.directorySlot w = s.directorySlot v then
        entryPresent entry = true
      else
        s.HasTable w := by
  unfold PageState.HasTable
  rw [write_directorySlot]
  by_cases hSame : s.directorySlot w = s.directorySlot v
  · rw [if_pos hSame, hSame, write_memory_self]
  · rw [if_neg hSame, write_memory_ne _ _ hSame]

theorem tableFor_write_slot (s : PageState) (v w entry : Nat) :
    (s.write (s.directorySlot v) entry).tableFor w = if s.directorySlot w = s.directorySlot v then
        pageAlignDown entry
      else
        s.tableFor w := by
  unfold PageState.tableFor
  rw [write_directorySlot]
  by_cases hSame : s.directorySlot w = s.directorySlot v
  · rw [if_pos hSame, hSame, write_memory_self]
  · rw [if_neg hSame, write_memory_ne _ _ hSame]

/- A word outside the directory moves no table. -/
theorem hasTable_write_apart (s : PageState) (hApart : ∀ w, s.directorySlot w ≠ a) (x w : Nat) :
    (s.write a x).HasTable w ↔ s.HasTable w := by
  unfold PageState.HasTable
  rw [write_directorySlot, write_memory_ne _ _ (hApart w)]

theorem tableFor_write_apart (s : PageState) (hApart : ∀ w, s.directorySlot w ≠ a) (x w : Nat) :
    (s.write a x).tableFor w = s.tableFor w := by
  unfold PageState.tableFor
  rw [write_directorySlot, write_memory_ne _ _ (hApart w)]

/- Flag bits added to a directory entry move no table. -/
theorem hasTable_mark (hHas : s.HasTable v) (flags w : Nat) :
    (s.write (s.directorySlot v) (s.memory (s.directorySlot v) ||| flags)).HasTable w ↔
      s.HasTable w := by
  have hEntry : entryPresent (s.memory (s.directorySlot v) ||| flags) = true := by
    rw [entryPresent_or, hHas]
    rfl
  rw [hasTable_write_slot]
  by_cases hSame : s.directorySlot w = s.directorySlot v
  · rw [if_pos hSame, PageState.HasTable, hSame]
    exact ⟨fun _ => hHas, fun _ => hEntry⟩
  · rw [if_neg hSame]

theorem tableFor_mark (s : PageState) (v : Nat) (hFlags : flags &&& 0xFFFFF000 = 0) (w : Nat) :
    (s.write (s.directorySlot v) (s.memory (s.directorySlot v) ||| flags)).tableFor w =
      s.tableFor w := by
  rw [tableFor_write_slot, pageAlignDown_or _ hFlags]
  by_cases hSame : s.directorySlot w = s.directorySlot v
  · rw [if_pos hSame, PageState.tableFor, hSame]
  · rw [if_neg hSame]

/- Adding flag bits to the entry of a table. -/
theorem PageState.Separate.markEntry (hSep : s.Separate held) (hHas : s.HasTable v)
    (hFlags : flags &&& 0xFFFFF000 = 0) :
    TableReady s held v (s.tableFor v)
      (s.write (s.directorySlot v) (s.memory (s.directorySlot v) ||| flags)) := by
  have hPresent := hasTable_mark hHas flags
  have hTable := tableFor_mark s v hFlags
  refine ⟨?_, rfl, rfl, (hPresent v).mpr hHas, hTable v, ?_⟩
  · refine hSep.ofTables hSep.pmm (fun q hq => hq) rfl ?_
    intro w hw
    exact Or.inl ⟨(hPresent w).mp hw, hTable w⟩
  · intro w hw
    refine ⟨(hPresent w).mpr hw, hTable w, ?_⟩
    intro i hi
    exact write_memory_ne _ _
      (slot_ne (tableFor_mod s w) hSep.directoryAligned
        (hSep.tableApart w hw) hi (pageDirectoryIndex_lt v))

/- The state with a cleared page entered as a table. -/
def PageState.entered (s : PageState) (v t flags : Nat) : PageState :=
  (vmmClearPageTable t 1024 s).write (s.directorySlot v)
    (pageAlignDown t ||| vmmPagePresent ||| vmmPageWritable ||| flags)

theorem clear_directorySlot (t n : Nat) (s : PageState) (w : Nat) :
    (vmmClearPageTable t n s).directorySlot w = s.directorySlot w := by
  unfold PageState.directorySlot
  rw [(vmmClearPageTable_rest t n s).2.1]

section

variable (hDirectory : s.directory % 4096 = 0) (hAligned : t % 4096 = 0)
include hDirectory hAligned

/- Clearing a page beside the directory. -/
theorem clear_directory_memory (hApart : t ≠ s.directory) (w : Nat) :
    (vmmClearPageTable t 1024 s).memory (s.directorySlot w) = s.memory (s.directorySlot w) := by
  apply vmmClearPageTable_memory
  intro i hi
  exact slot_ne hDirectory hAligned (Ne.symm hApart) (pageDirectoryIndex_lt w) hi

theorem hasTable_entered (hApart : t ≠ s.directory) (v flags w : Nat) :
    (s.entered v t flags).HasTable w ↔ s.directorySlot w = s.directorySlot v ∨ s.HasTable w := by
  unfold PageState.entered
  rw [← clear_directorySlot t 1024 s v, hasTable_write_slot,
    clear_directorySlot, clear_directorySlot]
  by_cases hSame : s.directorySlot w = s.directorySlot v
  · simp [hSame]
  · rw [if_neg hSame, PageState.HasTable, clear_directorySlot,
      clear_directory_memory hDirectory hAligned hApart]
    simp [hSame, PageState.HasTable]

theorem tableFor_entered (hWord : t < 4294967296) (hApart : t ≠ s.directory)
    (hFlags : flags &&& 0xFFFFF000 = 0) (v w : Nat) :
    (s.entered v t flags).tableFor w = if s.directorySlot w = s.directorySlot v then
        t
      else
        s.tableFor w := by
  have hEntry :
      pageAlignDown (pageAlignDown t ||| vmmPagePresent ||| vmmPageWritable ||| flags) = t := by
    rw [pageAlignDown_or _ hFlags, pageAlignDown_or _ (by decide), pageAlignDown_or _ (by decide),
      pageAlignDown_of_page (pageAlignDown_mod t)
        (by rw [pageAlignDown_of_page hAligned hWord]
            exact hWord),
      pageAlignDown_of_page hAligned hWord]
  unfold PageState.entered
  rw [← clear_directorySlot t 1024 s v, tableFor_write_slot,
    clear_directorySlot, clear_directorySlot, hEntry]
  by_cases hSame : s.directorySlot w = s.directorySlot v
  · rw [if_pos hSame, if_pos hSame]
  · rw [if_neg hSame, if_neg hSame, PageState.tableFor, clear_directorySlot,
      clear_directory_memory hDirectory hAligned hApart]
    rfl

end

/- Entering a fresh page, cleared, as the table of an address. -/
theorem PageState.Separate.enterTable (hSep : s.Separate (t :: held)) (hAligned : t % 4096 = 0)
    (hWord : t < 4294967296) (hNone : ¬ s.HasTable v) (hFlags : flags &&& 0xFFFFF000 = 0) :
    TableReady s held v t (s.entered v t flags) := by
  have hMine := hSep.heldApart t (by simp)
  have hNodup := List.nodup_cons.mp hSep.heldNodup
  rcases vmmClearPageTable_rest t 1024 s with ⟨hPmm, hDirectory, hVmm⟩
  have hHas := hasTable_entered hSep.directoryAligned hAligned hMine.1 v flags
  have hTable := tableFor_entered hSep.directoryAligned hAligned hWord hMine.1 hFlags v
  unfold PageState.entered at hHas hTable ⊢
  refine ⟨?_, by rw [write_directory, hDirectory],
    by rw [write_vmm, hVmm], (hHas v).mpr (Or.inl rfl), by rw [hTable v, if_pos rfl], ?_⟩
  · refine (hSep.forget (List.sublist_cons_self t held)).ofTables
      (by rw [write_pmm, hPmm]; exact hSep.pmm)
      (fun q hq => by rwa [write_pmm, hPmm] at hq)
      (by rw [write_directory, hDirectory]) ?_
    intro w hw
    rw [hTable w]
    by_cases hSame : s.directorySlot w = s.directorySlot v
    · rw [if_pos hSame, write_pmm, hPmm]
      exact Or.inr ⟨hSep.heldTaken t (by simp), hMine.1, hNodup.1⟩
    · rw [if_neg hSame]
      exact Or.inl ⟨((hHas w).mp hw).resolve_left hSame, rfl⟩
  · intro w hw
    have hOther : s.directorySlot w ≠ s.directorySlot v := by
      intro hSame
      apply hNone
      rw [PageState.HasTable, ← hSame]
      exact hw
    refine ⟨(hHas w).mpr (Or.inr hw), by rw [hTable w, if_neg hOther], ?_⟩
    intro i hi
    have hApart : s.tableFor w + 4 * i ≠ s.directorySlot v :=
      slot_ne (tableFor_mod s w) hSep.directoryAligned
        (hSep.tableApart w hw) hi (pageDirectoryIndex_lt v)
    rw [write_memory_ne _ _ hApart]
    apply vmmClearPageTable_memory
    intro j hj
    exact slot_ne (tableFor_mod s w) hAligned (Ne.symm (hMine.2 w hw)) hi hj

/- A table that was already there. -/
theorem TableReady.refl (hSep : s.Separate held) (hHas : s.HasTable v) :
    TableReady s held v (s.tableFor v) s :=
  ⟨hSep, rfl, rfl, hHas, rfl, fun _ hw => ⟨hw, rfl, fun _ _ => rfl⟩⟩

/- The VMM's counters play no part. -/
theorem PageState.Separate.withVmm (hSep : s.Separate held) (vmm : VmmStats) :
    ({ s with vmm := vmm } : PageState).Separate held :=
  { hSep with }

theorem TableReady.withVmm (hReady : TableReady s held v t s') {vmm : VmmStats}
    (hVmm : vmm.initialized = s'.vmm.initialized) :
    TableReady s held v t { s' with vmm := vmm } :=
  ⟨hReady.separate.withVmm vmm, hReady.directory, by rw [hVmm, hReady.initialized], hReady.has,
    hReady.table, hReady.keeps⟩

/- The page manager plays none either. -/
theorem TableReady.ofPmm {pmm : Pmm} (hReady : TableReady { s with pmm := pmm } held v t s') :
    TableReady s held v t s' :=
  { hReady with }

/- Entering a table changes memory only. -/
theorem entered_rest (s : PageState) (v t flags : Nat) :
    (s.entered v t flags).pmm = s.pmm ∧ (s.entered v t flags).directory = s.directory ∧
      (s.entered v t flags).vmm = s.vmm := by
  unfold PageState.entered
  rw [write_pmm, write_directory, write_vmm]
  exact vmmClearPageTable_rest t 1024 s

theorem vmmEnterPageTable_eq (s : PageState) (v t flags : Nat) :
    vmmEnterPageTable (s.directorySlot v) t flags s =
      { s.entered v t (flags &&& vmmPageUser) with
        vmm := { s.vmm with createdPageTables := u32 (s.vmm.createdPageTables + 1) } } := by
  rw [← (entered_rest s v t (flags &&& vmmPageUser)).2.2]
  rfl

/- The ways `vmm_get_or_create_page_table` ends. -/
inductive TableOutcome (s : PageState) (v flags : Nat) : Nat → PageState → Prop
| none (hNone : ¬ s.HasTable v) (hEmpty : (pmmAllocPage s.pmm).1 = 0) :
    TableOutcome s v flags 0 { s with pmm := (pmmAllocPage s.pmm).2 }
| found (hHas : s.HasTable v) : TableOutcome s v flags (s.tableFor v) s
| marked (hHas : s.HasTable v) :
    TableOutcome s v flags (s.tableFor v)
      (s.write (s.directorySlot v) (s.memory (s.directorySlot v) ||| vmmPageUser))
| created (hNone : ¬ s.HasTable v) (hSome : (pmmAllocPage s.pmm).1 ≠ 0)
    (hFlags : flags &&& vmmPageUser &&& 0xFFFFF000 = 0) :
    TableOutcome s v flags (pmmAllocPage s.pmm).1
      { PageState.entered { s with pmm := (pmmAllocPage s.pmm).2 } v (pmmAllocPage s.pmm).1
          (flags &&& vmmPageUser) with
        vmm := { s.vmm with createdPageTables := u32 (s.vmm.createdPageTables + 1) } }

theorem vmmGetOrCreatePageTable_outcome (v flags : Nat) (s : PageState) :
    TableOutcome s v flags (vmmGetOrCreatePageTable v flags s).1
      (vmmGetOrCreatePageTable v flags s).2 := by
  unfold vmmGetOrCreatePageTable
  dsimp only
  by_cases hHas : entryPresent (s.memory (s.directorySlot v)) = true
  · rw [if_pos hHas]
    by_cases hUser : flags &&& vmmPageUser ≠ 0
    · simp only [if_pos hUser, write_memory_self]
      rw [pageAlignDown_or _ (by decide)]
      exact .marked hHas
    · simp only [if_neg hUser]
      exact .found hHas
  · rw [if_neg hHas]
    by_cases hNone : (pmmAllocPage s.pmm).1 = 0
    · rw [if_pos hNone]
      exact .none hHas hNone
    · rw [if_neg hNone]
      change TableOutcome s v flags _ (vmmEnterPageTable
        (PageState.directorySlot { s with pmm := (pmmAllocPage s.pmm).2 } v) _ flags _)
      rw [vmmEnterPageTable_eq]
      refine .created hHas hNone ?_
      rw [Nat.and_assoc]
      exact Nat.and_zero flags

theorem vmmGetOrCreatePageTable_spec (hSep : s.Separate held) (v flags : Nat) :
    ((vmmGetOrCreatePageTable v flags s).1 = 0 ∧
        (vmmGetOrCreatePageTable v flags s).2.Separate held) ∨
      TableReady s held v (vmmGetOrCreatePageTable v flags s).1
        (vmmGetOrCreatePageTable v flags s).2 := by
  have hOutcome := vmmGetOrCreatePageTable_outcome v flags s
  have hAlloc := pmmAllocPage_spec hSep.pmm
  generalize vmmGetOrCreatePageTable v flags s = result at hOutcome ⊢
  rcases result with ⟨t, s'⟩
  dsimp only at hOutcome ⊢
  cases hOutcome with
  | none hNone hEmpty =>
    rw [(hAlloc.resolve_right fun hTaken => hTaken.1 hEmpty).2]
    exact Or.inl ⟨rfl, hSep⟩
  | found hHas => exact Or.inr (TableReady.refl hSep hHas)
  | marked hHas => exact Or.inr (hSep.markEntry hHas (by decide))
  | created hNone hSome hFlags =>
    have hTaken := (hAlloc.resolve_left fun hEmpty => hSome hEmpty.1).2
    have hEntered := (hSep.alloc hSome).enterTable hTaken.aligned hTaken.word hNone hFlags
    refine Or.inr (hEntered.withVmm ?_).ofPmm
    exact hEntered.initialized.symm

----------
-- Mapping

theorem vmmIsMapped_iff (s : PageState) (w : Nat) :
    vmmIsMapped w s = true ↔ s.vmm.initialized = true ∧ s.HasTable (pageAlignDown w) ∧
        entryPresent (s.memory (s.tableSlot (pageAlignDown w))) = true := by
  unfold vmmIsMapped PageState.HasTable
  cases s.vmm.initialized with
  | false => simp
  | true =>
    cases hEntry : entryPresent (s.memory (s.directorySlot (pageAlignDown w))) with
    | false => simp [hEntry]
    | true => simp [hEntry]

/- Storing a present entry in a table. -/
theorem TableReady.store (hReady : TableReady s held v t s') {entry : Nat}
    (hEntry : entryPresent entry = true) :
    (s'.write (t + 4 * pageTableIndex v) entry).Separate held ∧
      (s'.write (t + 4 * pageTableIndex v) entry).HasTable v ∧
      entryPresent
          ((s'.write (t + 4 * pageTableIndex v)
            entry).memory ((s'.write (t + 4 * pageTableIndex v) entry).tableSlot v)) = true ∧
      ∀ w, s.HasTable w → entryPresent (s.memory (s.tableSlot w)) = true →
        (s'.write (t + 4 * pageTableIndex v) entry).HasTable w ∧ entryPresent
              ((s'.write (t + 4 * pageTableIndex v) entry).memory
                  ((s'.write (t + 4 * pageTableIndex v) entry).tableSlot w)) = true := by
  have hSep := hReady.separate
  have hApart : ∀ w, s'.directorySlot w ≠ t + 4 * pageTableIndex v := by
    intro w
    rw [← hReady.table]
    exact slot_ne hSep.directoryAligned (tableFor_mod s' v) (Ne.symm (hSep.tableApart v hReady.has))
      (pageDirectoryIndex_lt w) (pageTableIndex_lt v)
  have hHas := hasTable_write_apart s' hApart entry
  have hTable := tableFor_write_apart s' hApart entry
  have hSlot : ∀ w, (s'.write (t + 4 * pageTableIndex v) entry).tableSlot w = s'.tableSlot w := by
    intro w
    unfold PageState.tableSlot
    rw [hTable]
  refine ⟨?_, (hHas v).mpr hReady.has, ?_, ?_⟩
  · refine hSep.ofTables hSep.pmm (fun q hq => hq) rfl ?_
    intro w hw
    exact Or.inl ⟨(hHas w).mp hw, hTable w⟩
  · rw [hSlot, PageState.tableSlot, hReady.table, write_memory_self]
    exact hEntry
  · intro w hw hMapped
    rcases hReady.keeps w hw with ⟨hStill, hSame, hWords⟩
    refine ⟨(hHas w).mpr hStill, ?_⟩
    rw [hSlot, PageState.tableSlot, hSame]
    by_cases hHere : s.tableFor w + 4 * pageTableIndex w = t + 4 * pageTableIndex v
    · rw [hHere, write_memory_self]
      exact hEntry
    · rw [write_memory_ne _ _ hHere, hWords _ (pageTableIndex_lt w)]
      exact hMapped

/- What the audit reads of the counters. -/
def VmmStats.audited (vmm : VmmStats) : Nat × Nat := (vmm.mappedPages, vmm.lastMappedVirtualAddress)

/-
  The ways `vmm_map_page` ends: refused, without a table, or with the entry stored. The counters
  that no function reads are left open.
-/
inductive MapOutcome (s : PageState) (v p flags : Nat) : Bool → PageState → Prop
| refused
    (vmm : VmmStats)
    (hVmm : vmm.initialized = s.vmm.initialized)
    (hWhy : s.vmm.initialized = false ∨ vmmFlagsAreValid flags = false)
    (hAudited : vmm.audited = s.vmm.audited) :
    MapOutcome s v p flags false { s with vmm := vmm }
| noTable
    (vmm vmm' : VmmStats)
    (hInit : s.vmm.initialized = true)
    (hValid : vmmFlagsAreValid flags = true)
    (hVmm : vmm.initialized = s.vmm.initialized)
    (t : Nat)
    (s' : PageState)
    (hTable : vmmGetOrCreatePageTable (pageAlignDown v) flags { s with vmm := vmm } = (t, s'))
    (hNone : t = 0)
    (hVmm' : vmm'.initialized = s'.vmm.initialized)
    (hAudited : vmm.audited = s.vmm.audited)
    (hAudited' : vmm'.audited = s'.vmm.audited) :
    MapOutcome s v p flags false { s' with vmm := vmm' }
| stored
    (vmm vmm' : VmmStats)
    (hInit : s.vmm.initialized = true)
    (hValid : vmmFlagsAreValid flags = true)
    (hVmm : vmm.initialized = s.vmm.initialized)
    (t : Nat)
    (s' : PageState)
    (hTable : vmmGetOrCreatePageTable (pageAlignDown v) flags { s with vmm := vmm } = (t, s'))
    (hSome : t ≠ 0)
    (hVmm' : vmm'.initialized = s'.vmm.initialized)
    (hAudited : vmm.audited = s.vmm.audited)
    (hAudited' : vmm'.audited =
      (if !entryPresent (s'.memory (t + 4 * pageTableIndex (pageAlignDown v))) then
          u32 (s'.vmm.mappedPages + 1)
        else
          s'.vmm.mappedPages,
        pageAlignDown v)) :
    MapOutcome s v p flags true
      { s'.write (t + 4 * pageTableIndex (pageAlignDown v))
          (pageAlignDown p ||| vmmPagePresent ||| flags) with
        vmm := vmm' }

theorem vmmMapPage_outcome (s : PageState) (v p flags : Nat) :
    MapOutcome s v p flags (vmmMapPage v p flags s).1 (vmmMapPage v p flags s).2 := by
  unfold vmmMapPage
  cases hInit : s.vmm.initialized with
  | false => exact .refused _ rfl (Or.inl hInit) rfl
  | true =>
    cases hValid : vmmFlagsAreValid flags with
    | false => exact .refused _ rfl (Or.inr hValid) rfl
    | true =>
      rw [if_neg (show ¬ true = false from nofun), if_neg (show ¬ (!true) = true from nofun)]
      dsimp only
      -- A misaligned address is counted and then rounded.
      generalize hCounted :
        (if (!vmmAddressIsPageAligned v || !vmmAddressIsPageAligned p) = true then
          ({ s with
            vmm := { s.vmm with invalidMapCount := u32 (s.vmm.invalidMapCount + 1) } } : PageState)
        else
          s) = s₁
      have hEq : ∃ vmm : VmmStats, vmm.initialized = s.vmm.initialized ∧
            vmm.audited = s.vmm.audited ∧ s₁ = { s with vmm := vmm } := by
        rw [← hCounted]
        split
        · exact ⟨{ s.vmm with invalidMapCount := u32 (s.vmm.invalidMapCount + 1) }, rfl, rfl, rfl⟩
        · exact ⟨s.vmm, rfl, rfl, rfl⟩
      rcases hEq with ⟨vmm, hVmm, hAudited, rfl⟩
      generalize hTable :
        vmmGetOrCreatePageTable (pageAlignDown v) flags { s with vmm := vmm } = result
      rcases result with ⟨t, s'⟩
      dsimp only
      by_cases hNone : t = 0
      · rw [if_pos hNone]
        exact .noTable vmm _ hInit hValid hVmm t s' hTable hNone rfl hAudited rfl
      · rw [if_neg hNone]
        exact .stored vmm _ hInit hValid hVmm t s' hTable hNone rfl hAudited rfl

theorem vmmMapPage_spec (hSep : s.Separate held) (v p flags : Nat) :
    (vmmMapPage v p flags s).2.Separate held ∧
      ((vmmMapPage v p flags s).1 = true → vmmIsMapped v (vmmMapPage v p flags s).2 = true ∧
          ∀ w, vmmIsMapped w s = true → vmmIsMapped w (vmmMapPage v p flags s).2 = true) := by
  have hOutcome := vmmMapPage_outcome s v p flags
  generalize vmmMapPage v p flags s = result at hOutcome ⊢
  rcases result with ⟨done, s₁⟩
  cases hOutcome with
  | refused vmm hVmm hWhy => exact ⟨hSep.withVmm vmm, nofun⟩
  | noTable vmm vmm' hInit hValid hVmm t s' hTable hNone hVmm' =>
    have hFound := vmmGetOrCreatePageTable_spec (hSep.withVmm vmm) (pageAlignDown v) flags
    rw [hTable] at hFound
    rcases hFound with ⟨-, hSep'⟩ | hReady
    · exact ⟨hSep'.withVmm vmm', nofun⟩
    · exact ⟨hReady.separate.withVmm vmm', nofun⟩
  | stored vmm vmm' hInit hValid hVmm t s' hTable hSome hVmm' =>
    have hFound := vmmGetOrCreatePageTable_spec (hSep.withVmm vmm) (pageAlignDown v) flags
    rw [hTable] at hFound
    have hReady := hFound.resolve_left fun h => hSome h.1
    have hInit' : vmm'.initialized = true := by
      rw [hVmm', hReady.initialized]
      exact hVmm.trans hInit
    have hEntry : entryPresent (pageAlignDown p ||| vmmPagePresent ||| flags) = true := by simp
    rcases hReady.store hEntry with ⟨hSep₃, hHas, hStored, hKept⟩
    refine ⟨hSep₃.withVmm vmm', fun _ => ⟨?_, ?_⟩⟩
    · exact (vmmIsMapped_iff _ _).mpr ⟨hInit', hHas, hStored⟩
    · intro w hw
      rcases (vmmIsMapped_iff _ _).mp hw with ⟨-, hwHas, hwIn⟩
      rcases hKept _ hwHas hwIn with ⟨hwHas₃, hwIn₃⟩
      exact (vmmIsMapped_iff _ _).mpr ⟨hInit', hwHas₃, hwIn₃⟩

/- The ways `vmm_unmap_page` ends: refused, nothing mapped there, or with the entry cleared. -/
inductive UnmapOutcome (s : PageState) (v : Nat) : Bool → PageState → Prop
| missing
    (vmm : VmmStats)
    (hVmm : vmm.initialized = s.vmm.initialized)
    (hWhy : vmmIsMapped v s = false)
    (hAudited : vmm.audited = s.vmm.audited) :
    UnmapOutcome s v false { s with vmm := vmm }
| cleared
    (vmm : VmmStats)
    (hVmm : vmm.initialized = s.vmm.initialized)
    (hMapped : vmmIsMapped v s = true)
    (hHas : s.HasTable (pageAlignDown v))
    (hAudited : vmm.audited = (s.vmm.mappedPages - 1, s.vmm.lastMappedVirtualAddress)) :
    UnmapOutcome s v true { s.write (s.tableSlot (pageAlignDown v)) 0 with vmm := vmm }

theorem vmmUnmapPage_outcome (s : PageState) (v : Nat) :
    UnmapOutcome s v (vmmUnmapPage v s).1 (vmmUnmapPage v s).2 := by
  unfold vmmUnmapPage
  cases hInit : s.vmm.initialized with
  | false => exact .missing _ rfl (by simp [vmmIsMapped, hInit]) rfl
  | true =>
    rw [if_neg (show ¬ true = false from nofun)]
    dsimp only
    cases hHas : entryPresent (s.memory (s.directorySlot (pageAlignDown v))) with
    | false => exact .missing _ rfl (by simp [vmmIsMapped, hInit, hHas]) rfl
    | true =>
      cases hIn : entryPresent (s.memory (s.tableSlot (pageAlignDown v))) with
      | false => exact .missing _ rfl (by simp [vmmIsMapped, hInit, hHas, hIn]) rfl
      | true =>
        refine .cleared _ rfl (by simp [vmmIsMapped, hInit, hHas, hIn]) hHas (Prod.ext ?_ rfl)
        -- The counter stops at zero, as the subtraction does.
        change (if 0 < s.vmm.mappedPages then s.vmm.mappedPages - 1 else s.vmm.mappedPages) = _
        split_ifs <;> omega

theorem vmmUnmapPage_separate (hSep : s.Separate held) (v : Nat) :
    (vmmUnmapPage v s).2.Separate held := by
  have hOutcome := vmmUnmapPage_outcome s v
  generalize vmmUnmapPage v s = result at hOutcome ⊢
  rcases result with ⟨done, s₁⟩
  cases hOutcome with
  | missing vmm hVmm hWhy => exact hSep.withVmm vmm
  | cleared vmm hVmm hMapped hHas =>
    have hApart : ∀ w, s.directorySlot w ≠ s.tableSlot (pageAlignDown v) := by
      intro w
      exact slot_ne hSep.directoryAligned (tableFor_mod s _) (Ne.symm (hSep.tableApart _ hHas))
        (pageDirectoryIndex_lt w) (pageTableIndex_lt _)
    have hCleared : (s.write (s.tableSlot (pageAlignDown v)) 0).Separate held := by
      refine hSep.ofTables hSep.pmm (fun q hq => hq) rfl ?_
      intro w hw
      exact Or.inl ⟨(hasTable_write_apart s hApart 0 w).mp hw, tableFor_write_apart s hApart 0 w⟩
    exact hCleared.withVmm vmm

end LiamOS.I386
