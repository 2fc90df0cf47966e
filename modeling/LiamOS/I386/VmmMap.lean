import LiamOS.Lib.Calls
import LiamOS.I386.Vmm

/-
  The i386 page tables as one map from virtual pages to physical pages and flags.

  The queries of `kernel/memory/vmm.c` read this map, a mapping sets one entry of it and an
  unmapping removes one. What is asked of the start is that the tables are pages apart from each
  other and from the directory, and that the pages still to come from the physical memory manager
  are none of them.

  Main declarations: `vmm_refines_pageMap`.
-/

namespace LiamOS.I386

open Word

variable {flags i t v w : Nat} {s s' : PageState} {b : Bool}
variable {m : Pmm}

----------
-- Queries

def vmmGetPhysicalAddress (virtualAddress : Nat) (s : PageState) : Nat :=
  if s.vmm.initialized = false then
    0
  else
    let alignedVirtual := pageAlignDown virtualAddress
    let offset := virtualAddress &&& 0xFFF
    if !entryPresent (s.memory (s.directorySlot alignedVirtual)) then
      0
    else if !entryPresent (s.memory (s.tableSlot alignedVirtual)) then
      0
    else
      u32 (pageAlignDown (s.memory (s.tableSlot alignedVirtual)) + offset)

def vmmValidateMapping (virtualAddress expectedFlags : Nat) (s : PageState) : Bool :=
  if s.vmm.initialized = false then
    false
  else if !vmmFlagsAreValid expectedFlags then
    false
  else
    let alignedVirtual := pageAlignDown virtualAddress
    if !entryPresent (s.memory (s.directorySlot alignedVirtual)) then
      false
    else
      let entry := s.memory (s.tableSlot alignedVirtual)
      if !entryPresent entry then false else entry &&& expectedFlags == expectedFlags

----------
-- The Map

/- Virtual pages, by number. -/
abbrev VirtualPage : Type := Fin 1048576

def virtualPage (address : Nat) : VirtualPage :=
  ⟨address / 4096 % 1048576, Nat.mod_lt _ (by norm_num)⟩

/- Where a virtual page lies, with the flags of its entry. -/
structure PageMapping where
  physicalPage : Nat
  flags : Nat
deriving DecidableEq

abbrev PageMap : Type := VirtualPage → Option PageMapping

def PageMap.set (m : PageMap) (page : VirtualPage) (mapping : Option PageMapping) : PageMap :=
  Function.update m page mapping

/- The table entry for an address, if it is present. -/
def PageState.entryFor (s : PageState) (v : Nat) : Option Nat :=
  if entryPresent (s.memory (s.directorySlot v)) then
    if entryPresent (s.memory (s.tableSlot v)) then some (s.memory (s.tableSlot v)) else none
  else
    none

def PageMapping.ofEntry (entry : Nat) : PageMapping where
  physicalPage := pageAlignDown entry
  flags := pageOffset entry

/- The map the tables in memory stand for. -/
def PageState.pageMap (s : PageState) : PageMap := fun page =>
    (s.entryFor (4096 * page.val)).map PageMapping.ofEntry

----------
-- Calls

inductive VmmCall
| map (virtualAddress physicalAddress flags : UInt32)
| unmap (virtualAddress : UInt32)
| getPhysicalAddress (virtualAddress : UInt32)
| isMapped (virtualAddress : UInt32)
| validateMapping (virtualAddress expectedFlags : UInt32)

def vmmStep (s : PageState) : VmmCall → Nat × PageState
| .map v p flags =>
    ((vmmMapPage v.toNat p.toNat flags.toNat s).1.toNat,
      (vmmMapPage v.toNat p.toNat flags.toNat s).2)
| .unmap v => ((vmmUnmapPage v.toNat s).1.toNat, (vmmUnmapPage v.toNat s).2)
| .getPhysicalAddress v => (vmmGetPhysicalAddress v.toNat s, s)
| .isMapped v => ((vmmIsMapped v.toNat s).toNat, s)
| .validateMapping v flags => ((vmmValidateMapping v.toNat flags.toNat s).toNat, s)

/-
  What the calls are for, over the map alone. Before `vmm_initialize` everything is refused. A
  mapping may also be refused for want of a page table.
-/
def PageMap.Answers (initialized : Bool) (m : PageMap) : VmmCall → Nat → PageMap → Prop
| .map v p flags, reply, m' =>
    (reply = 0 ∧ m' = m) ∨
      (reply = 1 ∧ initialized = true ∧ vmmFlagsAreValid flags.toNat = true ∧
        m' = m.set (virtualPage v.toNat)
            (some ⟨pageAlignDown p.toNat, vmmPagePresent ||| flags.toNat⟩))
| .unmap v, reply, m' =>
    if initialized = true ∧ m (virtualPage v.toNat) ≠ none then
      reply = 1 ∧ m' = m.set (virtualPage v.toNat) none
    else
      reply = 0 ∧ m' = m
| .getPhysicalAddress v, reply, m' =>
    m' = m ∧ reply = if initialized then
          match m (virtualPage v.toNat) with
          | none => 0
          | some mapping => mapping.physicalPage + v.toNat % 4096
        else
          0
| .isMapped v, reply, m' =>
    m' = m ∧ reply = if initialized = true ∧ m (virtualPage v.toNat) ≠ none then 1 else 0
| .validateMapping v flags, reply, m' =>
    m' = m ∧ reply = if initialized = true ∧ vmmFlagsAreValid flags.toNat = true then
          match m (virtualPage v.toNat) with
          | none => 0
          | some mapping => if mapping.flags &&& flags.toNat = flags.toNat then 1 else 0
        else
          0

----------
-- Addresses and Page Numbers

theorem pageDirectoryIndex_eq (v : Nat) : pageDirectoryIndex v = v / 4194304 % 1024 := by
  unfold pageDirectoryIndex
  rw [Nat.shiftRight_eq_div_pow, show 0x3FF = 2 ^ 10 - 1 from rfl, Nat.and_two_pow_sub_one_eq_mod]

theorem pageTableIndex_eq (v : Nat) : pageTableIndex v = v / 4096 % 1024 := by
  unfold pageTableIndex
  rw [Nat.shiftRight_eq_div_pow, show 0x3FF = 2 ^ 10 - 1 from rfl, Nat.and_two_pow_sub_one_eq_mod]

/- Two addresses have one page iff both indices agree. -/
theorem virtualPage_eq_iff (v w : Nat) : virtualPage v = virtualPage w ↔
      pageDirectoryIndex v = pageDirectoryIndex w ∧ pageTableIndex v = pageTableIndex w := by
  rw [pageDirectoryIndex_eq, pageDirectoryIndex_eq, pageTableIndex_eq, pageTableIndex_eq]
  unfold virtualPage
  rw [Fin.mk.injEq]
  omega

theorem pageAlignDown_eq (hWord : v < 4294967296) : pageAlignDown v = v - v % 4096 := by
  have hMask := and_not32_low (x := v) 12 (by omega) hWord
  have hConst : not32 (2 ^ 12 - 1) = 0xFFFFF000 := by decide
  rw [hConst] at hMask
  exact hMask

theorem virtualPage_alignDown (hWord : v < 4294967296) :
    virtualPage (pageAlignDown v) = virtualPage v := by
  rw [pageAlignDown_eq hWord]
  unfold virtualPage
  rw [Fin.mk.injEq]
  omega

theorem virtualPage_address (page : VirtualPage) : virtualPage (4096 * page.val) = page := by
  have hLt : page.val < 1048576 := page.isLt
  apply Fin.ext
  change 4096 * page.val / 4096 % 1048576 = page.val
  omega

theorem entryFor_congr (s : PageState) (hPage : virtualPage v = virtualPage w) :
    s.entryFor v = s.entryFor w := by
  obtain ⟨hDirectory, hTable⟩ := (virtualPage_eq_iff v w).mp hPage
  unfold PageState.entryFor PageState.tableSlot PageState.tableFor PageState.directorySlot
  rw [hDirectory, hTable]

theorem pageMap_virtualPage (s : PageState) (v : Nat) :
    s.pageMap (virtualPage v) = (s.entryFor v).map PageMapping.ofEntry := by
  unfold PageState.pageMap
  rw [entryFor_congr s (virtualPage_address (virtualPage v))]

/- States with the same entries stand for the same map. -/
theorem pageMap_congr (hEntries : ∀ w, s'.entryFor w = s.entryFor w) : s'.pageMap = s.pageMap := by
  funext page
  unfold PageState.pageMap
  rw [hEntries]

----------
-- Tables Apart and Fresh Pages

/- The page manager behind a number of allocations. -/
def Pmm.after (m : Pmm) (n : Nat) : Pmm := (fun m => (pmmAllocPage m).2)^[n] m

/- The page an allocation behind `n` others returns. -/
def Pmm.upcoming (m : Pmm) (n : Nat) : Nat := (pmmAllocPage (m.after n)).1

theorem upcoming_alloc (m : Pmm) (n : Nat) : (pmmAllocPage m).2.upcoming n = m.upcoming (n + 1) :=
  rfl

/- A page that is no table and not the directory. -/
structure PageState.FreshPage (s : PageState) (page : Nat) : Prop where
  aligned : page % 4096 = 0
  word : page < 4294967296
  apart : page ≠ s.directory
  noTable : ∀ w, s.HasTable w → page ≠ s.tableFor w

/-
  The tables are pages apart from each other and from the directory, and the pages to come are
  fresh.
-/
structure PageState.TablesLaid (s : PageState) : Prop where
  directoryAligned : s.directory % 4096 = 0
  tableApart : ∀ w, s.HasTable w → s.tableFor w ≠ s.directory
  tableDistinct : ∀ v w, s.HasTable v → s.HasTable w →
      s.tableFor v = s.tableFor w → pageDirectoryIndex v = pageDirectoryIndex w
  fresh : ∀ n, s.pmm.upcoming n ≠ 0 → s.FreshPage (s.pmm.upcoming n)
  freshOnce : ∀ i j, i < j → s.pmm.upcoming i ≠ 0 → s.pmm.upcoming i ≠ s.pmm.upcoming j

/- The same tables and the same pages to come. -/
theorem PageState.TablesLaid.of_same (hLaid : s.TablesLaid) (hPmm : s'.pmm = s.pmm)
    (hDirectory : s'.directory = s.directory) (hHas : ∀ w, s'.HasTable w ↔ s.HasTable w)
    (hTable : ∀ w, s'.tableFor w = s.tableFor w) :
    s'.TablesLaid := by
  refine ⟨?_, ?_, ?_, ?_, ?_⟩
  · rw [hDirectory]
    exact hLaid.directoryAligned
  · intro w hw
    rw [hTable, hDirectory]
    exact hLaid.tableApart w ((hHas w).mp hw)
  · intro v w hv hw hSame
    rw [hTable, hTable] at hSame
    exact hLaid.tableDistinct v w ((hHas v).mp hv) ((hHas w).mp hw) hSame
  · intro n hn
    rw [hPmm] at hn ⊢
    have hFresh := hLaid.fresh n hn
    refine ⟨hFresh.aligned, hFresh.word, ?_, ?_⟩
    · rw [hDirectory]
      exact hFresh.apart
    · intro w hw
      rw [hTable]
      exact hFresh.noTable w ((hHas w).mp hw)
  · intro i j hLt hi
    rw [hPmm] at hi ⊢
    exact hLaid.freshOnce i j hLt hi

theorem PageState.TablesLaid.withVmm (hLaid : s.TablesLaid) (vmm : VmmStats) :
    ({ s with vmm := vmm } : PageState).TablesLaid :=
  hLaid.of_same rfl rfl (fun _ => Iff.rfl) (fun _ => rfl)

/- An allocation leaves the pages behind it. -/
theorem PageState.TablesLaid.alloc (hLaid : s.TablesLaid) :
    ({ s with pmm := (pmmAllocPage s.pmm).2 } : PageState).TablesLaid :=
  ⟨hLaid.directoryAligned, hLaid.tableApart, hLaid.tableDistinct, fun n hn =>
      ⟨(hLaid.fresh (n + 1) hn).aligned, (hLaid.fresh (n + 1) hn).word,
        (hLaid.fresh (n + 1) hn).apart, (hLaid.fresh (n + 1) hn).noTable⟩, fun i j hLt hi =>
      hLaid.freshOnce (i + 1) (j + 1) (by omega) hi⟩

theorem PageState.TablesLaid.slot_ne_tableSlot (hLaid : s.TablesLaid) (hHas : s.HasTable v)
    (w : Nat) :
    s.directorySlot w ≠ s.tableSlot v :=
  slot_ne hLaid.directoryAligned (tableFor_mod s v) (Ne.symm (hLaid.tableApart v hHas))
    (pageDirectoryIndex_lt w) (pageTableIndex_lt v)

----------
-- Storing a Table Entry

theorem entryFor_eq_none (hNone : ¬ s.HasTable w) : s.entryFor w = none := if_neg hNone

theorem entryFor_of_hasTable (hHas : s.HasTable w) :
    s.entryFor w = if entryPresent (s.memory (s.tableSlot w)) then
        some (s.memory (s.tableSlot w))
      else
        none :=
  if_pos hHas

/- The same table with the same word at the index. -/
theorem entryFor_of_word (hHas : s.HasTable w) (hHas' : s'.HasTable w)
    (hWord : s'.memory (s'.tableSlot w) = s.memory (s.tableSlot w)) :
    s'.entryFor w = s.entryFor w := by
  rw [entryFor_of_hasTable hHas, entryFor_of_hasTable hHas', hWord]

theorem PageState.TablesLaid.write_table (hLaid : s.TablesLaid) (hHas : s.HasTable v)
    (entry : Nat) :
    (s.write (s.tableSlot v) entry).TablesLaid :=
  hLaid.of_same rfl rfl (hasTable_write_apart s (hLaid.slot_ne_tableSlot hHas) entry)
    (tableFor_write_apart s (hLaid.slot_ne_tableSlot hHas) entry)

/- A stored entry is the entry of its page and of no other. -/
theorem entryFor_write_table (hLaid : s.TablesLaid) (hHas : s.HasTable v) (entry w : Nat) :
    (s.write (s.tableSlot v) entry).entryFor w = if virtualPage w = virtualPage v then
        if entryPresent entry then some entry else none
      else
        s.entryFor w := by
  have hApart := hLaid.slot_ne_tableSlot hHas
  have hStill := hasTable_write_apart s hApart entry
  have hSlot : ∀ x, (s.write (s.tableSlot v) entry).tableSlot x = s.tableSlot x := by
    intro x
    exact congrArg (· + 4 * pageTableIndex x) (tableFor_write_apart s hApart entry x)
  by_cases hPage : virtualPage w = virtualPage v
  · rw [if_pos hPage, entryFor_congr _ hPage, entryFor_of_hasTable ((hStill v).mpr hHas), hSlot,
      write_memory_self]
  rw [if_neg hPage]
  by_cases hwHas : s.HasTable w
  · refine entryFor_of_word hwHas ((hStill w).mpr hwHas) ?_
    rw [hSlot]
    -- In another table, or at another index of this one.
    have hOther : s.tableSlot w ≠ s.tableSlot v := by
      by_cases hTable : s.tableFor w = s.tableFor v
      · intro hSame
        apply hPage
        refine (virtualPage_eq_iff w v).mpr ⟨hLaid.tableDistinct w v hwHas hHas hTable, ?_⟩
        unfold PageState.tableSlot at hSame
        omega
      · exact slot_ne (tableFor_mod s w) (tableFor_mod s v)
          hTable (pageTableIndex_lt w) (pageTableIndex_lt v)
    exact write_memory_ne _ _ hOther
  · rw [entryFor_eq_none hwHas, entryFor_eq_none fun h => hwHas ((hStill w).mp h)]

----------
-- Finding and Entering Tables

/- Neither the directory nor a table lies at address zero. -/
structure PageState.Rooted (s : PageState) : Prop where
  directory : s.directory ≠ 0
  tables : ∀ w, s.HasTable w → s.tableFor w ≠ 0

theorem PageState.Rooted.of_same (hRooted : s.Rooted) (hDirectory : s'.directory = s.directory)
    (hHas : ∀ w, s'.HasTable w ↔ s.HasTable w) (hTable : ∀ w, s'.tableFor w = s.tableFor w) :
    s'.Rooted := by
  refine ⟨hDirectory ▸ hRooted.directory, ?_⟩
  intro w hw
  rw [hTable]
  exact hRooted.tables w ((hHas w).mp hw)

/- The table `t` of an address is there, and no entry has changed. -/
structure TableFound (s : PageState) (v t : Nat) (s' : PageState) : Prop where
  laid : s'.TablesLaid
  initialized : s'.vmm.initialized = s.vmm.initialized
  entries : ∀ w, s'.entryFor w = s.entryFor w
  has : s'.HasTable v
  table : s'.tableFor v = t
  audited : s'.vmm.audited = s.vmm.audited
  rooted : s.Rooted → s'.Rooted

theorem tableFound_self (hLaid : s.TablesLaid) (hHas : s.HasTable v) :
    TableFound s v (s.tableFor v) s :=
  ⟨hLaid, rfl, fun _ => rfl, hHas, rfl, rfl, id⟩

/- The user bit set in the directory entry. -/
theorem tableFound_mark (hLaid : s.TablesLaid) (hHas : s.HasTable v)
    (hFlags : flags &&& 0xFFFFF000 = 0) :
    TableFound s v (s.tableFor v)
      (s.write (s.directorySlot v) (s.memory (s.directorySlot v) ||| flags)) := by
  have hStill := hasTable_mark hHas flags
  have hTable := tableFor_mark s v hFlags
  refine ⟨hLaid.of_same rfl rfl hStill hTable, rfl, ?_, (hStill v).mpr hHas, hTable v, rfl,
    fun hRooted => hRooted.of_same rfl hStill hTable⟩
  intro w
  by_cases hwHas : s.HasTable w
  · refine entryFor_of_word hwHas ((hStill w).mpr hwHas) ?_
    unfold PageState.tableSlot
    rw [hTable w]
    exact write_memory_ne _ _
      (slot_ne (tableFor_mod s w) hLaid.directoryAligned
        (hLaid.tableApart w hwHas) (pageTableIndex_lt w) (pageDirectoryIndex_lt v))
  · rw [entryFor_eq_none hwHas, entryFor_eq_none fun h => hwHas ((hStill w).mp h)]

theorem vmmClearPageTable_inside (pageTable : Nat) (n : Nat) (s : PageState) (hi : i < n) :
    (vmmClearPageTable pageTable n s).memory (pageTable + 4 * i) = 0 := by
  induction n with
  | zero => omega
  | succ n ih =>
    unfold vmmClearPageTable
    by_cases hLast : i = n
    · rw [hLast, write_memory_self]
    · rw [write_memory_ne _ _ (by omega)]
      exact ih (by omega)

/- The words of a table that has just been entered are clear. -/
theorem entered_memory (hDirectory : s.directory % 4096 = 0) (hAligned : t % 4096 = 0)
    (hApart : t ≠ s.directory) (v flags : Nat) (hi : i < 1024) :
    (s.entered v t flags).memory (t + 4 * i) = 0 := by
  have hNe : t + 4 * i ≠ s.directorySlot v :=
    slot_ne hAligned hDirectory hApart hi (pageDirectoryIndex_lt v)
  unfold PageState.entered
  rw [write_memory_ne _ _ hNe]
  exact vmmClearPageTable_inside t 1024 s hi

/- The words of the other tables are kept. -/
theorem entered_memory_other {x : Nat} (hDirectory : s.directory % 4096 = 0)
    (hAligned : t % 4096 = 0) (hx : x % 4096 = 0) (hxDirectory : x ≠ s.directory) (hxTable : t ≠ x)
    (v flags : Nat) (hi : i < 1024) :
    (s.entered v t flags).memory (x + 4 * i) = s.memory (x + 4 * i) := by
  have hNe : x + 4 * i ≠ s.directorySlot v :=
    slot_ne hx hDirectory hxDirectory hi (pageDirectoryIndex_lt v)
  unfold PageState.entered
  rw [write_memory_ne _ _ hNe]
  apply vmmClearPageTable_memory
  intro j hj
  exact slot_ne hx hAligned (Ne.symm hxTable) hi hj

theorem directorySlot_eq_iff (s : PageState) (v w : Nat) :
    s.directorySlot v = s.directorySlot w ↔ pageDirectoryIndex v = pageDirectoryIndex w := by
  unfold PageState.directorySlot
  omega

/- The pages to come behind a fresh page stay fresh. -/
theorem PageState.TablesLaid.entered (hLaid : s.TablesLaid) (hFresh : s.FreshPage t)
    (hLater : ∀ n, s.pmm.upcoming n ≠ t) (hFlags : flags &&& 0xFFFFF000 = 0) :
    (s.entered v t flags).TablesLaid := by
  have hHas := hasTable_entered hLaid.directoryAligned hFresh.aligned hFresh.apart v flags
  have hTable :=
    tableFor_entered hLaid.directoryAligned hFresh.aligned hFresh.word hFresh.apart hFlags v
  obtain ⟨hPmm', hDirectory', -⟩ := entered_rest s v t flags
  refine ⟨?_, ?_, ?_, ?_, ?_⟩
  · rw [hDirectory']
    exact hLaid.directoryAligned
  · intro w hw
    rw [hTable, hDirectory']
    split
    · exact hFresh.apart
    · next hOther =>
        exact hLaid.tableApart w (((hHas w).mp hw).resolve_left hOther)
  · intro x y hx hy hSame
    rw [hTable, hTable] at hSame
    by_cases hxSlot : s.directorySlot x = s.directorySlot v
    · by_cases hySlot : s.directorySlot y = s.directorySlot v
      · exact (directorySlot_eq_iff s x y).mp (hxSlot.trans hySlot.symm)
      · rw [if_pos hxSlot, if_neg hySlot] at hSame
        exact absurd hSame (hFresh.noTable y (((hHas y).mp hy).resolve_left hySlot))
    · have hxOld := ((hHas x).mp hx).resolve_left hxSlot
      by_cases hySlot : s.directorySlot y = s.directorySlot v
      · rw [if_neg hxSlot, if_pos hySlot] at hSame
        exact absurd hSame.symm (hFresh.noTable x hxOld)
      · rw [if_neg hxSlot, if_neg hySlot] at hSame
        exact hLaid.tableDistinct x y hxOld (((hHas y).mp hy).resolve_left hySlot) hSame
  · intro n hn
    rw [hPmm'] at hn ⊢
    have hUp := hLaid.fresh n hn
    refine ⟨hUp.aligned, hUp.word, ?_, ?_⟩
    · rw [hDirectory']
      exact hUp.apart
    · intro w hw
      rw [hTable]
      split
      · exact hLater n
      · next hOther =>
          exact hUp.noTable w (((hHas w).mp hw).resolve_left hOther)
  · intro i j hLt hi
    rw [hPmm'] at hi ⊢
    exact hLaid.freshOnce i j hLt hi

/- A fresh table has no present entry. -/
theorem entryFor_entered (hLaid : s.TablesLaid) (hFresh : s.FreshPage t) (hNone : ¬ s.HasTable v)
    (hFlags : flags &&& 0xFFFFF000 = 0) (w : Nat) :
    (s.entered v t flags).entryFor w = s.entryFor w := by
  have hHas := hasTable_entered hLaid.directoryAligned hFresh.aligned hFresh.apart v flags
  have hTable :=
    tableFor_entered hLaid.directoryAligned hFresh.aligned hFresh.word hFresh.apart hFlags v
  by_cases hSlot : s.directorySlot w = s.directorySlot v
  · have hwNone : ¬ s.HasTable w := by
      unfold PageState.HasTable
      rw [hSlot]
      exact hNone
    rw [entryFor_eq_none hwNone, entryFor_of_hasTable ((hHas w).mpr (Or.inl hSlot))]
    unfold PageState.tableSlot
    rw [hTable, if_pos hSlot, entered_memory hLaid.directoryAligned hFresh.aligned
        hFresh.apart v flags (pageTableIndex_lt w)]
    rfl
  by_cases hwHas : s.HasTable w
  · refine entryFor_of_word hwHas ((hHas w).mpr (Or.inr hwHas)) ?_
    unfold PageState.tableSlot
    rw [hTable, if_neg hSlot]
    exact entered_memory_other hLaid.directoryAligned hFresh.aligned (tableFor_mod s w)
      (hLaid.tableApart w hwHas) (hFresh.noTable w hwHas) v
      flags (pageTableIndex_lt w)
  · rw [entryFor_eq_none hwHas, entryFor_eq_none]
    intro hw
    rcases (hHas w).mp hw with hSame | hOld
    · exact hSlot hSame
    · exact hwHas hOld

theorem tableFound_entered (hLaid : s.TablesLaid) (hFresh : s.FreshPage t) (hSome : t ≠ 0)
    (hLater : ∀ n, s.pmm.upcoming n ≠ t) (hNone : ¬ s.HasTable v)
    (hFlags : flags &&& 0xFFFFF000 = 0) :
    TableFound s v t (s.entered v t flags) := by
  have hHas := hasTable_entered hLaid.directoryAligned hFresh.aligned hFresh.apart v flags
  have hTable :=
    tableFor_entered hLaid.directoryAligned hFresh.aligned hFresh.word hFresh.apart hFlags v
  obtain ⟨-, hDirectory', hVmm'⟩ := entered_rest s v t flags
  refine ⟨hLaid.entered hFresh hLater hFlags, by rw [hVmm'],
    entryFor_entered hLaid hFresh hNone hFlags, (hHas v).mpr (Or.inl rfl), ?_, by rw [hVmm'], ?_⟩
  · rw [hTable, if_pos rfl]
  · refine fun hRooted => ⟨?_, ?_⟩
    · rw [hDirectory']
      exact hRooted.directory
    intro w hw
    rw [hTable]
    split
    · exact hSome
    · next hOther => exact hRooted.tables w (((hHas w).mp hw).resolve_left hOther)

/- Neither the counters nor the page manager hold entries. -/
theorem TableFound.withVmm (hFound : TableFound s v t s') {vmm : VmmStats}
    (hVmm : vmm.initialized = s.vmm.initialized) (hAudited : vmm.audited = s.vmm.audited) :
    TableFound s v t { s' with vmm := vmm } :=
  ⟨hFound.laid.withVmm vmm, hVmm, hFound.entries, hFound.has, hFound.table, hAudited,
    fun hRooted => { hFound.rooted hRooted with }⟩

theorem TableFound.ofPmm {pmm : Pmm} (hFound : TableFound { s with pmm := pmm } v t s') :
    TableFound s v t s' :=
  { hFound with rooted := fun hRooted => hFound.rooted { hRooted with } }

/- Either there is neither a table nor a page for one, or the table is there. -/
theorem vmmGetOrCreatePageTable_found (hLaid : s.TablesLaid) (v flags : Nat) :
    (¬ s.HasTable v ∧ (pmmAllocPage s.pmm).1 = 0 ∧
        vmmGetOrCreatePageTable v flags s = (0, { s with pmm := (pmmAllocPage s.pmm).2 })) ∨
      TableFound s v (vmmGetOrCreatePageTable v flags s).1
        (vmmGetOrCreatePageTable v flags s).2 := by
  have hOutcome := vmmGetOrCreatePageTable_outcome v flags s
  generalize vmmGetOrCreatePageTable v flags s = result at hOutcome ⊢
  rcases result with ⟨t, s'⟩
  dsimp only at hOutcome ⊢
  cases hOutcome with
  | none hNone hEmpty => exact Or.inl ⟨hNone, hEmpty, rfl⟩
  | found hHas => exact Or.inr (tableFound_self hLaid hHas)
  | marked hHas => exact Or.inr (tableFound_mark hLaid hHas (by decide))
  | created hNone hSome hFlags =>
    have hFresh := hLaid.fresh 0 hSome
    have hLater : ∀ n, (pmmAllocPage s.pmm).2.upcoming n ≠ (pmmAllocPage s.pmm).1 :=
      fun n => (hLaid.freshOnce 0 (n + 1) (by omega) hSome).symm
    have hFound := tableFound_entered hLaid.alloc
        ⟨hFresh.aligned, hFresh.word, hFresh.apart, hFresh.noTable⟩ hSome hLater hNone hFlags
    refine Or.inr (hFound.withVmm ?_ ?_).ofPmm
    · rfl
    · rfl

----------
-- Flags

section

variable (hWord : flags < 4294967296) (hValid : vmmFlagsAreValid flags = true)
include hWord hValid

theorem flags_of_valid :
    flags &&& vmmAllowedFlags = flags := by
  have hNone : flags &&& not32 vmmAllowedFlags = 0 := by simpa [vmmFlagsAreValid] using hValid
  calc
    flags &&& vmmAllowedFlags
    _ = (flags &&& vmmAllowedFlags) |||
          (flags &&& not32 vmmAllowedFlags) := by
          rw [hNone, Nat.or_zero]
    _ = flags &&& (vmmAllowedFlags ||| not32 vmmAllowedFlags) :=
          (Nat.and_or_distrib_left flags _ _).symm
    _ = flags &&& (2 ^ 32 - 1) := by
          congr 1
    _ = flags := by
          rw [Nat.and_two_pow_sub_one_eq_mod]
          exact Nat.mod_eq_of_lt hWord

/- The allowed flags lie in the offset part of an entry. -/
theorem flags_and_of_valid (mask : Nat) :
    flags &&& mask = flags &&& (vmmAllowedFlags &&& mask) := by
  rw [← Nat.and_assoc, flags_of_valid hWord hValid]

theorem ofEntry_stored (p : Nat) :
    PageMapping.ofEntry (pageAlignDown p ||| vmmPagePresent ||| flags) =
      ⟨pageAlignDown p, vmmPagePresent ||| flags⟩ := by
  have hHigh : flags &&& 0xFFFFF000 = 0 := by
    rw [flags_and_of_valid hWord hValid]
    exact Nat.and_zero flags
  have hLow : flags &&& 0xFFF = flags := by
    rw [flags_and_of_valid hWord hValid]
    exact flags_of_valid hWord hValid
  have hPage : pageAlignDown p &&& 0xFFF = 0 := by
    rw [pageAlignDown, Nat.and_assoc]
    exact Nat.and_zero p
  unfold PageMapping.ofEntry
  rw [PageMapping.mk.injEq]
  refine ⟨?_, ?_⟩
  · rw [pageAlignDown_or _ hHigh, pageAlignDown_or _ (by decide),
      pageAlignDown, pageAlignDown, Nat.and_assoc,
      Nat.and_self]
  · unfold pageOffset
    rw [Nat.and_or_distrib_right, Nat.and_or_distrib_right, hPage, hLow, Nat.zero_or]
    rfl

/- Allowed flags are looked for in the offset part only. -/
theorem pageOffset_and_of_valid (entry : Nat) :
    pageOffset entry &&& flags = entry &&& flags := by
  unfold pageOffset
  rw [Nat.and_assoc, Nat.and_comm 0xFFF, flags_and_of_valid hWord hValid]
  exact congrArg (entry &&& ·) (flags_of_valid hWord hValid)

end

----------
-- What the Queries Read

theorem vmmIsMapped_eq (v : Nat) (s : PageState) :
    vmmIsMapped v s = true ↔ s.vmm.initialized = true ∧ s.entryFor (pageAlignDown v) ≠ none := by
  rw [vmmIsMapped_iff]
  refine and_congr_right fun _ => ?_
  by_cases hHas : s.HasTable (pageAlignDown v)
  · rw [entryFor_of_hasTable hHas]
    simp [hHas]
  · simp [entryFor_eq_none hHas, hHas]

theorem vmmGetPhysicalAddress_eq (v : Nat) (s : PageState) :
    vmmGetPhysicalAddress v s = if s.vmm.initialized then
        match s.entryFor (pageAlignDown v) with
        | none => 0
        | some entry => pageAlignDown entry + v % 4096
      else
        0 := by
  have hOffset : v &&& 0xFFF = v % 4096 := Nat.and_two_pow_sub_one_eq_mod v 12
  have hWord : ∀ entry, u32 (pageAlignDown entry + v % 4096) = pageAlignDown entry + v % 4096 := by
    intro entry
    have hHigh : pageAlignDown entry ≤ 0xFFFFF000 := Nat.and_le_right
    exact u32_of_lt (by omega)
  unfold vmmGetPhysicalAddress PageState.entryFor
  dsimp only
  rw [hOffset]
  cases s.vmm.initialized with
  | false => rfl
  | true =>
    cases entryPresent (s.memory (s.directorySlot (pageAlignDown v))) with
    | false => rfl
    | true =>
      cases entryPresent (s.memory (s.tableSlot (pageAlignDown v))) with
      | false => rfl
      | true => exact hWord _

theorem vmmValidateMapping_eq (v flags : Nat) (s : PageState) : vmmValidateMapping v flags s =
      (s.vmm.initialized && vmmFlagsAreValid flags &&
        match s.entryFor (pageAlignDown v) with
        | none => false
        | some entry => entry &&& flags == flags) := by
  unfold vmmValidateMapping PageState.entryFor
  dsimp only
  cases s.vmm.initialized with
  | false => rfl
  | true =>
    cases vmmFlagsAreValid flags with
    | false => rfl
    | true =>
      cases entryPresent (s.memory (s.directorySlot (pageAlignDown v))) with
      | false => rfl
      | true =>
        cases entryPresent (s.memory (s.tableSlot (pageAlignDown v))) with
        | false => rfl
        | true => rfl

----------
-- One Call

/- The map entry for an address given to a call. -/
theorem pageMap_of_alignDown (s : PageState) (v : UInt32) : s.pageMap (virtualPage v.toNat) =
      (s.entryFor (pageAlignDown v.toNat)).map PageMapping.ofEntry := by
  rw [← virtualPage_alignDown v.toNat_lt, pageMap_virtualPage]

theorem pageMap_write_table (hLaid : s.TablesLaid) {v : UInt32}
    (hHas : s.HasTable (pageAlignDown v.toNat)) (entry : Nat) :
    (s.write (s.tableSlot (pageAlignDown v.toNat)) entry).pageMap =
      s.pageMap.set (virtualPage v.toNat)
        ((if entryPresent entry then some entry else none).map PageMapping.ofEntry) := by
  funext page
  unfold PageState.pageMap PageMap.set
  rw [entryFor_write_table hLaid hHas, virtualPage_address, virtualPage_alignDown v.toNat_lt]
  by_cases hPage : page = virtualPage v.toNat
  · rw [if_pos hPage, hPage, Function.update_self]
  · rw [if_neg hPage, Function.update_of_ne hPage]

theorem pageMap_withVmm (s : PageState) (vmm : VmmStats) :
    ({ s with vmm := vmm } : PageState).pageMap = s.pageMap := rfl

/- The states in which the tables stand for a map. -/
structure PageState.MapReady (initialized : Bool) (s : PageState) : Prop where
  laid : s.TablesLaid
  initialized : s.vmm.initialized = initialized

theorem map_answers (hReady : s.MapReady b) (v p flags : UInt32) :
    (vmmMapPage v.toNat p.toNat flags.toNat s).2.MapReady b ∧
      s.pageMap.Answers b (.map v p flags) (vmmMapPage v.toNat p.toNat flags.toNat s).1.toNat
        (vmmMapPage v.toNat p.toNat flags.toNat s).2.pageMap := by
  have hOutcome := vmmMapPage_outcome s v.toNat p.toNat flags.toNat
  generalize vmmMapPage v.toNat p.toNat flags.toNat s = result at hOutcome ⊢
  rcases result with ⟨done, s₁⟩
  cases hOutcome with
  | refused vmm hVmm hWhy =>
    exact ⟨⟨hReady.laid.withVmm vmm, hVmm.trans hReady.initialized⟩, Or.inl ⟨rfl, rfl⟩⟩
  | noTable vmm vmm' hInit hValid hVmm t s' hTable hNone hVmm' =>
    have hFound :=
      vmmGetOrCreatePageTable_found (hReady.laid.withVmm vmm) (pageAlignDown v.toNat) flags.toNat
    rw [hTable] at hFound
    rcases hFound with ⟨-, -, hEq⟩ | hFound
    · have hs' := congrArg Prod.snd hEq
      dsimp only at hs'
      rw [hs'] at hVmm' ⊢
      exact ⟨⟨(hReady.laid.withVmm vmm).alloc.withVmm vmm',
        (hVmm'.trans hVmm).trans hReady.initialized⟩, Or.inl ⟨rfl, rfl⟩⟩
    · refine ⟨⟨hFound.laid.withVmm vmm', ?_⟩, Or.inl ⟨rfl, ?_⟩⟩
      · exact (hVmm'.trans (hFound.initialized.trans hVmm)).trans hReady.initialized
      · exact pageMap_congr hFound.entries
  | stored vmm vmm' hInit hValid hVmm t s' hTable hSome hVmm' =>
    have hFound :=
      vmmGetOrCreatePageTable_found (hReady.laid.withVmm vmm) (pageAlignDown v.toNat) flags.toNat
    rw [hTable] at hFound
    have hFound := hFound.resolve_left fun h =>
        hSome (congrArg Prod.fst h.2.2)
    dsimp only at hFound
    have hSlot : t + 4 * pageTableIndex (pageAlignDown v.toNat) =
          s'.tableSlot (pageAlignDown v.toNat) := by
      rw [PageState.tableSlot, hFound.table]
    have hPresent :
        entryPresent (pageAlignDown p.toNat ||| vmmPagePresent ||| flags.toNat) = true := by
      simp
    rw [hSlot]
    refine ⟨⟨(hFound.laid.write_table hFound.has _).withVmm vmm', ?_⟩, Or.inr ⟨rfl, ?_, hValid, ?_⟩⟩
    · exact (hVmm'.trans (hFound.initialized.trans hVmm)).trans hReady.initialized
    · rw [← hReady.initialized]
      exact hInit
    · rw [pageMap_withVmm, pageMap_write_table hFound.laid hFound.has,
        if_pos hPresent, Option.map_some, ofEntry_stored flags.toNat_lt hValid,
        pageMap_congr hFound.entries]
      rfl

theorem answers_unmap_missing {m : PageMap} {v : UInt32}
    (hNone : ¬ (b = true ∧ m (virtualPage v.toNat) ≠ none)) :
    m.Answers b (.unmap v) 0 m := by
  dsimp only [PageMap.Answers]
  rw [if_neg hNone]
  exact ⟨rfl, rfl⟩

theorem answers_unmap_done {m : PageMap} {v : UInt32}
    (hSome : b = true ∧ m (virtualPage v.toNat) ≠ none) :
    m.Answers b (.unmap v) 1 (m.set (virtualPage v.toNat) none) := by
  dsimp only [PageMap.Answers]
  rw [if_pos hSome]
  exact ⟨rfl, rfl⟩

theorem unmap_answers (hReady : s.MapReady b) (v : UInt32) : (vmmUnmapPage v.toNat s).2.MapReady b ∧
      s.pageMap.Answers b (.unmap v) (vmmUnmapPage v.toNat s).1.toNat
        (vmmUnmapPage v.toNat s).2.pageMap := by
  have hMappedIff :
      vmmIsMapped v.toNat s = true ↔ b = true ∧ s.pageMap (virtualPage v.toNat) ≠ none := by
    rw [vmmIsMapped_eq, hReady.initialized, pageMap_of_alignDown]
    simp
  have hOutcome := vmmUnmapPage_outcome s v.toNat
  generalize vmmUnmapPage v.toNat s = result at hOutcome ⊢
  rcases result with ⟨done, s₁⟩
  cases hOutcome with
  | missing vmm hVmm hWhy =>
    have hNot : ¬ (b = true ∧ s.pageMap (virtualPage v.toNat) ≠ none) := by
      rw [← hMappedIff, hWhy]
      nofun
    exact ⟨⟨hReady.laid.withVmm vmm, hVmm.trans hReady.initialized⟩, answers_unmap_missing hNot⟩
  | cleared vmm hVmm hMapped hHas =>
    have hCleared := pageMap_write_table hReady.laid hHas 0
    refine ⟨⟨(hReady.laid.write_table hHas 0).withVmm vmm, hVmm.trans hReady.initialized⟩, ?_⟩
    change s.pageMap.Answers b (.unmap v) 1
      (s.write (s.tableSlot (pageAlignDown v.toNat)) 0).pageMap
    rw [hCleared]
    exact answers_unmap_done (hMappedIff.mp hMapped)

theorem vmmStep_answers (s : PageState) (c : VmmCall) (hReady : s.MapReady b) :
    (vmmStep s c).2.MapReady b ∧ s.pageMap.Answers b c (vmmStep s c).1 (vmmStep s c).2.pageMap := by
  cases c with
  | map v p flags => exact map_answers hReady v p flags
  | unmap v => exact unmap_answers hReady v
  | getPhysicalAddress v =>
    refine ⟨hReady, rfl, ?_⟩
    rw [pageMap_of_alignDown, ← hReady.initialized]
    change vmmGetPhysicalAddress v.toNat s = _
    rw [vmmGetPhysicalAddress_eq]
    cases s.entryFor (pageAlignDown v.toNat) with
    | none => rfl
    | some entry => rfl
  | isMapped v =>
    refine ⟨hReady, rfl, ?_⟩
    have hIff := vmmIsMapped_eq v.toNat s
    rw [pageMap_of_alignDown, ← hReady.initialized]
    change (vmmIsMapped v.toNat s).toNat = _
    cases hMapped : vmmIsMapped v.toNat s with
    | false =>
      rw [hMapped] at hIff
      rw [if_neg (by simpa using hIff)]
      rfl
    | true =>
      rw [hMapped] at hIff
      rw [if_pos (by simpa using hIff)]
      rfl
  | validateMapping v flags =>
    refine ⟨hReady, rfl, ?_⟩
    rw [pageMap_of_alignDown, ← hReady.initialized]
    change (vmmValidateMapping v.toNat flags.toNat s).toNat = _
    rw [vmmValidateMapping_eq]
    cases s.vmm.initialized with
    | false => rfl
    | true =>
      cases hValid : vmmFlagsAreValid flags.toNat with
      | false => rfl
      | true =>
        cases s.entryFor (pageAlignDown v.toNat) with
        | none => rfl
        | some entry =>
          have hSame := pageOffset_and_of_valid flags.toNat_lt hValid entry
          by_cases hHas : entry &&& flags.toNat = flags.toNat
          · simp [PageMapping.ofEntry, hSame, hHas]
          · simp [PageMapping.ofEntry, hSame, hHas]

----------
-- When a Mapping Is Made

/- There is a table for the address, or a page for one. -/
def PageState.TableToHand (s : PageState) (v : Nat) : Prop :=
  (s.HasTable v ∧ s.tableFor v ≠ 0) ∨ (¬ s.HasTable v ∧ (pmmAllocPage s.pmm).1 ≠ 0)

theorem vmmGetOrCreatePageTable_ne_zero (v flags : Nat) (s : PageState) :
    (vmmGetOrCreatePageTable v flags s).1 ≠ 0 ↔ s.TableToHand v := by
  have hOutcome := vmmGetOrCreatePageTable_outcome v flags s
  unfold PageState.TableToHand
  generalize vmmGetOrCreatePageTable v flags s = result at hOutcome ⊢
  rcases result with ⟨t, s'⟩
  dsimp only at hOutcome ⊢
  cases hOutcome with
  | none hNone hEmpty => simp [hNone, hEmpty]
  | found hHas => simp [hHas]
  | marked hHas => simp [hHas]
  | created hNone hSome hFlags => simp [hNone, hSome]

theorem vmmMapPage_succeeds_iff (v p flags : Nat) (s : PageState) :
    (vmmMapPage v p flags s).1 = true ↔ s.vmm.initialized = true ∧ vmmFlagsAreValid flags = true ∧
        s.TableToHand (pageAlignDown v) := by
  have hOutcome := vmmMapPage_outcome s v p flags
  generalize vmmMapPage v p flags s = result at hOutcome ⊢
  rcases result with ⟨done, s₁⟩
  cases hOutcome with
  | refused vmm hVmm hWhy =>
    refine ⟨nofun, ?_⟩
    rintro ⟨hInit, hValid, -⟩
    rcases hWhy with hNot | hNot
    · rw [hInit] at hNot
      exact absurd hNot nofun
    · rw [hValid] at hNot
      exact absurd hNot nofun
  | noTable vmm vmm' hInit hValid hVmm t s' hTable hNone hVmm' =>
    refine ⟨nofun, ?_⟩
    rintro ⟨-, -, hHand⟩
    have hSome :=
      (vmmGetOrCreatePageTable_ne_zero (pageAlignDown v) flags { s with vmm := vmm }).mpr hHand
    rw [hTable] at hSome
    exact absurd hNone hSome
  | stored vmm vmm' hInit hValid hVmm t s' hTable hSome hVmm' =>
    refine ⟨fun _ => ⟨hInit, hValid, ?_⟩, fun _ => rfl⟩
    have hHand := vmmGetOrCreatePageTable_ne_zero (pageAlignDown v) flags { s with vmm := vmm }
    rw [hTable] at hHand
    exact hHand.mp hSome

----------
-- Runs

theorem after_wf (hWf : m.Wf) (n : Nat) : (m.after n).Wf := by
  induction n generalizing m with
  | zero => exact hWf
  | succ n ih =>
    refine @ih (pmmAllocPage m).2 ?_
    rcases pmmAllocPage_spec hWf with ⟨-, hSame⟩ | ⟨-, hTaken⟩
    · rw [hSame]
      exact hWf
    · exact hTaken.wf

theorem upcoming_available (hWf : m.Wf) {n : Nat} (hSome : m.upcoming n ≠ 0) :
    m.Available (m.upcoming n) := by
  induction n generalizing m with
  | zero =>
    rcases pmmAllocPage_spec hWf with ⟨hNone, -⟩ | ⟨-, hTaken⟩
    · exact absurd hNone hSome
    · exact hTaken.was
  | succ n ih =>
    rw [← upcoming_alloc] at hSome ⊢
    rcases pmmAllocPage_spec hWf with ⟨-, hSame⟩ | ⟨-, hTaken⟩
    · rw [hSame] at hSome ⊢
      exact ih hWf hSome
    · exact hTaken.fewer _ (ih hTaken.wf hSome)

theorem upcoming_ne (hWf : m.Wf) {j : Nat} (hLt : i < j) (hSome : m.upcoming i ≠ 0) :
    m.upcoming i ≠ m.upcoming j := by
  induction i generalizing m j with
  | zero =>
    obtain ⟨j, rfl⟩ : ∃ k, j = k + 1 := ⟨j - 1, by omega⟩
    rcases pmmAllocPage_spec hWf with ⟨hNone, -⟩ | ⟨-, hTaken⟩
    · exact absurd hNone hSome
    · intro hSame
      rw [← upcoming_alloc] at hSame
      apply hTaken.gone
      change (pmmAllocPage m).2.Available (m.upcoming 0)
      rw [hSame]
      refine upcoming_available hTaken.wf ?_
      rw [← hSame]
      exact hSome
  | succ i ih =>
    obtain ⟨j, rfl⟩ : ∃ k, j = k + 1 := ⟨j - 1, by omega⟩
    rw [← upcoming_alloc, ← upcoming_alloc]
    rw [← upcoming_alloc] at hSome
    rcases pmmAllocPage_spec hWf with ⟨-, hSame⟩ | ⟨-, hTaken⟩
    · rw [hSame] at hSome ⊢
      exact ih hWf (by omega) hSome
    · exact ih hTaken.wf (by omega) hSome

/- Where no page in use can be handed out again, the pages to come are fresh. -/
theorem PageState.Separate.laid {held : List Nat} (hSep : s.Separate held)
    (hDistinct : ∀ v w, s.HasTable v → s.HasTable w →
        s.tableFor v = s.tableFor w → pageDirectoryIndex v = pageDirectoryIndex w) :
    s.TablesLaid := by
  refine ⟨hSep.directoryAligned, hSep.tableApart, hDistinct, ?_, fun i j => upcoming_ne hSep.pmm⟩
  intro n hn
  have hAvail := upcoming_available hSep.pmm hn
  rcases pmmAllocPage_spec (after_wf hSep.pmm n) with ⟨hNone, -⟩ | ⟨-, hTaken⟩
  · exact absurd hNone hn
  refine ⟨hTaken.aligned, hTaken.word, ?_, ?_⟩
  · intro hSame
    rw [hSame] at hAvail
    exact hSep.directoryTaken hAvail
  · intro w hw hSame
    rw [hSame] at hAvail
    exact hSep.tableTaken w hw hAvail

/- A directory without tables and a manager with pages. -/
def emptyDirectory : PageState where
  pmm :=
    { allocationStart := 8192
      allocationEnd := 65536
      nextFreePage := 8192
      allocatedPages := 0
      freeStack := [] }
  memory := fun _ => 0
  directory := 4096
  vmm :=
    { initialized := true
      mappedPages := 0
      createdPageTables := 0
      lastMappedVirtualAddress := 0
      lastMappedPhysicalAddress := 0
      failedMapCount := 0
      failedUnmapCount := 0
      remapCount := 0
      invalidMapCount := 0
      missingUnmapCount := 0 }

theorem emptyDirectory_laid : emptyDirectory.TablesLaid := by
  have hNone : ∀ w, ¬ emptyDirectory.HasTable w := by
    intro w hw
    have hZero : entryPresent 0 = true := hw
    exact absurd hZero (by decide)
  have hWf : emptyDirectory.pmm.Wf := ⟨rfl, by decide, List.nodup_nil, nofun, nofun⟩
  have hTaken : ¬ emptyDirectory.pmm.Available emptyDirectory.directory := by
    rintro (hIn | ⟨-, hLe⟩)
    · exact List.not_mem_nil hIn
    · exact absurd hLe (by decide)
  have hSep : emptyDirectory.Separate [] :=
    ⟨hWf, rfl, hTaken, fun w hw => absurd hw (hNone w),
      fun w hw => absurd hw (hNone w), List.nodup_nil, nofun, nofun⟩
  exact hSep.laid fun v _ hv => absurd hv (hNone v)

/-
  Every list of calls is answered as the map has it, and behind it a mapping is made whenever the
  arguments are valid and there is a table or a page for one.
-/
theorem vmm_refines_pageMap {s : PageState} (hLaid : s.TablesLaid) (calls : List VmmCall) :
    Calls.Permits (PageMap.Answers s.vmm.initialized) s.pageMap calls (Calls.run vmmStep s calls).1
        (Calls.run vmmStep s calls).2.pageMap ∧
      ∀ v p flags : UInt32, (vmmStep (Calls.run vmmStep s calls).2 (.map v p flags)).1 = 1 ↔
          s.vmm.initialized = true ∧ vmmFlagsAreValid flags.toNat = true ∧
            (Calls.run vmmStep s calls).2.TableToHand (pageAlignDown v.toNat) := by
  have hStart : s.MapReady s.vmm.initialized := ⟨hLaid, rfl⟩
  have hEnd : (Calls.run vmmStep s calls).2.MapReady s.vmm.initialized :=
    Calls.run_induct (fun t c hReady => (vmmStep_answers t c hReady).1) hStart calls
  refine ⟨Calls.permits_run vmmStep_answers hStart calls, ?_⟩
  intro v p flags
  have hIff := vmmMapPage_succeeds_iff v.toNat p.toNat flags.toNat (Calls.run vmmStep s calls).2
  rw [hEnd.initialized] at hIff
  rw [← hIff]
  change (vmmMapPage v.toNat p.toNat flags.toNat (Calls.run vmmStep s calls).2).1.toNat = 1 ↔ _
  exact Bool.toNat_eq_one

theorem vmm_refines_pageMap_emptyDirectory :
    emptyDirectory.TablesLaid ∧ Calls.Permits (PageMap.Answers true) emptyDirectory.pageMap
        [.map 0x10000000 0x5000 6, .isMapped 0x10000123]
        (Calls.run vmmStep emptyDirectory [.map 0x10000000 0x5000 6, .isMapped 0x10000123]).1
        (Calls.run vmmStep emptyDirectory
          [.map 0x10000000 0x5000 6, .isMapped 0x10000123]).2.pageMap :=
  ⟨emptyDirectory_laid,
    (vmm_refines_pageMap emptyDirectory_laid [.map 0x10000000 0x5000 6, .isMapped 0x10000123]).1⟩

end LiamOS.I386
