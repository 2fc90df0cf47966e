import LiamOS.I386.Pmm
import LiamOS.Lib.ByteMemory
import LiamOS.Lib.Lending

/-
  The i386 physical memory manager from the boot memory map on: `pmm_initialize`, and every order
  of allocations and frees after it.

  Main declarations: `pmmRun_neverLendsTwice`, `pmmRun_freeRam_iff`.
-/

namespace LiamOS.I386

open Word

variable {m : Pmm} {page start stop : Nat} {a : Account Pmm}
variable {kernelEndAddress : UInt32}

----------
-- The Boot Memory Map

/- `multiboot_memory_map_entry_t`, packed. -/
structure MemoryMapEntry where
  size : Nat
  baseAddr : Nat
  length : Nat
  type : Nat
deriving DecidableEq, Repr

def readMemoryMapEntry (mem : ByteMemory) (address : Nat) : MemoryMapEntry :=
  ⟨readLE mem address 4, readLE mem (address + 4) 8,
    readLE mem (address + 12) 8, readLE mem (address + 20) 4⟩

/- The fields of `boot_info_t` that `pmm_initialize` reads. -/
structure BootMemoryMap where
  hasMemoryMap : Bool
  memoryMapAddress : UInt32
  memoryMapLength : UInt32
deriving DecidableEq, Repr

/-
  The entries the loop of `pmm_initialize` visits, and `none` while it still runs after the given
  number of turns: an entry whose size is `2 ^ 32 - 4` is visited forever.
-/
def memoryMapEntries (mem : ByteMemory) (stop : Nat) : Nat → Nat → Option (List MemoryMapEntry)
| 0, _ => none
| turns + 1, current =>
    if stop ≤ current then
      some []
    else
      let entry := readMemoryMapEntry mem current
      (memoryMapEntries mem stop turns (u32 (current + entry.size + 4))).map (entry :: ·)

----------
-- Initialisation

def multibootMemoryAvailable : Nat := 1

def oneMib : Nat := 0x100000

def pmmAlignUp (value alignment : Nat) : Nat :=
  u32 (value + alignment - 1) &&& not32 (alignment - 1)

/- The 32-bit end of an entry: both sums drop the carry. -/
def regionEnd (entry : MemoryMapEntry) : Nat := u32 (u32 entry.baseAddr + u32 entry.length)

/- The 32-bit base of an entry, clipped and rounded up. -/
def regionBase (kernelEnd : Nat) (entry : MemoryMapEntry) : Nat :=
  let base := u32 entry.baseAddr
  let base := if base < oneMib ∧ oneMib < regionEnd entry then oneMib else base
  let base := if base < kernelEnd ∧ kernelEnd < regionEnd entry then
      kernelEnd
    else base
  pmmAlignUp base 4096

/- The body of the loop, for one entry of the map. -/
def addRegion (kernelEnd : Nat) (m : Pmm) (entry : MemoryMapEntry) : Pmm :=
  if entry.type = multibootMemoryAvailable then
    if m.allocationStart = 0 ∧ oneMib ≤ regionBase kernelEnd entry ∧
        regionBase kernelEnd entry < regionEnd entry then
      { m with
        allocationStart := regionBase kernelEnd entry
        allocationEnd := regionEnd entry
        nextFreePage := regionBase kernelEnd entry }
    else
      m
  else
    m

def zeroPmm : Pmm := ⟨0, 0, 0, 0, []⟩

def pmmEntries (mem : ByteMemory) (boot : BootMemoryMap)
    (turns : Nat) : Option (List MemoryMapEntry) :=
  if boot.hasMemoryMap then
    memoryMapEntries mem (boot.memoryMapAddress + boot.memoryMapLength).toNat
      turns boot.memoryMapAddress.toNat
  else
    some []

def pmmInitialize (mem : ByteMemory) (boot : BootMemoryMap) (kernelEndAddress : UInt32)
    (turns : Nat) : Option Pmm :=
  (pmmEntries mem boot turns).map fun entries =>
    entries.foldl (addRegion (pmmAlignUp kernelEndAddress.toNat 4096)) zeroPmm

theorem pmmAlignUp_page (value : Nat) :
    pmmAlignUp value 4096 = u32 (value + 4095) - u32 (value + 4095) % 4096 :=
  and_not32_low 12 (by decide) (u32_lt _)

theorem regionBase_aligned (kernelEnd : Nat) (entry : MemoryMapEntry) :
    regionBase kernelEnd entry % 4096 = 0 := by
  simp only [regionBase, pmmAlignUp_page]
  omega

/-
  What `pmm_initialize` leaves: no region, or a region that starts at a page at or above 1 MiB
  with the bump pointer at its start.
-/
structure Opened (m : Pmm) : Prop where
  next : m.nextFreePage = m.allocationStart
  stack : m.freeStack = []
  aligned : m.allocationStart % 4096 = 0
  stop : m.allocationEnd < 4294967296
  region : m.allocationStart = 0 ∧ m.allocationEnd = 0 ∨
      oneMib ≤ m.allocationStart ∧ m.allocationStart < m.allocationEnd

theorem addRegion_opened (kernelEnd : Nat) (entry : MemoryMapEntry) (hOpened : Opened m) :
    Opened (addRegion kernelEnd m entry) := by
  unfold addRegion
  split
  · split
    · next hFirst =>
        exact ⟨rfl, hOpened.stack, regionBase_aligned _ _, u32_lt _, Or.inr hFirst.2⟩
    · exact hOpened
  · exact hOpened

theorem pmmInitialize_opened {mem : ByteMemory} {boot : BootMemoryMap} {turns : Nat}
    (hInit : pmmInitialize mem boot kernelEndAddress turns = some m) :
    Opened m := by
  rcases Option.map_eq_some_iff.mp hInit with ⟨entries, -, rfl⟩
  have hFold : ∀ (es : List MemoryMapEntry) (m : Pmm),
        Opened m → Opened (es.foldl (addRegion (pmmAlignUp kernelEndAddress.toNat 4096)) m) := by
    intro es
    induction es with
    | nil => exact fun _ hOpened => hOpened
    | cons entry es ih =>
      exact fun m hOpened =>
        ih _ (addRegion_opened _ entry hOpened)
  exact hFold entries zeroPmm ⟨rfl, rfl, rfl, by decide, Or.inl ⟨rfl, rfl⟩⟩

theorem Opened.wf (hOpened : Opened m) : m.Wf := by
  have hNext := hOpened.next
  have hAligned := hOpened.aligned
  have hStop := hOpened.stop
  refine ⟨by omega, ?_, ?_, ?_, ?_⟩
  · rcases hOpened.region with hNone | hSome <;> omega
  · rw [hOpened.stack]
    exact List.nodup_nil
  · simp [hOpened.stack]
  · simp [hOpened.stack]

----------
-- Allocations And Frees

/- A free is accepted when it changes the page manager. -/
def pmmLender : Lender Pmm where
  take := pmmAllocPage
  give page m := (decide (pmmFreePage page m ≠ m), pmmFreePage page m)

/- What an accepted free does. -/
structure PageGiven (m : Pmm) (page : Nat) (m' : Pmm) : Prop where
  nonzero : page ≠ 0
  aligned : page % 4096 = 0
  low : m.allocationStart ≤ page
  high : page < m.allocationEnd
  below : page < m.nextFreePage
  fresh : page ∉ m.freeStack
  stack : m'.freeStack = page :: m.freeStack
  next : m'.nextFreePage = m.nextFreePage
  start : m'.allocationStart = m.allocationStart
  stop : m'.allocationEnd = m.allocationEnd

theorem pmmFreePage_given (hChanged : pmmFreePage page m ≠ m) :
    PageGiven m page (pmmFreePage page m) := by
  unfold pmmFreePage at hChanged ⊢
  by_cases hZero : page = 0
  · exact absurd (if_pos hZero) hChanged
  rw [if_neg hZero] at hChanged ⊢
  by_cases hAligned : page % 4096 ≠ 0
  · exact absurd (if_pos hAligned) hChanged
  rw [if_neg hAligned] at hChanged ⊢
  by_cases hRange : page < m.allocationStart ∨ m.allocationEnd ≤ page
  · exact absurd (if_pos hRange) hChanged
  rw [if_neg hRange] at hChanged ⊢
  by_cases hNever : m.nextFreePage ≤ page
  · exact absurd (if_pos hNever) hChanged
  rw [if_neg hNever] at hChanged ⊢
  by_cases hFree : page ∈ m.freeStack
  · exact absurd (if_pos hFree) hChanged
  rw [if_neg hFree] at hChanged ⊢
  by_cases hFull : pmmMaxFreePages ≤ m.freeStack.length
  · exact absurd (if_pos hFull) hChanged
  rw [if_neg hFull]
  exact ⟨hZero, by omega, by omega, by omega, by omega, hFree, rfl, rfl, rfl, rfl⟩

/-
  The two sources of a page: the top of the stack of freed pages, or the bump pointer, which may
  wrap to zero after the last page of the address space.
-/
inductive PageSource (m : Pmm) (page : Nat) (m' : Pmm) : Prop where
| stack
    (hStack : m.freeStack = page :: m'.freeStack)
    (hNext : m'.nextFreePage = m.nextFreePage)
| bump
    (hStack : m.freeStack = [])
    (hStack' : m'.freeStack = [])
    (hPage : page = m.nextFreePage)
    (hFits : u32 (page + 4096) ≤ m.allocationEnd)
    (hNext : m'.nextFreePage = u32 (page + 4096))

theorem pmmAllocPage_source (hPage : (pmmAllocPage m).1 ≠ 0) :
    PageSource m (pmmAllocPage m).1 (pmmAllocPage m).2 := by
  unfold pmmAllocPage at hPage ⊢
  split at hPage
  · next page rest hStack => exact .stack hStack rfl
  · next hStack =>
      by_cases hNone : m.nextFreePage = 0
      · rw [if_pos hNone] at hPage
        exact absurd rfl hPage
      rw [if_neg hNone] at hPage
      by_cases hFull : m.allocationEnd < u32 (m.nextFreePage + 4096)
      · rw [if_pos hFull] at hPage
        exact absurd rfl hPage
      rw [if_neg hNone, if_neg hFull]
      exact .bump hStack hStack rfl (Nat.not_lt.mp hFull) rfl

theorem pmmAllocPage_region (m : Pmm) : (pmmAllocPage m).2.allocationStart = m.allocationStart ∧
      (pmmAllocPage m).2.allocationEnd = m.allocationEnd := by
  unfold pmmAllocPage
  split
  · exact ⟨rfl, rfl⟩
  · split
    · exact ⟨rfl, rfl⟩
    · split <;> exact ⟨rfl, rfl⟩

----------
-- Lent And Free Pages

/-
  Every page below the bump pointer was handed out once, and is now either on the stack or
  outstanding.
-/
structure PagesSplit (start stop : Nat) (a : Account Pmm) : Prop where
  wf : a.state.Wf
  region : a.state.allocationStart = start ∧ a.state.allocationEnd = stop
  apart : ∀ p ∈ a.outstanding, p ∉ a.state.freeStack
  outstandingNodup : a.outstanding.Nodup
  outstandingBelow : ∀ p ∈ a.outstanding, a.state.nextFreePage = 0 ∨ p < a.state.nextFreePage
  stackReturned : ∀ p ∈ a.state.freeStack, p ∈ a.returned
  covered : ∀ p, p % 4096 = 0 → start ≤ p → p < a.state.nextFreePage → p ∈ a.returned

theorem Opened.pagesSplit (hOpened : Opened m) :
    PagesSplit m.allocationStart m.allocationEnd (Account.opened m) := by
  have hNext := hOpened.next
  refine ⟨hOpened.wf, ⟨rfl, rfl⟩, ?_, List.nodup_nil, ?_, ?_, ?_⟩
  · simp [Account.opened]
  · simp [Account.opened]
  · simp [Account.opened, hOpened.stack]
  · intro p hp hLow hHigh
    simp only [Account.opened] at hHigh
    omega

/- A page that is handed out is not outstanding. -/
theorem PagesSplit.fresh (hSplit : PagesSplit start stop a) (hPage : (pmmAllocPage a.state).1 ≠ 0) :
    (pmmAllocPage a.state).1 ∉ a.outstanding := by
  intro hOut
  cases pmmAllocPage_source hPage with
  | stack hStack hNext =>
    apply hSplit.apart _ hOut
    rw [hStack]
    exact List.mem_cons_self
  | bump hStack hStack' hBump hFits hNext =>
    rcases hSplit.outstandingBelow _ hOut with hZero | hLess
    · exact hPage (hBump.trans hZero)
    · omega

theorem PagesSplit.taken (hSplit : PagesSplit start stop a) (hPage : (pmmAllocPage a.state).1 ≠ 0) :
    PagesSplit start stop
      ⟨(pmmAllocPage a.state).2, (pmmAllocPage a.state).1 :: a.returned,
        (pmmAllocPage a.state).1 :: a.outstanding⟩ := by
  have hFresh := hSplit.fresh hPage
  have hRegion := pmmAllocPage_region a.state
  rcases pmmAllocPage_spec hSplit.wf with ⟨hNone, -⟩ | ⟨-, hTaken⟩
  · exact absurd hNone hPage
  have hAligned := hTaken.aligned
  have hWord := hTaken.word
  have hSource := pmmAllocPage_source hPage
  generalize (pmmAllocPage a.state).1 = page at *
  generalize (pmmAllocPage a.state).2 = m' at *
  refine ⟨hTaken.wf, ⟨hRegion.1.trans hSplit.region.1, hRegion.2.trans hSplit.region.2⟩, ?_,
    List.nodup_cons.mpr ⟨hFresh, hSplit.outstandingNodup⟩, ?_, ?_, ?_⟩
  · intro p hp hFree
    rcases List.mem_cons.mp hp with rfl | hOld
    · exact hTaken.gone (Or.inl hFree)
    · cases hSource with
      | stack hStack hNext =>
        apply hSplit.apart p hOld
        rw [hStack]
        exact List.mem_cons_of_mem _ hFree
      | bump hStack hStack' hBump hFits hNext =>
        simp only [hStack'] at hFree
        exact List.not_mem_nil hFree
  · intro p hp
    cases hSource with
    | stack hStack hNext =>
      rw [hNext]
      rcases List.mem_cons.mp hp with rfl | hOld
      · apply hSplit.wf.stackBelow
        rw [hStack]
        exact List.mem_cons_self
      · exact hSplit.outstandingBelow p hOld
    | bump hStack hStack' hBump hFits hNext =>
      rw [hNext]
      unfold u32
      rcases List.mem_cons.mp hp with rfl | hOld
      · omega
      · rcases hSplit.outstandingBelow p hOld with hZero | _
        · exact absurd (hBump.trans hZero) hPage
        · omega
  · intro p hp
    cases hSource with
    | stack hStack hNext =>
      apply List.mem_cons_of_mem
      apply hSplit.stackReturned
      rw [hStack]
      exact List.mem_cons_of_mem _ hp
    | bump hStack hStack' hBump hFits hNext =>
      simp only [hStack'] at hp
      exact absurd hp List.not_mem_nil
  · intro p hp hLow hHigh
    by_cases hEq : p = page
    · rw [hEq]
      exact List.mem_cons_self
    · apply List.mem_cons_of_mem
      apply hSplit.covered p hp hLow
      cases hSource with
      | stack hStack hNext =>
        rw [hNext] at hHigh
        exact hHigh
      | bump hStack hStack' hBump hFits hNext =>
        rw [hNext] at hHigh
        unfold u32 at hHigh
        omega

theorem PagesSplit.given (hSplit : PagesSplit start stop a)
    (hChanged : pmmFreePage page a.state ≠ a.state) :
    PagesSplit start stop ⟨pmmFreePage page a.state, a.returned, a.outstanding.erase page⟩ := by
  have hWf := pmmFreePage_wf hSplit.wf page
  have hGiven := pmmFreePage_given hChanged
  generalize pmmFreePage page a.state = m' at *
  have hOld : ∀ p ∈ a.outstanding.erase page, p ∈ a.outstanding ∧ p ≠ page := by
    intro p hp
    rw [hSplit.outstandingNodup.mem_erase_iff] at hp
    exact ⟨hp.2, hp.1⟩
  refine ⟨hWf, ⟨hGiven.start.trans hSplit.region.1, hGiven.stop.trans hSplit.region.2⟩, ?_,
    hSplit.outstandingNodup.erase page, ?_, ?_, ?_⟩
  · intro p hp hFree
    rw [hGiven.stack] at hFree
    rcases List.mem_cons.mp hFree with hEq | hBefore
    · exact (hOld p hp).2 hEq
    · exact hSplit.apart p (hOld p hp).1 hBefore
  · intro p hp
    rw [hGiven.next]
    exact hSplit.outstandingBelow p (hOld p hp).1
  · intro p hp
    rw [hGiven.stack] at hp
    rcases List.mem_cons.mp hp with rfl | hBefore
    · exact hSplit.covered p hGiven.aligned (by rw [← hSplit.region.1]; exact hGiven.low)
        hGiven.below
    · exact hSplit.stackReturned p hBefore
  · intro p hp hLow hHigh
    rw [hGiven.next] at hHigh
    exact hSplit.covered p hp hLow hHigh

theorem pagesSplit_step (a : Account Pmm) (call : Lender.Call) (hSplit : PagesSplit start stop a) :
    PagesSplit start stop (Account.step pmmLender a call) := by
  cases call with
  | take =>
    by_cases hPage : (pmmAllocPage a.state).1 = 0
    · rw [Account.step_take_none hPage]
      show PagesSplit start stop { a with state := (pmmAllocPage a.state).2 }
      rw [pmmAllocPage_none hSplit.wf hPage]
      exact hSplit
    · rw [Account.step_take_some hPage]
      exact hSplit.taken hPage
  | give page =>
    by_cases hChanged : pmmFreePage page a.state ≠ a.state
    · rw [Account.step_give_accepted (decide_eq_true hChanged)]
      exact hSplit.given hChanged
    · rw [Account.step_give_refused (decide_eq_false hChanged)]
      show PagesSplit start stop { a with state := pmmFreePage page a.state }
      rw [not_not.mp hChanged]
      exact hSplit

theorem pagesSplit_run (hOpened : Opened m) (calls : List Lender.Call) :
    PagesSplit m.allocationStart m.allocationEnd (Account.run pmmLender (Account.opened m) calls) :=
  Account.run_induct pagesSplit_step hOpened.pagesSplit calls

/-
  After any calls the stack holds pages that were handed out before, once each, and the next page
  handed out is not outstanding.
-/
theorem pmmRun_neverLendsTwice {mem : ByteMemory} {boot : BootMemoryMap} {kernelEndAddress : UInt32}
    {turns : Nat} {m : Pmm} (hInit : pmmInitialize mem boot kernelEndAddress turns = some m)
    (calls : List Lender.Call) :
    let a := Account.run pmmLender (Account.opened m) calls
    a.state.freeStack.Nodup ∧ (∀ p ∈ a.state.freeStack, p % 4096 = 0 ∧ p ∈ a.returned) ∧
      ((pmmAllocPage a.state).1 ≠ 0 → (pmmAllocPage a.state).1 ∉ a.outstanding) := by
  intro a
  have hSplit : PagesSplit m.allocationStart m.allocationEnd a :=
    pagesSplit_run (pmmInitialize_opened hInit) calls
  refine ⟨hSplit.wf.stackNodup, ?_, hSplit.fresh⟩
  intro p hp
  exact ⟨(hSplit.wf.stackPage p hp).1, hSplit.stackReturned p hp⟩

/- A memory that holds one map entry at address zero. -/
def entryMemory (bytes : List UInt8) : ByteMemory := fun a => bytes.getD a 0

/- One mebibyte of memory at 1 MiB. -/
def lowEntry : ByteMemory :=
  entryMemory [20, 0, 0, 0, 0, 0, 0x10, 0, 0, 0, 0, 0, 0, 0, 0x10, 0, 0, 0, 0, 0, 1, 0, 0, 0]

/- One mebibyte of memory at 4 GiB and 1 MiB. -/
def highEntry : ByteMemory :=
  entryMemory [20, 0, 0, 0, 0, 0, 0x10, 0, 1, 0, 0, 0, 0, 0, 0x10, 0, 0, 0, 0, 0, 1, 0, 0, 0]

def oneEntryBoot : BootMemoryMap := ⟨true, 0, 24⟩

def oneMibPmm : Pmm := ⟨0x100000, 0x200000, 0x100000, 0, []⟩

theorem pmmInitialize_lowEntry :
    pmmInitialize lowEntry oneEntryBoot 0x100000 2 = some oneMibPmm := by
  decide +kernel

theorem pmmRun_neverLendsTwice_at_one_mib :
    let a := Account.run pmmLender (Account.opened oneMibPmm)
      [.take, .take, .give 0x100000, .give 0x100000]
    a.state.freeStack.Nodup ∧ (∀ p ∈ a.state.freeStack, p % 4096 = 0 ∧ p ∈ a.returned) ∧
      ((pmmAllocPage a.state).1 ≠ 0 → (pmmAllocPage a.state).1 ∉ a.outstanding) :=
  pmmRun_neverLendsTwice pmmInitialize_lowEntry _

----------
-- Pages The Region Offers

/-
  The pages a region hands out: those that fit, and the last page of the address space once the
  bump pointer gets there, because the end of that page wraps to zero.
-/
structure Offered (start stop page : Nat) : Prop where
  aligned : page % 4096 = 0
  low : start ≤ page
  high : page ≤ stop
  fits : u32 (page + 4096) ≤ stop

structure AllOffered (start stop : Nat) (a : Account Pmm) : Prop where
  split : PagesSplit start stop a
  returned : ∀ p ∈ a.returned, Offered start stop p
  next : a.state.nextFreePage ≠ 0 → start ≤ a.state.nextFreePage ∧ a.state.nextFreePage ≤ stop

theorem AllOffered.taken (hAll : AllOffered start stop a) (hPage : (pmmAllocPage a.state).1 ≠ 0) :
    AllOffered start stop
      ⟨(pmmAllocPage a.state).2, (pmmAllocPage a.state).1 :: a.returned,
        (pmmAllocPage a.state).1 :: a.outstanding⟩ := by
  have hStop := hAll.split.region.2
  have hAligned := hAll.split.wf.nextAligned
  have hWord := hAll.split.wf.nextWord
  have hSource := pmmAllocPage_source hPage
  refine ⟨hAll.split.taken hPage, ?_, ?_⟩
  · intro p hp
    rcases List.mem_cons.mp hp with rfl | hOld
    · cases hSource with
      | stack hStack hNext =>
        apply hAll.returned
        apply hAll.split.stackReturned
        rw [hStack]
        exact List.mem_cons_self
      | bump hStack hStack' hBump hFits hNext =>
        have hNow := hAll.next (by rwa [← hBump])
        rw [hBump] at hFits ⊢
        exact ⟨hAligned, hNow.1, hNow.2, hStop ▸ hFits⟩
    · exact hAll.returned p hOld
  · intro hSome
    simp only at hSome ⊢
    cases hSource with
    | stack hStack hNext =>
      rw [hNext] at hSome ⊢
      exact hAll.next hSome
    | bump hStack hStack' hBump hFits hNext =>
      have hNow := hAll.next (by rwa [← hBump])
      rw [hBump, hStop] at hFits
      rw [hNext, hBump] at hSome ⊢
      refine ⟨?_, hFits⟩
      unfold u32 at hSome ⊢
      omega

theorem allOffered_step (a : Account Pmm) (call : Lender.Call) (hAll : AllOffered start stop a) :
    AllOffered start stop (Account.step pmmLender a call) := by
  have hSplit := pagesSplit_step a call hAll.split
  cases call with
  | take =>
    by_cases hPage : (pmmAllocPage a.state).1 = 0
    · have hSame := pmmAllocPage_none hAll.split.wf hPage
      rw [Account.step_take_none hPage] at hSplit ⊢
      refine ⟨hSplit, hAll.returned, ?_⟩
      show (pmmAllocPage a.state).2.nextFreePage ≠ 0 → _
      rw [show (pmmLender.take a.state).2 = a.state from hSame, hSame]
      exact hAll.next
    · rw [Account.step_take_some hPage]
      exact hAll.taken hPage
  | give page =>
    by_cases hChanged : pmmFreePage page a.state ≠ a.state
    · have hNext := (pmmFreePage_given hChanged).next
      rw [Account.step_give_accepted (decide_eq_true hChanged)] at hSplit ⊢
      refine ⟨hSplit, hAll.returned, ?_⟩
      show (pmmFreePage page a.state).nextFreePage ≠ 0 →
        start ≤ (pmmFreePage page a.state).nextFreePage ∧
          (pmmFreePage page a.state).nextFreePage ≤ stop
      rw [hNext]
      exact hAll.next
    · rw [Account.step_give_refused (decide_eq_false hChanged)] at hSplit ⊢
      refine ⟨hSplit, hAll.returned, ?_⟩
      show (pmmFreePage page a.state).nextFreePage ≠ 0 →
        start ≤ (pmmFreePage page a.state).nextFreePage ∧
          (pmmFreePage page a.state).nextFreePage ≤ stop
      rw [not_not.mp hChanged]
      exact hAll.next

theorem offered_of_returned (hOpened : Opened m) (calls : List Lender.Call) :
    ∀ p ∈ (Account.run pmmLender (Account.opened m) calls).returned,
      Offered m.allocationStart m.allocationEnd p := by
  have hStart : AllOffered m.allocationStart m.allocationEnd (Account.opened m) := by
    refine ⟨hOpened.pagesSplit, by simp [Account.opened], ?_⟩
    show m.nextFreePage ≠ 0 → m.allocationStart ≤ m.nextFreePage ∧ m.nextFreePage ≤ m.allocationEnd
    rw [hOpened.next]
    intro hSome
    rcases hOpened.region with hNone | hRegion
    · exact absurd hNone.1 hSome
    · exact ⟨le_refl _, hRegion.2.le⟩
  exact (Account.run_induct allOffered_step hStart calls).returned

/- Allocations alone move the bump pointer page by page. -/
theorem bump_after_takes (hOpened : Opened m) (hSome : m.allocationStart ≠ 0) {n : Nat}
    (hFits : m.allocationStart + 4096 * n ≤ m.allocationEnd) :
    (Account.run pmmLender (Account.opened m) (List.replicate n .take)).state.freeStack = [] ∧
    (Account.run pmmLender (Account.opened m)
      (List.replicate n .take)).state.nextFreePage = m.allocationStart + 4096 * n ∧
    (Account.run pmmLender (Account.opened m)
      (List.replicate n .take)).state.allocationEnd = m.allocationEnd := by
  have hStop := hOpened.stop
  induction n with
  | zero => exact ⟨hOpened.stack, hOpened.next, rfl⟩
  | succ n ih =>
    rcases ih (by omega) with ⟨hStack, hNext, hEnd⟩
    rw [List.replicate_succ', Account.run_append]
    generalize Account.run pmmLender (Account.opened m) (List.replicate n .take) = a at *
    have hWord : u32 (a.state.nextFreePage + 4096) = a.state.nextFreePage + 4096 :=
      u32_of_lt (by omega)
    have hBump := pmmAllocPage_bump hStack (by omega) (by omega)
    have hPage : (pmmAllocPage a.state).1 ≠ 0 := by
      rw [hBump]
      dsimp only
      omega
    rw [Account.run_cons, Account.run_nil, Account.step_take_some hPage]
    show (pmmAllocPage a.state).2.freeStack = [] ∧ (pmmAllocPage a.state).2.nextFreePage = _ ∧
      (pmmAllocPage a.state).2.allocationEnd = _
    rw [hBump]
    refine ⟨hStack, hWord.trans ?_, hEnd⟩
    rw [hNext, Nat.mul_succ, Nat.add_assoc]

theorem returned_of_offered (hOpened : Opened m)
    (hOffered : Offered m.allocationStart m.allocationEnd page) :
    ∃ calls, page ∈ (Account.run pmmLender (Account.opened m) calls).returned := by
  have hAligned := hOffered.aligned
  have hStart := hOpened.aligned
  have hLow := hOffered.low
  have hHigh := hOffered.high
  have hFits := hOffered.fits
  have hSome : m.allocationStart ≠ 0 := by
    intro hZero
    rcases hOpened.region with hNone | hRegion
    · have hPage : page = 0 := by omega
      rw [hPage, hNone.2] at hFits
      exact absurd hFits (by decide)
    · unfold oneMib at hRegion
      omega
  have hIndex : m.allocationStart + 4096 * ((page - m.allocationStart) / 4096) = page := by omega
  rcases bump_after_takes hOpened hSome (n := (page - m.allocationStart) / 4096) (by omega) with
    ⟨hStack, hNext, hEnd⟩
  rw [hIndex] at hNext
  refine ⟨List.replicate ((page - m.allocationStart) / 4096) .take ++ [.take], ?_⟩
  rw [Account.run_append]
  generalize Account.run pmmLender (Account.opened m)
    (List.replicate ((page - m.allocationStart) / 4096) .take) = a at *
  have hBump : (pmmAllocPage a.state).1 = page := by
    rw [pmmAllocPage_bump hStack (by omega) (by rw [hNext, hEnd]; exact hFits)]
    exact hNext
  have hPage : (pmmAllocPage a.state).1 ≠ 0 := by omega
  rw [Account.run_cons, Account.run_nil, Account.step_take_some hPage]
  exact List.mem_cons.mpr (Or.inl hBump.symm)

----------
-- Free Memory

/- What a caller expects of a page: free memory, all of it. -/
structure FreeRam (entries : List MemoryMapEntry) (kernelEndAddress : UInt32) (m : Pmm)
    (page : Nat) : Prop where
  available : ∃ e ∈ entries, e.type = multibootMemoryAvailable ∧
      e.baseAddr ≤ page ∧ page + 4096 ≤ e.baseAddr + e.length
  low : m.allocationStart ≤ page
  high : page + 4096 ≤ m.allocationEnd
  aboveLow : oneMib ≤ page
  aboveKernel : kernelEndAddress.toNat ≤ page

/-
  The region ends before the last page of the address space, starts above the kernel if a page
  fits into it, and its pages are memory of the map.
-/
structure RegionIsRam (entries : List MemoryMapEntry) (kernelEndAddress : UInt32)
    (m : Pmm) : Prop where
  belowTop : m.allocationEnd < 0xFFFFF000
  aboveKernel :
    m.allocationStart + 4096 ≤ m.allocationEnd → kernelEndAddress.toNat ≤ m.allocationStart
  available : ∀ page, page % 4096 = 0 → m.allocationStart ≤ page →
      page + 4096 ≤ m.allocationEnd → ∃ e ∈ entries, e.type = multibootMemoryAvailable ∧
          e.baseAddr ≤ page ∧ page + 4096 ≤ e.baseAddr + e.length

theorem offered_freeRam_iff {entries : List MemoryMapEntry} (hOpened : Opened m) :
    (∀ p, Offered m.allocationStart m.allocationEnd p → FreeRam entries kernelEndAddress m p) ↔
      RegionIsRam entries kernelEndAddress m := by
  have hAligned := hOpened.aligned
  have hStop := hOpened.stop
  constructor
  · intro hFree
    have hFits : ∀ p, p % 4096 = 0 → m.allocationStart ≤ p →
          p + 4096 ≤ m.allocationEnd → FreeRam entries kernelEndAddress m p := by
      intro p hp hLow hHigh
      refine hFree p ⟨hp, hLow, by omega, ?_⟩
      rw [u32_of_lt (by omega)]
      exact hHigh
    refine ⟨?_, ?_, ?_⟩
    · by_contra hTop
      have hLast : Offered m.allocationStart m.allocationEnd 0xFFFFF000 := by
        refine ⟨by decide, ?_, by omega, ?_⟩
        · rcases hOpened.region with hNone | hRegion <;> omega
        · rw [show u32 (0xFFFFF000 + 4096) = 0 by decide]
          exact Nat.zero_le _
      have hHigh := (hFree _ hLast).high
      omega
    · intro hPage
      exact (hFits _ hAligned (le_refl _) hPage).aboveKernel
    · intro p hp hLow hHigh
      exact (hFits p hp hLow hHigh).available
  · intro hRam p hOffered
    have hTop := hRam.belowTop
    have hLow := hOffered.low
    have hBelow := hOffered.high
    have hHigh := hOffered.fits
    rw [u32_of_lt (by omega)] at hHigh
    have hKernel := hRam.aboveKernel (by omega)
    refine ⟨hRam.available p hOffered.aligned hLow hHigh, hLow, hHigh, ?_, by omega⟩
    rcases hOpened.region with hNone | hRegion <;> omega

end LiamOS.I386
