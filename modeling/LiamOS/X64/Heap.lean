import LiamOS.Lib.Arena
import LiamOS.X64.Plan
import LiamOS.X64.PmmConservation

/-
  The early heap of the x86_64 kernel, `kernel/arch/x86_64/heap.c`: a cursor over the offsets of
  96 pages, which are used under their addresses in the direct map.

  The page manager hands out its pages in any order, so the addresses of two offsets next to each
  other need not be next to each other.

  The figures kept for the boot report and the smoke test are left out.

  Main declarations: `heapRuns_owned_iff`.
-/

namespace LiamOS.X64

open Word PageTable

variable {i k value : Nat} {pmm : Pmm} {plan : PagingPlan}

----------
-- State

def earlyHeapPages : Nat := 96

def heapAlignmentDefault : Nat := 16

structure HeapState where
  initialized : Bool
  pmmBacked : Bool
  directMapOk : Bool
  heapBytes : Nat
  usedBytes : Nat
  allocations : Nat
  physicalPages : List Nat
  virtualPages : List Nat
  nextOffset : Nat
deriving DecidableEq, Repr

variable {h h' : HeapState}

/- The state and the arrays once they are cleared. -/
def clearedHeap : HeapState where
  initialized := false
  pmmBacked := false
  directMapOk := false
  heapBytes := earlyHeapPages * 4096
  usedBytes := 0
  allocations := 0
  physicalPages := List.replicate earlyHeapPages 0
  virtualPages := List.replicate earlyHeapPages 0
  nextOffset := 0

----------
-- Initialization

/-
  The loop of `x86_64_heap_init`, for so many turns: whether every turn found a page, the pages in
  their order, and what is left. A page is cleared through the direct map.
-/
def heapTakePages : Nat → List Nat → Pmm → ByteMemory → Bool × List Nat × Pmm × ByteMemory
| 0, pages, pmm, mem => (true, pages, pmm, mem)
| turns + 1, pages, pmm, mem =>
    let (page, pmm) := pmmAllocPage pmm
    if page = pmmInvalidPage then
      (false, pages, pmm, mem)
    else
      heapTakePages turns (pages ++ [page]) pmm (clearBytes mem page 4096)

def rollbackHeapPages (pages : List Nat) (pmm : Pmm) : Pmm :=
  pages.foldl (fun pmm page => (pmmFreePage page pmm).2) pmm

/- The address of a page in the direct map. -/
def directMapAddress (page : Nat) : Nat := u64 (directMapBase + page)

def heapInit (pmm : Pmm) (plan : PagingPlan) (mem : ByteMemory) : HeapState × Pmm × ByteMemory :=
  match heapTakePages earlyHeapPages [] pmm mem with
  | (false, pages, pmm, mem) => (clearedHeap, rollbackHeapPages pages pmm, mem)
  | (true, pages, pmm, mem) =>
    let virtualPages := pages.map directMapAddress
    let pmmBacked := pages.all (· != pmmInvalidPage) && virtualPages.all (· != 0)
    let directMapOk :=
      plan.directMapCanonical && decide (earlyHeapPages * 4096 ≤ plan.directMapBytes)
    ({ clearedHeap with
        initialized := pmmBacked && directMapOk
        pmmBacked := pmmBacked
        directMapOk := directMapOk
        physicalPages := pages
        virtualPages := virtualPages },
      pmm, mem)

----------
-- Allocation

def isPowerOfTwo (value : Nat) : Bool := value != 0 && value &&& (value - 1) == 0

/- The address at an offset, or null behind the pages. -/
def virtualForOffset (h : HeapState) (offset : Nat) : Nat :=
  let index := offset / 4096
  if earlyHeapPages ≤ index then 0 else u64 (h.virtualPages.getD index 0 + (offset &&& 4095))

structure HeapCall where
  size : UInt64
  alignment : UInt64
deriving DecidableEq, Repr

variable {call : HeapCall} {calls : List HeapCall}

def HeapCall.effectiveAlignment (call : HeapCall) : Nat := if call.alignment.toNat = 0 then
    heapAlignmentDefault
  else
    call.alignment.toNat

def heapAlloc (h : HeapState) (call : HeapCall) : Nat × HeapState :=
  if h.initialized = false ∨ call.size.toNat = 0 then
    (0, h)
  else if isPowerOfTwo call.effectiveAlignment = false then
    (0, h)
  else
    let alignedOffset := alignUp h.nextOffset call.effectiveAlignment
    let endOffset := u64 (alignedOffset + call.size.toNat)
    if h.heapBytes < endOffset ∨ endOffset < alignedOffset then
      (0, h)
    else
      let allocation := virtualForOffset h alignedOffset
      if allocation = 0 then
        (0, h)
      else
        (allocation,
          { h with
            nextOffset := endOffset
            usedBytes := endOffset
            allocations := u32 (h.allocations + 1) })

/- A call with the states around it. -/
structure HeapEvent where
  call : HeapCall
  result : Nat
  before : HeapState
  after : HeapState

variable {event : HeapEvent}

def heapTrace : HeapState → List HeapCall → List HeapEvent
| _, [] => []
| h, call :: calls =>
    ⟨call, (heapAlloc h call).1, h, (heapAlloc h call).2⟩ :: heapTrace (heapAlloc h call).2 calls

----------
-- Owned Allocations

/- An address belongs to what a call returned. -/
def HeapEvent.Covers (event : HeapEvent) (b : Nat) : Prop :=
  event.result ≠ 0 ∧ event.result ≤ b ∧ b < event.result + event.call.size.toNat

/-
  What the calls of a run returned is aligned, lies in pages of the heap and does not overlap, and
  a call that returned null changed nothing.
-/
structure AllocationsOwned (pages : List Nat) (events : List HeapEvent) : Prop where
  aligned : ∀ event ∈ events, event.result ≠ 0 → event.call.effectiveAlignment ∣ event.result
  owned : ∀ event ∈ events, ∀ b, event.Covers b → ∃ page ∈ pages, page ≤ b ∧ b < page + 4096
  disjoint : events.Pairwise fun earlier later =>
      ∀ b, earlier.Covers b → ¬ later.Covers b
  null : ∀ event ∈ events, event.result = 0 → event.after = event.before

----------
-- Alignment

theorem testBit_of_between {n : Nat} (hLow : 2 ^ k ≤ n) (hHigh : n < 2 ^ (k + 1)) :
    n.testBit k = true := by
  have hQuotient : n / 2 ^ k = 1 := by
    rw [Nat.pow_succ] at hHigh
    exact Nat.div_eq_of_lt_le (by omega) (by omega)
  rw [Nat.testBit_eq_decide_div_mod_eq, hQuotient]
  rfl

theorem isPowerOfTwo_iff (value : Nat) : isPowerOfTwo value = true ↔ ∃ k, value = 2 ^ k := by
  unfold isPowerOfTwo
  rw [Bool.and_eq_true, bne_iff_ne, beq_iff_eq]
  constructor
  · rintro ⟨hSome, hAnd⟩
    have hLow := Nat.log2_self_le hSome
    have hHigh := @Nat.lt_log2_self value
    refine ⟨value.log2, ?_⟩
    by_contra hNot
    -- the highest bit is then in `value - 1` as well
    have hBelow : (value - 1).testBit value.log2 = true := testBit_of_between (by omega) (by omega)
    have hBit := Nat.testBit_and value (value - 1) value.log2
    rw [hAnd, testBit_of_between hLow hHigh, hBelow, Nat.zero_testBit] at hBit
    exact Bool.noConfusion hBit
  · rintro ⟨k, rfl⟩
    have hPos := Nat.two_pow_pos k
    refine ⟨by omega, ?_⟩
    rw [Nat.and_two_pow_sub_one_eq_mod, Nat.mod_self]

theorem alignUp_two_pow (hShift : k < 64) (hRoom : value + 2 ^ k ≤ 18446744073709551616) :
    value ≤ alignUp value (2 ^ k) ∧ 2 ^ k ∣ alignUp value (2 ^ k) ∧
      alignUp value (2 ^ k) < 18446744073709551616 := by
  have hPos := Nat.two_pow_pos k
  have hMod := Nat.mod_lt (value + 2 ^ k - 1) hPos
  unfold alignUp alignDown
  rw [u64_of_lt (by omega), and_not64_low k hShift.le (by omega)]
  refine ⟨by omega, Nat.dvd_sub_mod _, by omega⟩

----------
-- One Call

/- The address of the page with an index. -/
def HeapState.page (h : HeapState) (i : Nat) : Nat := h.virtualPages.getD i 0

/- The offset at which a call would allocate. -/
def HeapState.startOf (h : HeapState) (call : HeapCall) : Nat :=
  alignUp h.nextOffset call.effectiveAlignment

/- A heap that came up, at some point of its life. -/
structure HeapUp (h : HeapState) : Prop where
  initialized : h.initialized = true
  bytes : h.heapBytes = 393216
  count : h.virtualPages.length = 96
  pages : ∀ i < 96, h.page i % 4096 = 0 ∧ h.page i ≠ 0 ∧ h.page i < 18446744073709551616
  next : h.nextOffset ≤ 393216

/- What a call does that returns an allocation. -/
structure Allocated (h : HeapState) (call : HeapCall) (result : Nat) (h' : HeapState) : Prop where
  size : 0 < call.size.toNat
  power : isPowerOfTwo call.effectiveAlignment = true
  low : h.nextOffset ≤ h.startOf call
  aligned : call.effectiveAlignment ∣ h.startOf call
  fits : h.startOf call + call.size.toNat ≤ 393216
  result : result = Arena.place 4096 h.page (h.startOf call)
  next : h'.nextOffset = h.startOf call + call.size.toNat
  up : HeapUp h'
  pages : h'.virtualPages = h.virtualPages

section Call

variable {h : HeapState}

theorem heapAlloc_null (hNull : (heapAlloc h call).1 = 0) : (heapAlloc h call).2 = h := by
  unfold heapAlloc at hNull ⊢
  dsimp only at hNull ⊢
  split_ifs at hNull ⊢ with hOff hOdd hFull hZero
  · rfl
  · rfl
  · rfl
  · rfl
  · exact absurd hNull hZero

theorem heapAlloc_off (hOff : h.initialized = false) (call : HeapCall) :
    heapAlloc h call = (0, h) := by
  unfold heapAlloc
  rw [if_pos (Or.inl hOff)]

/- The address at an offset inside the heap. -/
theorem HeapUp.virtualForOffset_eq (hUp : HeapUp h) {offset : Nat} (hInside : offset < 393216) :
    virtualForOffset h offset = Arena.place 4096 h.page offset ∧ virtualForOffset h offset ≠ 0 := by
  have hIndex : offset / 4096 < 96 := by omega
  obtain ⟨hAligned, hSome, hWord⟩ := hUp.pages _ hIndex
  have hLow : offset &&& 4095 = offset % 4096 := Nat.and_two_pow_sub_one_eq_mod offset 12
  unfold virtualForOffset Arena.place earlyHeapPages
  unfold HeapState.page at hAligned hSome hWord ⊢
  dsimp only
  rw [if_neg (by omega), hLow, u64_of_lt (by omega)]
  exact ⟨rfl, by omega⟩

theorem HeapUp.moved (hUp : HeapUp h) {next : Nat} (hNext : next ≤ 393216)
    (used allocations : Nat) :
    HeapUp
      { h with
        nextOffset := next
        usedBytes := used
        allocations := allocations } :=
  ⟨hUp.initialized, hUp.bytes, hUp.count, hUp.pages, hNext⟩

/- A power of two among the alignments that can be asked for. -/
theorem HeapCall.alignment_power (hPower : isPowerOfTwo call.effectiveAlignment = true) :
    ∃ k < 64, call.effectiveAlignment = 2 ^ k := by
  obtain ⟨k, hk⟩ := (isPowerOfTwo_iff _).mp hPower
  have hWord : call.effectiveAlignment < 2 ^ 64 := by
    unfold HeapCall.effectiveAlignment heapAlignmentDefault
    split
    · decide
    · exact call.alignment.toNat_lt
  rw [hk] at hWord
  exact ⟨k, (Nat.pow_lt_pow_iff_right (by decide)).mp hWord, hk⟩

theorem HeapUp.startOf_spec (hUp : HeapUp h)
    (hPower : isPowerOfTwo call.effectiveAlignment = true) :
    h.nextOffset ≤ h.startOf call ∧ call.effectiveAlignment ∣ h.startOf call ∧
      h.startOf call < 18446744073709551616 := by
  obtain ⟨k, hk, hAlignment⟩ := HeapCall.alignment_power hPower
  have hNext := hUp.next
  have hSmall : 2 ^ k ≤ 2 ^ 63 := Nat.pow_le_pow_right (by decide) (by omega)
  unfold HeapState.startOf
  rw [hAlignment]
  exact alignUp_two_pow hk (by omega)

/- When a call allocates, and what it then does. -/
theorem HeapUp.alloc (hUp : HeapUp h) {call : HeapCall} (hSize : 0 < call.size.toNat)
    (hPower : isPowerOfTwo call.effectiveAlignment = true)
    (hFits : h.startOf call + call.size.toNat ≤ 393216) :
    (heapAlloc h call).1 ≠ 0 ∧ Allocated h call (heapAlloc h call).1 (heapAlloc h call).2 := by
  obtain ⟨hLow, hAligned, hWord⟩ := hUp.startOf_spec hPower
  obtain ⟨hPlace, hSome⟩ := hUp.virtualForOffset_eq (show h.startOf call < 393216 by omega)
  have hOn : ¬ (h.initialized = false ∨ call.size.toNat = 0) := by
    rw [hUp.initialized]
    rintro (hOff | hZero)
    · exact Bool.noConfusion hOff
    · omega
  have hEnd : u64 (h.startOf call + call.size.toNat) = h.startOf call + call.size.toNat :=
    u64_of_lt (by omega)
  have hRoom :
      ¬ (h.heapBytes < u64 (h.startOf call + call.size.toNat) ∨
        u64 (h.startOf call + call.size.toNat) < h.startOf call) := by
    rw [hEnd, hUp.bytes]
    omega
  have hCall : heapAlloc h call =
        (virtualForOffset h (h.startOf call),
          { h with
            nextOffset := h.startOf call + call.size.toNat
            usedBytes := h.startOf call + call.size.toNat
            allocations := u32 (h.allocations + 1) }) := by
    unfold heapAlloc
    dsimp only
    unfold HeapState.startOf at hRoom hSome hEnd ⊢
    rw [if_neg hOn, if_neg (by rw [hPower]; nofun), if_neg hRoom, if_neg hSome, hEnd]
  rw [hCall]
  exact ⟨hSome, hSize, hPower, hLow, hAligned, hFits, hPlace, rfl, hUp.moved hFits _ _, rfl⟩

/- The check for room notices a sum that wraps. -/
theorem HeapUp.fits_of_room (hUp : HeapUp h) (hPower : isPowerOfTwo call.effectiveAlignment = true)
    (hRoom : ¬ (h.heapBytes < u64 (h.startOf call + call.size.toNat) ∨
        u64 (h.startOf call + call.size.toNat) < h.startOf call)) :
    h.startOf call + call.size.toNat ≤ 393216 := by
  obtain ⟨-, -, hWord⟩ := hUp.startOf_spec hPower
  have hSize : call.size.toNat < 18446744073709551616 := call.size.toNat_lt
  rw [hUp.bytes] at hRoom
  unfold u64 at hRoom
  omega

theorem HeapUp.alloc_cases (hUp : HeapUp h) (call : HeapCall) :
    ((heapAlloc h call).1 = 0 ∧ (heapAlloc h call).2 = h) ∨
      (heapAlloc h call).1 ≠ 0 ∧ Allocated h call (heapAlloc h call).1 (heapAlloc h call).2 := by
  by_cases hNull : (heapAlloc h call).1 = 0
  · exact Or.inl ⟨hNull, heapAlloc_null hNull⟩
  · refine Or.inr ⟨hNull, ?_⟩
    have hReasons := hNull
    unfold heapAlloc at hReasons
    dsimp only at hReasons
    split_ifs at hReasons with hOn hPower hRoom hZero
    · exact absurd rfl hReasons
    · exact absurd rfl hReasons
    · exact absurd rfl hReasons
    · exact absurd rfl hReasons
    · rw [Bool.not_eq_false] at hPower
      rw [not_or] at hOn
      have hSize : 0 < call.size.toNat := Nat.pos_of_ne_zero hOn.2
      exact (hUp.alloc hSize hPower (hUp.fits_of_room hPower hRoom)).2

end Call

----------
-- Runs

/- An event of a run over the pages of a heap. -/
structure EventOf (h : HeapState) (event : HeapEvent) : Prop where
  late : h.nextOffset ≤ event.before.nextOffset
  pages : event.before.virtualPages = h.virtualPages
  up : HeapUp event.before
  allocated : event.result ≠ 0 → Allocated event.before event.call event.result event.after
  null : event.result = 0 → event.after = event.before

section Run

variable {h : HeapState}

theorem HeapUp.alloc_up (hUp : HeapUp h) (call : HeapCall) :
    HeapUp (heapAlloc h call).2 ∧ h.nextOffset ≤ (heapAlloc h call).2.nextOffset ∧
      (heapAlloc h call).2.virtualPages = h.virtualPages := by
  rcases hUp.alloc_cases call with ⟨-, hSame⟩ | ⟨-, hTaken⟩
  · rw [hSame]
    exact ⟨hUp, le_refl _, rfl⟩
  · have hLow := hTaken.low
    refine ⟨hTaken.up, ?_, hTaken.pages⟩
    rw [hTaken.next]
    omega

theorem EventOf.weaken (hEvent : EventOf h' event) (hNext : h.nextOffset ≤ h'.nextOffset)
    (hPages : h'.virtualPages = h.virtualPages) :
    EventOf h event :=
  ⟨hNext.trans hEvent.late, hEvent.pages.trans hPages, hEvent.up, hEvent.allocated, hEvent.null⟩

theorem HeapUp.trace_events (hUp : HeapUp h) (calls : List HeapCall) :
    ∀ event ∈ heapTrace h calls, EventOf h event := by
  induction calls generalizing h with
  | nil => nofun
  | cons call calls ih =>
    obtain ⟨hUp', hNext, hPages⟩ := hUp.alloc_up call
    intro event hEvent
    rcases List.mem_cons.mp hEvent with rfl | hLater
    · refine ⟨le_refl _, rfl, hUp, ?_, fun hNull => heapAlloc_null hNull⟩
      intro hSome
      rcases hUp.alloc_cases call with ⟨hNull, -⟩ | ⟨-, hTaken⟩
      · exact absurd hNull hSome
      · exact hTaken
    · exact (ih hUp' event hLater).weaken hNext hPages

/- Later calls start where earlier ones have ended. -/
theorem HeapUp.trace_ordered (hUp : HeapUp h) (calls : List HeapCall) :
    (heapTrace h calls).Pairwise fun earlier later =>
      earlier.after.nextOffset ≤ later.before.nextOffset := by
  induction calls generalizing h with
  | nil => exact List.Pairwise.nil
  | cons call calls ih =>
    obtain ⟨hUp', -, -⟩ := hUp.alloc_up call
    refine List.pairwise_cons.mpr ⟨?_, ih hUp'⟩
    intro event hEvent
    exact (hUp'.trace_events calls event hEvent).late

end Run

----------
-- Ascending Pages

/- Each page lies right behind the one before it. -/
def HeapState.Ascending (h : HeapState) : Prop := ∀ i, i + 1 < 96 → h.page (i + 1) = h.page i + 4096

theorem heapTrace_call (hEvent : event ∈ heapTrace h calls) : event.call ∈ calls := by
  induction calls generalizing h with
  | nil => exact absurd hEvent List.not_mem_nil
  | cons call calls ih =>
    rcases List.mem_cons.mp hEvent with rfl | hLater
    · exact List.mem_cons_self
    · exact List.mem_cons_of_mem _ (ih hLater)

/- In ascending pages an allocation lies as far behind the first page as its offset says. -/
theorem EventOf.result_eq (hEvent : EventOf h event) (hAscending : h.Ascending)
    (hSome : event.result ≠ 0) :
    event.result = h.page 0 + event.before.startOf event.call := by
  have hTaken := hEvent.allocated hSome
  have hFits := hTaken.fits
  have hSize := hTaken.size
  have hPages : event.before.page = h.page := by
    unfold HeapState.page
    rw [hEvent.pages]
  rw [hTaken.result, hPages]
  exact Arena.Ascending.place_eq hAscending (by omega)

/- Ascending pages serve every call their first page fits. -/
theorem HeapUp.owned_of_ascending (hUp : HeapUp h) (hAscending : h.Ascending)
    (hFirst : 2 ^ k ∣ h.page 0) (hCalls : ∀ call ∈ calls, call.effectiveAlignment ≤ 2 ^ k) :
    AllocationsOwned h.virtualPages (heapTrace h calls) := by
  have hEvents := hUp.trace_events calls
  refine ⟨?_, ?_, ?_, fun event hEvent => (hEvents event hEvent).null⟩
  · intro event hEvent hSome
    have hTaken := (hEvents event hEvent).allocated hSome
    obtain ⟨m, -, hAlignment⟩ := HeapCall.alignment_power hTaken.power
    have hBound := hCalls _ (heapTrace_call hEvent)
    rw [hAlignment, Nat.pow_le_pow_iff_right (by decide)] at hBound
    rw [(hEvents event hEvent).result_eq hAscending hSome]
    refine Nat.dvd_add ?_ hTaken.aligned
    rw [hAlignment]
    exact (Nat.pow_dvd_pow 2 hBound).trans hFirst
  · rintro event hEvent b ⟨hSome, hLow, hHigh⟩
    have hFits := ((hEvents event hEvent).allocated hSome).fits
    rw [(hEvents event hEvent).result_eq hAscending hSome] at hLow hHigh
    have hIndex : (b - h.page 0) / 4096 < 96 := by omega
    have hPage := Arena.Ascending.page_eq hAscending hIndex
    refine ⟨h.page ((b - h.page 0) / 4096), ?_, by omega, by omega⟩
    rw [← hUp.count] at hIndex
    rw [HeapState.page, List.getD_eq_getElem _ _ hIndex]
    exact List.getElem_mem hIndex
  · refine (hUp.trace_ordered calls).imp_of_mem ?_
    rintro earlier later hEarlier hLater hOrder b ⟨hSome, -, hHigh⟩ ⟨hSome', hLow, -⟩
    have hNext := ((hEvents earlier hEarlier).allocated hSome).next
    have hStart := ((hEvents later hLater).allocated hSome').low
    rw [(hEvents earlier hEarlier).result_eq hAscending hSome] at hHigh
    rw [(hEvents later hLater).result_eq hAscending hSome'] at hLow
    omega

section Pagewise

variable {h : HeapState}

def heapAfter (h : HeapState) (calls : List HeapCall) : HeapState :=
  calls.foldl (fun h call => (heapAlloc h call).2) h

theorem heapTrace_append (h : HeapState) (first second : List HeapCall) :
    heapTrace h (first ++ second) = heapTrace h first ++ heapTrace (heapAfter h first) second := by
  induction first generalizing h with
  | nil => rfl
  | cons call first ih =>
    rw [List.cons_append, heapTrace, ih]
    rfl

theorem alignUp_one (hValue : value < 18446744073709551616) : alignUp value 1 = value := by
  unfold alignUp alignDown
  rw [Nat.add_sub_cancel, u64_of_lt hValue]
  have hNone := and_not64_low 0 (by decide) hValue
  rw [Nat.pow_zero, Nat.mod_one, Nat.sub_zero] at hNone
  exact hNone

/- A call for bytes without alignment. -/
def bytesCall (size : UInt64) : HeapCall := ⟨size, 1⟩

theorem bytesCall_alignment (size : UInt64) : (bytesCall size).effectiveAlignment = 1 := by
  unfold bytesCall HeapCall.effectiveAlignment
  rw [if_neg (show ¬ (1 : UInt64).toNat = 0 by decide)]
  rfl

theorem HeapUp.alloc_bytes (hUp : HeapUp h) {size : UInt64} (hSize : 0 < size.toNat)
    (hFits : h.nextOffset + size.toNat ≤ 393216) :
    HeapUp (heapAfter h [bytesCall size]) ∧
      (heapAfter h [bytesCall size]).virtualPages = h.virtualPages ∧
      (heapAfter h [bytesCall size]).nextOffset = h.nextOffset + size.toNat ∧
      ∃ event ∈ heapTrace h [bytesCall size],
        ∀ t < size.toNat, event.Covers (Arena.place 4096 h.page h.nextOffset + t) := by
  have hOne := bytesCall_alignment size
  have hStart : h.startOf (bytesCall size) = h.nextOffset := by
    unfold HeapState.startOf
    rw [hOne]
    exact alignUp_one (by omega)
  obtain ⟨hSome, hTaken⟩ :=
    @HeapUp.alloc h hUp (bytesCall size) hSize (by rw [hOne]; rfl) (by rw [hStart]; exact hFits)
  have hNext := hTaken.next
  have hResult := hTaken.result
  rw [hStart] at hNext hResult
  refine ⟨hTaken.up, hTaken.pages, hNext, _, List.mem_cons_self, ?_⟩
  intro t ht
  refine ⟨hSome, ?_, ?_⟩
  · change (heapAlloc h (bytesCall size)).1 ≤ _
    omega
  · change _ < (heapAlloc h (bytesCall size)).1 + size.toNat
    omega

/- Whole pages, one call for each. -/
theorem HeapUp.alloc_pages (hUp : HeapUp h) {j : Nat} (hNext : h.nextOffset = 4096 * j) {n : Nat}
    (hFits : j + n ≤ 96) :
    HeapUp (heapAfter h (List.replicate n (bytesCall 4096))) ∧
      (heapAfter h (List.replicate n (bytesCall 4096))).virtualPages = h.virtualPages ∧
      (heapAfter h (List.replicate n (bytesCall 4096))).nextOffset = 4096 * (j + n) ∧
      ∀ k, j ≤ k → k < j + n →
        ∃ event ∈ heapTrace h (List.replicate n (bytesCall 4096)), event.Covers (h.page k) := by
  induction n generalizing h j with
  | zero => exact ⟨hUp, rfl, hNext, fun k hLow hHigh => by omega⟩
  | succ n ih =>
    have hSize : (4096 : UInt64).toNat = 4096 := rfl
    obtain ⟨hUp', hPages, hNext', event, hEvent, hCovers⟩ :=
      @HeapUp.alloc_bytes h hUp 4096 (by decide) (by rw [hSize]; omega)
    have hLater : (heapAfter h [bytesCall 4096]).nextOffset = 4096 * (j + 1) := by
      rw [hNext', hSize]
      omega
    obtain ⟨hUp'', hPages', hNext'', hEvents⟩ := ih hUp' hLater (by omega)
    rw [List.replicate_succ]
    refine ⟨hUp'', hPages'.trans hPages, ?_, ?_⟩
    · rw [show j + (n + 1) = j + 1 + n by omega]
      exact hNext''
    · intro k hLow hHigh
      by_cases hFirst : k = j
      · refine ⟨event, ?_, ?_⟩
        · exact List.mem_cons.mpr (Or.inl (List.mem_singleton.mp hEvent))
        · have hHere := hCovers 0 (by decide)
          unfold Arena.place at hHere
          rw [hNext, Nat.mul_div_cancel_left _ (by decide), Nat.mul_mod_right] at hHere
          rw [hFirst]
          exact hHere
      · obtain ⟨later, hLater, hThere⟩ := hEvents k (by omega) (by omega)
        refine ⟨later, List.mem_cons_of_mem _ hLater, ?_⟩
        unfold HeapState.page at hThere ⊢
        rw [hPages] at hThere
        exact hThere

/-
  The calls that find out whether the page behind the `i`-th is the next one: a byte more than
  that page, and every other page by itself.
-/
def pagesProbe (i : Nat) : List HeapCall := List.replicate i (bytesCall 4096) ++
    (bytesCall 4097 :: bytesCall 4095 :: List.replicate (94 - i) (bytesCall 4096))

theorem pagesProbe_alignment (hCall : call ∈ pagesProbe i) : call.effectiveAlignment = 1 := by
  unfold pagesProbe at hCall
  rw [List.mem_append, List.mem_cons, List.mem_cons] at hCall
  rcases hCall with hPage | rfl | rfl | hPage
  · rw [(List.mem_replicate.mp hPage).2]
    exact bytesCall_alignment 4096
  · exact bytesCall_alignment 4097
  · exact bytesCall_alignment 4095
  · rw [(List.mem_replicate.mp hPage).2]
    exact bytesCall_alignment 4096

/- The events of the probe, and which of them are apart. -/
theorem HeapUp.probe (hUp : HeapUp h) (hNext : h.nextOffset = 0) (hi : i + 1 < 96) :
    ∃ before event after,
      heapTrace h (pagesProbe i) = before ++ event :: after ∧ event.Covers (h.page i + 4096) ∧
        (∀ k < i, ∃ other ∈ before, other.Covers (h.page k)) ∧
        ∀ k, i + 1 < k → k < 96 → ∃ other ∈ after, other.Covers (h.page k) := by
  obtain ⟨hUp₁, hPages₁, hNext₁, hBefore⟩ := @HeapUp.alloc_pages h hUp 0 hNext i (by omega)
  rw [Nat.zero_add] at hNext₁
  generalize hState₁ : heapAfter h (List.replicate i (bytesCall 4096)) = h₁ at hUp₁ hPages₁ hNext₁
  have hLarge : (4097 : UInt64).toNat = 4097 := rfl
  have hSmall : (4095 : UInt64).toNat = 4095 := rfl
  obtain ⟨hUp₂, hPages₂, hNext₂, event, hEvent, hCovers⟩ :=
    @HeapUp.alloc_bytes h₁ hUp₁ 4097 (by decide) (by rw [hLarge]; omega)
  generalize hState₂ : heapAfter h₁ [bytesCall 4097] = h₂ at hUp₂ hPages₂ hNext₂
  obtain ⟨hUp₃, hPages₃, hNext₃, -⟩ :=
    @HeapUp.alloc_bytes h₂ hUp₂ 4095 (by decide) (by rw [hSmall]; omega)
  generalize hState₃ : heapAfter h₂ [bytesCall 4095] = h₃ at hUp₃ hPages₃ hNext₃
  obtain ⟨-, -, -, hAfter⟩ := @HeapUp.alloc_pages h₃ hUp₃ (i + 2) (by omega) (94 - i) (by omega)
  refine ⟨heapTrace h (List.replicate i (bytesCall 4096)), event,
    heapTrace h₂ (bytesCall 4095 :: List.replicate (94 - i) (bytesCall 4096)), ?_, ?_, ?_, ?_⟩
  · unfold pagesProbe
    rw [heapTrace_append, hState₁, List.mem_singleton.mp hEvent, ← hState₂]
    rfl
  · have hLast := hCovers 4096 (by decide)
    unfold Arena.place HeapState.page at hLast
    rw [hNext₁, Nat.mul_div_cancel_left _ (by decide), Nat.mul_mod_right, hPages₁] at hLast
    exact hLast
  · intro k hk
    exact hBefore k (Nat.zero_le k) (by omega)
  · intro k hLow hHigh
    obtain ⟨other, hOther, hThere⟩ := hAfter k (by omega) (by omega)
    refine ⟨other, ?_, ?_⟩
    · rw [← hState₃] at hOther
      exact List.mem_cons_of_mem _ hOther
    · unfold HeapState.page at hThere ⊢
      rw [hPages₃, hPages₂, hPages₁] at hThere
      exact hThere

/- If every probe is owned, the pages ascend. -/
theorem HeapUp.ascending_of_owned (hUp : HeapUp h) (hNext : h.nextOffset = 0)
    (hOwned : ∀ i, AllocationsOwned h.virtualPages (heapTrace h (pagesProbe i))) :
    h.Ascending := by
  intro i hi
  obtain ⟨before, event, after, hTrace, hCovers, hBefore, hAfter⟩ := hUp.probe hNext hi
  have hProbe := hOwned i
  rw [hTrace] at hProbe
  -- the byte behind the page is the first of a page of the heap
  obtain ⟨v, hMember, hLow, hHigh⟩ :=
    hProbe.owned event (List.mem_append_right _ List.mem_cons_self) _ hCovers
  obtain ⟨k, hk, hPage⟩ := List.getElem_of_mem hMember
  rw [hUp.count] at hk
  have hSame : h.page k = v := by
    unfold HeapState.page
    rw [List.getD_eq_getElem _ _ (by rw [hUp.count]; exact hk)]
    exact hPage
  have hAligned := (hUp.pages k hk).1
  have hOwn := (hUp.pages i (by omega)).1
  have hNeighbour : h.page k = h.page i + 4096 := by omega
  have hApart := hProbe.disjoint
  rw [List.pairwise_append] at hApart
  obtain ⟨-, hRest, hCross⟩ := hApart
  rcases Nat.lt_trichotomy k (i + 1) with hEarly | rfl | hLate
  · by_cases hSelf : k = i
    · rw [hSelf] at hNeighbour
      omega
    · obtain ⟨other, hOther, hThere⟩ := hBefore k (by omega)
      rw [hNeighbour] at hThere
      exact absurd hCovers (hCross other hOther event List.mem_cons_self _ hThere)
  · exact hNeighbour
  · obtain ⟨other, hOther, hThere⟩ := hAfter k hLate hk
    rw [hNeighbour] at hThere
    exact absurd hThere ((List.pairwise_cons.mp hRest).1 other hOther _ hCovers)

theorem powerCall_alignment {size : UInt64} {k : Nat} (hk : k < 64) :
    (HeapCall.mk size (UInt64.ofNat (2 ^ k))).effectiveAlignment = 2 ^ k := by
  have hPos := Nat.two_pow_pos k
  have hWord : (UInt64.ofNat (2 ^ k)).toNat = 2 ^ k :=
    UInt64.toNat_ofNat_of_lt (Nat.pow_lt_pow_right (show 1 < 2 by decide) hk)
  unfold HeapCall.effectiveAlignment
  rw [hWord, if_neg (by omega)]

/- A byte at an alignment is the first of the heap. -/
theorem HeapUp.first_of_owned (hUp : HeapUp h) (hNext : h.nextOffset = 0) (hk : k < 64)
    (hOwned : AllocationsOwned h.virtualPages (heapTrace h [⟨1, UInt64.ofNat (2 ^ k)⟩])) :
    2 ^ k ∣ h.page 0 := by
  have hAlignment := @powerCall_alignment 1 k hk
  have hPos := Nat.two_pow_pos k
  have hSmall : 2 ^ k ≤ 2 ^ 63 := Nat.pow_le_pow_right (by decide) (by omega)
  have hStart : h.startOf ⟨1, UInt64.ofNat (2 ^ k)⟩ = 0 := by
    unfold HeapState.startOf alignUp alignDown
    rw [hAlignment, hNext, Nat.zero_add, u64_of_lt (by omega), and_not64_low k hk.le (by omega),
      Nat.mod_eq_of_lt (by omega), Nat.sub_self]
  obtain ⟨hSome, hTaken⟩ :=
    @HeapUp.alloc h hUp ⟨1, UInt64.ofNat (2 ^ k)⟩ (show 0 < (1 : UInt64).toNat by decide)
      (by rw [hAlignment]; exact (isPowerOfTwo_iff _).mpr ⟨k, rfl⟩)
      (by
        rw [hStart]
        exact (show 0 + (1 : UInt64).toNat ≤ 393216 by decide))
  have hAligned := hOwned.aligned _ List.mem_cons_self hSome
  have hResult := hTaken.result
  rw [hStart] at hResult
  rw [hAlignment] at hAligned
  change 2 ^ k ∣ (heapAlloc h _).1 at hAligned
  rw [hResult] at hAligned
  exact hAligned

end Pagewise

----------
-- Initialization And Runs

/- The page manager has so many pages to give. -/
structure GivesPages (pmm : Pmm) (n : Nat) : Prop where
  ready : 0 < n → pmm.initialized = true
  many : n ≤ pmm.stack.length
  valid : ∀ p ∈ pmm.stack.take n, p ≠ 0

theorem givesPages_cons_iff {page : Nat} {rest : List Nat} (hReady : pmm.initialized = true)
    (hStack : pmm.stack = page :: rest) (n : Nat) :
    GivesPages pmm (n + 1) ↔ page ≠ 0 ∧ GivesPages { pmm with stack := rest } n := by
  constructor
  · rintro ⟨-, hMany, hValid⟩
    rw [hStack, List.take_succ_cons, List.forall_mem_cons] at hValid
    rw [hStack, List.length_cons] at hMany
    exact ⟨hValid.1, fun _ => hReady, Nat.le_of_succ_le_succ hMany, hValid.2⟩
  · rintro ⟨hPage, -, hMany, hValid⟩
    refine ⟨fun _ => hReady, ?_, ?_⟩
    · rw [hStack, List.length_cons]
      exact Nat.succ_le_succ hMany
    · rw [hStack, List.take_succ_cons, List.forall_mem_cons]
      exact ⟨hPage, hValid⟩

theorem heapTakePages_spec (n : Nat) (pages : List Nat) (pmm : Pmm) (mem : ByteMemory) :
    ((heapTakePages n pages pmm mem).1 = true ↔ GivesPages pmm n) ∧
      (GivesPages pmm n → (heapTakePages n pages pmm mem).2.1 = pages ++ pmm.stack.take n) := by
  induction n generalizing pages pmm mem with
  | zero =>
    refine ⟨iff_of_true rfl ⟨nofun, Nat.zero_le _, nofun⟩, ?_⟩
    intro _
    rw [List.take_zero, List.append_nil]
    rfl
  | succ n ih =>
    by_cases hReady : pmm.initialized = true
    · cases hStack : pmm.stack with
      | nil =>
        have hNone : ¬ GivesPages pmm (n + 1) := by
          intro hGives
          have hMany := hGives.many
          rw [hStack] at hMany
          exact absurd hMany (by simp)
        refine ⟨iff_of_false ?_ hNone, fun h => absurd h hNone⟩
        unfold heapTakePages
        rw [pmmAllocPage_nil hStack]
        nofun
      | cons page rest =>
        have hIff := givesPages_cons_iff hReady hStack n
        unfold heapTakePages
        rw [pmmAllocPage_cons hReady hStack, hIff]
        dsimp only
        by_cases hPage : page = pmmInvalidPage
        · rw [if_pos hPage]
          exact ⟨iff_of_false nofun fun h => h.1 hPage, fun h => absurd hPage h.1⟩
        · rw [if_neg hPage]
          have hRest := ih (pages ++ [page]) { pmm with stack := rest } (clearBytes mem page 4096)
          refine ⟨hRest.1.trans (and_iff_right hPage).symm, ?_⟩
          intro hGives
          rw [hRest.2 hGives.2, List.take_succ_cons, List.append_assoc]
          rfl
    · have hNone : ¬ GivesPages pmm (n + 1) := fun hGives => hReady (hGives.ready (Nat.succ_pos n))
      refine ⟨iff_of_false ?_ hNone, fun h => absurd h hNone⟩
      rw [Bool.not_eq_true] at hReady
      unfold heapTakePages pmmAllocPage
      rw [if_pos hReady]
      nofun

/- What the heap needs in order to come up. -/
structure HeapComesUp (pmm : Pmm) (plan : PagingPlan) : Prop where
  pages : GivesPages pmm 96
  mapped : ∀ p ∈ pmm.stack.take 96, directMapAddress p ≠ 0
  canonical : plan.directMapCanonical = true
  large : 393216 ≤ plan.directMapBytes

section Init

variable {pmm : Pmm}
variable {plan : PagingPlan}

theorem heapInit_refused (hNone : ¬ GivesPages pmm 96) (plan : PagingPlan) (mem : ByteMemory) :
    (heapInit pmm plan mem).1 = clearedHeap := by
  have hTake := (heapTakePages_spec 96 [] pmm mem).1
  unfold heapInit earlyHeapPages
  generalize heapTakePages 96 [] pmm mem = taken at hTake ⊢
  obtain ⟨all, pages, pmm', mem'⟩ := taken
  cases all with
  | false => rfl
  | true => exact absurd (hTake.mp rfl) hNone

theorem heapInit_given (hGives : GivesPages pmm 96) (plan : PagingPlan) (mem : ByteMemory) :
    (heapInit pmm plan mem).1 =
      { clearedHeap with
        initialized :=
          ((pmm.stack.take 96).all (· != 0) &&
              ((pmm.stack.take 96).map directMapAddress).all (· != 0)) &&
            (plan.directMapCanonical && decide (393216 ≤ plan.directMapBytes))
        pmmBacked := (pmm.stack.take 96).all (· != 0) &&
            ((pmm.stack.take 96).map directMapAddress).all (· != 0)
        directMapOk := plan.directMapCanonical && decide (393216 ≤ plan.directMapBytes)
        physicalPages := pmm.stack.take 96
        virtualPages := (pmm.stack.take 96).map directMapAddress } := by
  obtain ⟨hTake, hPages⟩ := heapTakePages_spec 96 [] pmm mem
  have hAll := hTake.mpr hGives
  have hTaken := hPages hGives
  unfold heapInit earlyHeapPages
  generalize heapTakePages 96 [] pmm mem = taken at hAll hTaken ⊢
  obtain ⟨all, pages, pmm', mem'⟩ := taken
  change all = true at hAll
  change pages = _ at hTaken
  rw [hAll, hTaken, List.nil_append]
  rfl

theorem heapInit_off (hDown : ¬ HeapComesUp pmm plan) (mem : ByteMemory) :
    (heapInit pmm plan mem).1.initialized = false := by
  by_cases hGives : GivesPages pmm 96
  · rw [heapInit_given hGives plan mem, ← Bool.not_eq_true]
    simp only [Bool.and_eq_true, List.all_eq_true, bne_iff_ne,
      List.mem_map, forall_exists_index, and_imp, forall_apply_eq_imp_iff₂, decide_eq_true_eq]
    rintro ⟨⟨-, hMapped⟩, hCanonical, hLarge⟩
    exact hDown ⟨hGives, hMapped, hCanonical, hLarge⟩
  · rw [heapInit_refused hGives]
    rfl

theorem HeapComesUp.page (hComes : HeapComesUp pmm plan) (mem : ByteMemory) (hi : i < 96) :
    (heapInit pmm plan mem).1.page i = directMapAddress (pmm.stack.getD i 0) ∧
      pmm.stack.getD i 0 ∈ pmm.stack.take 96 := by
  have hMany := hComes.pages.many
  have hIndex : i < pmm.stack.length := by omega
  have hTake : i < (pmm.stack.take 96).length := by
    rw [List.length_take]
    omega
  have hMap : i < ((pmm.stack.take 96).map directMapAddress).length := by
    rw [List.length_map]
    exact hTake
  rw [heapInit_given hComes.pages plan mem]
  unfold HeapState.page
  dsimp only
  rw [List.getD_eq_getElem _ _ hMap, List.getElem_map,
    List.getD_eq_getElem _ _ hIndex, List.getElem_take]
  refine ⟨rfl, ?_⟩
  rw [← List.getElem_take (h := hTake)]
  exact List.getElem_mem hTake

theorem HeapComesUp.up (hComes : HeapComesUp pmm plan) (hPages : PageAddresses pmm)
    (mem : ByteMemory) :
    HeapUp (heapInit pmm plan mem).1 ∧ (heapInit pmm plan mem).1.nextOffset = 0 := by
  have hMany := hComes.pages.many
  have hGiven := heapInit_given hComes.pages plan mem
  refine ⟨⟨?_, ?_, ?_, ?_, ?_⟩, ?_⟩
  · rw [hGiven]
    simp only [Bool.and_eq_true, List.all_eq_true, bne_iff_ne,
      List.mem_map, forall_exists_index, and_imp, forall_apply_eq_imp_iff₂, decide_eq_true_eq]
    exact ⟨⟨hComes.pages.valid, hComes.mapped⟩, hComes.canonical, hComes.large⟩
  · rw [hGiven]
    rfl
  · rw [hGiven]
    dsimp only
    rw [List.length_map, List.length_take]
    omega
  · intro i hi
    obtain ⟨hPage, hMember⟩ := hComes.page mem hi
    have hAligned := hPages.aligned _ (List.mem_of_mem_take hMember)
    have hSome := hComes.mapped _ hMember
    rw [hPage]
    refine ⟨?_, hSome, u64_lt _⟩
    unfold PageAligned at hAligned
    unfold directMapAddress u64 directMapBase
    omega
  · rw [hGiven]
    exact Nat.zero_le _
  · rw [hGiven]
    rfl

end Init

/- The pages on the stack, from its top on, ascend. -/
def StackAscends (pmm : Pmm) : Prop :=
  ∀ i, i + 1 < 96 → pmm.stack.getD (i + 1) 0 = pmm.stack.getD i 0 + 4096

/- The addresses ascend exactly as the pages do. -/
theorem HeapComesUp.ascending_iff (hComes : HeapComesUp pmm plan) (hPages : PageAddresses pmm)
    (mem : ByteMemory) :
    (heapInit pmm plan mem).1.Ascending ↔ StackAscends pmm := by
  unfold HeapState.Ascending StackAscends
  refine forall_congr' fun i => forall_congr' fun hi => ?_
  obtain ⟨hFirst, hFirstMember⟩ := hComes.page mem (show i < 96 by omega)
  obtain ⟨hSecond, hSecondMember⟩ := hComes.page mem hi
  have hFirstWord := hPages.page_lt (List.mem_of_mem_take hFirstMember)
  have hSecondWord := hPages.page_lt (List.mem_of_mem_take hSecondMember)
  have hFirstAligned := hPages.aligned _ (List.mem_of_mem_take hFirstMember)
  have hSecondAligned := hPages.aligned _ (List.mem_of_mem_take hSecondMember)
  have hSome := hComes.pages.valid _ hSecondMember
  have hMapped := hComes.mapped _ hSecondMember
  rw [hFirst, hSecond]
  unfold PageAligned at hFirstAligned hSecondAligned
  unfold directMapAddress u64 directMapBase at hMapped ⊢
  constructor
  · intro hNext
    omega
  · intro hNext
    omega

theorem HeapComesUp.first_iff (hComes : HeapComesUp pmm plan) (mem : ByteMemory) (hk : k < 64) :
    2 ^ k ∣ (heapInit pmm plan mem).1.page 0 ↔ 2 ^ k ∣ directMapBase + pmm.stack.getD 0 0 := by
  rw [(hComes.page mem (show 0 < 96 by decide)).1]
  exact Nat.dvd_mod_iff (Nat.pow_dvd_pow 2 hk.le)

/- A heap that did not come up returns null. -/
theorem allocationsOwned_off (hOff : h.initialized = false) (pages : List Nat)
    (calls : List HeapCall) :
    AllocationsOwned pages (heapTrace h calls) := by
  have hNull : ∀ event ∈ heapTrace h calls, event.result = 0 ∧ event.after = event.before := by
    induction calls with
    | nil => nofun
    | cons call calls ih =>
      intro event hEvent
      rw [heapTrace, heapAlloc_off hOff] at hEvent
      rcases List.mem_cons.mp hEvent with rfl | hLater
      · exact ⟨rfl, rfl⟩
      · exact ih event hLater
  refine ⟨?_, ?_, ?_, fun event hEvent _ =>
    (hNull event hEvent).2⟩
  · intro event hEvent hSome
    exact absurd (hNull event hEvent).1 hSome
  · intro event hEvent b hCovers
    exact absurd (hNull event hEvent).1 hCovers.1
  · refine List.pairwise_of_forall_mem_list ?_
    intro earlier hEarlier later _ b hCovers
    exact absurd (hNull earlier hEarlier).1 hCovers.1

/-
  Every run of calls with alignments up to a power of two returns owned allocations exactly if the
  heap did not come up, or its pages come in ascending order and the first of them is a multiple
  of that power.
-/
theorem heapRuns_owned_iff {pmm : Pmm} (hPages : PageAddresses pmm) (plan : PagingPlan)
    (mem : ByteMemory) {k : Nat} (hk : k < 64) :
    (∀ calls : List HeapCall, (∀ call ∈ calls, call.effectiveAlignment ≤ 2 ^ k) →
          AllocationsOwned (heapInit pmm plan mem).1.virtualPages
            (heapTrace (heapInit pmm plan mem).1 calls)) ↔
      (HeapComesUp pmm plan → StackAscends pmm ∧ 2 ^ k ∣ directMapBase + pmm.stack.getD 0 0) := by
  constructor
  · intro hOwned hComes
    obtain ⟨hUp, hNext⟩ := hComes.up hPages mem
    refine ⟨?_, ?_⟩
    · rw [← hComes.ascending_iff hPages mem]
      apply hUp.ascending_of_owned hNext
      intro i
      apply hOwned
      intro call hCall
      rw [pagesProbe_alignment hCall]
      exact Nat.one_le_two_pow
    · rw [← hComes.first_iff mem hk]
      apply hUp.first_of_owned hNext hk
      apply hOwned
      intro call hCall
      rw [List.mem_singleton.mp hCall, powerCall_alignment hk]
  · intro hWhen calls hCalls
    by_cases hComes : HeapComesUp pmm plan
    · obtain ⟨hAscends, hFirst⟩ := hWhen hComes
      obtain ⟨hUp, -⟩ := hComes.up hPages mem
      rw [← hComes.ascending_iff hPages mem] at hAscends
      rw [← hComes.first_iff mem hk] at hFirst
      exact hUp.owned_of_ascending hAscends hFirst hCalls
    · exact allocationsOwned_off (heapInit_off hComes mem) _ _

/- A plan that maps a gibibyte. -/
def gibibytePlan : PagingPlan :=
  pagingPlanInit ⟨0x100000, 0x200000⟩ ⟨1, 0x200000, 96, 393216, 0x200000⟩

/- Pages from two mebibytes on, the lowest on top. -/
def ascendingPmm : Pmm where
  initialized := true
  stack := (List.range 96).map fun i => 0x200000 + 4096 * i
  trackedPages := 96
  droppedPages := 0
  duplicateFreeRejects := 0
  lowestPage := 0x200000
  highestPage := 0x25F000

theorem ascendingPmm_pages : PageAddresses ascendingPmm := by
  refine ⟨?_, ?_, by decide⟩
  · intro p hp
    obtain ⟨i, -, rfl⟩ := List.mem_map.mp hp
    unfold PageAligned
    omega
  · intro p hp
    obtain ⟨i, hi, rfl⟩ := List.mem_map.mp hp
    rw [List.mem_range] at hi
    change _ ≤ 0x25F000
    omega

theorem ascendingPmm_getD (hi : i < 96) : ascendingPmm.stack.getD i 0 = 0x200000 + 4096 * i := by
  have hPage : i < ascendingPmm.stack.length := hi
  rw [List.getD_eq_getElem _ _ hPage]
  simp only [ascendingPmm, List.getElem_map, List.getElem_range]

theorem ascendingPmm_ascends : StackAscends ascendingPmm := by
  intro i hi
  rw [ascendingPmm_getD hi, ascendingPmm_getD (by omega)]
  omega

/- The heap comes up on them and serves every run of calls with alignments up to two mebibytes. -/
theorem heapRuns_owned_iff_ascending :
    let start := (heapInit ascendingPmm gibibytePlan fun _ => 0).1
    start.initialized = true ∧
      ∀ calls : List HeapCall, (∀ call ∈ calls, call.effectiveAlignment ≤ 2 ^ 21) →
          AllocationsOwned start.virtualPages (heapTrace start calls) :=
  ⟨by decide +kernel, (heapRuns_owned_iff ascendingPmm_pages gibibytePlan _ (by decide)).mpr
      fun _ => ⟨ascendingPmm_ascends, by decide⟩⟩

/-
  One region of ninety-six pages: the heap comes up, and two pages aligned to sixteen bytes start
  in its highest page; no page of the heap holds the byte behind that page.
-/
theorem allocation_leaves_its_page :
    let pmm := pmmInit [⟨0x200000, 0x60000, memoryRegionAvailable⟩] ⟨0x100000, 0x180000⟩
    let start := (heapInit pmm gibibytePlan fun _ => 0).1
    let call : HeapCall := ⟨8192, 16⟩
    start.initialized = true ∧ (heapAlloc start call).1 = directMapBase + 0x25F000 ∧
      ∀ page ∈ start.virtualPages,
        ¬ (page ≤ directMapBase + 0x260000 ∧ directMapBase + 0x260000 < page + 4096) := by
  decide +kernel

end LiamOS.X64
