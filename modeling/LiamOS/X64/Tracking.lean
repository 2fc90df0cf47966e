import LiamOS.X64.Plan

/-
  The pages `x86_64_pmm_init` tracks, and what `x86_64_pmm_plan_init` counts of them.

  The usable pages of all regions are one list. The page manager pushes the first 65536 of it and
  drops the others, the plan adds up the lengths. The rounding of a start wraps for a region in
  the last page of the address space, and the rounding of the kernel's end for a kernel that ends
  there.

  Main declarations: `pmmPlan_agrees`, `tracks_usable_iff`.
-/

namespace LiamOS.X64

open Word PageTable

variable {p : Nat}
variable {regions : List MemoryRegion} {value : Nat}

----------
-- Usable Pages

/- A number of pages from an address on. -/
def pagesFrom (start count : Nat) : List Nat := (List.range count).map fun i => start + i * 4096

@[simp] theorem length_pagesFrom (start count : Nat) : (pagesFrom start count).length = count := by
  rw [pagesFrom, List.length_map, List.length_range]

@[simp] theorem pagesFrom_zero (start : Nat) : pagesFrom start 0 = [] := rfl

theorem pagesFrom_succ (start count : Nat) :
    pagesFrom start (count + 1) = start :: pagesFrom (start + 4096) count := by
  unfold pagesFrom
  rw [List.range_succ_eq_map, List.map_cons, List.map_map, Nat.zero_mul, Nat.add_zero]
  congr 1
  apply List.map_congr_left
  intro i _
  rw [Function.comp_apply, Nat.succ_mul]
  omega

/- The pages of a region the page manager is given. -/
def regionPages (reservedBelow : Nat) (region : MemoryRegion) : List Nat :=
  match usableRange reservedBelow region with
  | none => []
  | some (start, stop) => pagesFrom start ((stop - start) / 4096)

/- The pages of all regions, in the order they are visited. -/
def usablePages (regions : List MemoryRegion) (layout : MemoryLayout) : List Nat :=
  regions.flatMap (regionPages (alignUp layout.kernelEnd.toNat 4096))

/- Track a list of pages. -/
def trackAll (pmm : Pmm) (pages : List Nat) : Pmm :=
  pages.foldl (fun pmm page => trackPage page pmm) pmm

theorem trackPages_eq (turns page : Nat) (pmm : Pmm) :
    trackPages turns page pmm = trackAll pmm (pagesFrom page turns) := by
  induction turns generalizing page pmm with
  | zero => rfl
  | succ turns ih =>
    rw [trackPages, ih, pagesFrom_succ]
    rfl

theorem trackRegion_eq (reservedBelow : Nat) (pmm : Pmm) (region : MemoryRegion) :
    trackRegion reservedBelow pmm region = trackAll pmm (regionPages reservedBelow region) := by
  unfold trackRegion regionPages
  cases usableRange reservedBelow region with
  | none => rfl
  | some range =>
    obtain ⟨start, stop⟩ := range
    dsimp only
    unfold trackRange
    by_cases hShort : stop ≤ start ∨ stop - start < 4096
    · have hNone : (stop - start) / 4096 = 0 := by omega
      rw [if_pos hShort, hNone]
      rfl
    · rw [if_neg hShort, trackPages_eq]

theorem pmmInit_eq (regions : List MemoryRegion) (layout : MemoryLayout) : pmmInit regions layout =
      { trackAll zeroPmm (usablePages regions layout) with initialized := true } := by
  have hRegion : trackRegion (alignUp layout.kernelEnd.toNat 4096) = fun pmm region =>
          trackAll pmm (regionPages (alignUp layout.kernelEnd.toNat 4096) region) := by
    funext pmm region
    exact trackRegion_eq _ pmm region
  unfold pmmInit
  dsimp only
  rw [hRegion]
  unfold usablePages trackAll
  rw [List.foldl_flatMap]

/- What tracking a list of pages does: the first ones are on the stack, the others are counted. -/
structure Tracks (pmm : Pmm) (pages : List Nat) (pmm' : Pmm) : Prop where
  stack : pmm'.stack = (pages.take (pmmMaxTrackedPages - pmm.trackedPages)).reverse ++ pmm.stack
  tracked : pmm'.trackedPages = min (pmm.trackedPages + pages.length) pmmMaxTrackedPages
  dropped : pmm'.droppedPages =
      u32 (pmm.droppedPages + (pages.length - (pmmMaxTrackedPages - pmm.trackedPages)))

theorem trackAll_tracks {pmm : Pmm} (hTracked : pmm.trackedPages ≤ pmmMaxTrackedPages)
    (hDropped : pmm.droppedPages < 4294967296) (pages : List Nat) :
    Tracks pmm pages (trackAll pmm pages) := by
  induction pages generalizing pmm with
  | nil =>
    refine ⟨?_, ?_, ?_⟩
    · rw [List.take_nil]
      rfl
    · rw [List.length_nil, Nat.add_zero, Nat.min_eq_left hTracked]
      rfl
    · rw [List.length_nil, Nat.zero_sub, Nat.add_zero, u32_of_lt hDropped]
      rfl
  | cons page pages ih =>
    have hStep : trackAll pmm (page :: pages) = trackAll (trackPage page pmm) pages := rfl
    rw [hStep]
    by_cases hFull : pmmMaxTrackedPages ≤ pmm.trackedPages
    · have hPage : trackPage page pmm = { pmm with droppedPages := u32 (pmm.droppedPages + 1) } :=
        if_pos hFull
      have hNone : pmmMaxTrackedPages - pmm.trackedPages = 0 := by omega
      have hRest :=
        @ih (trackPage page pmm) (by rw [hPage]; exact hTracked) (by rw [hPage]; exact u32_lt _)
      have hCount := hRest.dropped
      have hStack := hRest.stack
      have hLength := hRest.tracked
      rw [hPage] at hCount hStack hLength
      dsimp only at hCount hStack hLength
      rw [hNone] at hCount hStack
      refine ⟨?_, ?_, ?_⟩
      · rw [hPage, hStack, hNone]
        rfl
      · rw [hPage, hLength, List.length_cons]
        omega
      · rw [hPage, hCount, hNone, List.length_cons]
        unfold u32
        omega
    · have hPage : (trackPage page pmm).stack = page :: pmm.stack ∧
            (trackPage page pmm).trackedPages = pmm.trackedPages + 1 ∧
            (trackPage page pmm).droppedPages = pmm.droppedPages := by
        unfold trackPage
        rw [if_neg hFull]
        exact ⟨rfl, rfl, rfl⟩
      have hRest := @ih (trackPage page pmm) (by omega) (by omega)
      have hRoom : pmmMaxTrackedPages - pmm.trackedPages =
            (pmmMaxTrackedPages - (pmm.trackedPages + 1)) + 1 :=
        by omega
      refine ⟨?_, ?_, ?_⟩
      · rw [hRest.stack, hPage.1, hPage.2.1, hRoom, List.take_succ_cons, List.reverse_cons,
          List.append_assoc, List.singleton_append]
      · rw [hRest.tracked, hPage.2.1, List.length_cons]
        omega
      · rw [hRest.dropped, hPage.2.1, hPage.2.2, List.length_cons]
        congr 1
        omega

/- The page manager behind its initialisation. -/
theorem pmmInit_tracking (regions : List MemoryRegion) (layout : MemoryLayout) :
    (pmmInit regions layout).stack =
        ((usablePages regions layout).take pmmMaxTrackedPages).reverse ∧
      (pmmInit regions layout).trackedPages =
        min (usablePages regions layout).length pmmMaxTrackedPages ∧
      (pmmInit regions layout).droppedPages =
        u32 ((usablePages regions layout).length - pmmMaxTrackedPages) := by
  have hTracks := @trackAll_tracks zeroPmm (by decide) (by decide) (usablePages regions layout)
  have hStack := hTracks.stack
  have hTracked := hTracks.tracked
  have hDropped := hTracks.dropped
  rw [show zeroPmm.trackedPages = 0 from rfl, Nat.sub_zero] at hStack hDropped
  rw [show zeroPmm.trackedPages = 0 from rfl, Nat.zero_add] at hTracked
  rw [show zeroPmm.droppedPages = 0 from rfl, Nat.zero_add] at hDropped
  rw [show zeroPmm.stack = [] from rfl, List.append_nil] at hStack
  rw [pmmInit_eq]
  exact ⟨hStack, hTracked, hDropped⟩

theorem mem_stack_pmmInit {layout : MemoryLayout} : p ∈ (pmmInit regions layout).stack ↔
      p ∈ (usablePages regions layout).take pmmMaxTrackedPages := by
  rw [(pmmInit_tracking regions layout).1, List.mem_reverse]

----------
-- The Plan

theorem addManagedRange_managedPages {plan : PmmPlan}
    (hPages : plan.managedPages < 18446744073709551616) (start stop : Nat) :
    (addManagedRange start stop plan).managedPages =
      u64 (plan.managedPages + (stop - start) / 4096) := by
  unfold addManagedRange
  by_cases hEmpty : stop ≤ start
  · have hNone : (stop - start) / 4096 = 0 := by omega
    rw [if_pos hEmpty, hNone, Nat.add_zero, u64_of_lt hPages]
  · rw [if_neg hEmpty]
    dsimp only
    by_cases hNone : (stop - start) / 4096 = 0
    · rw [if_pos hNone, hNone, Nat.add_zero, u64_of_lt hPages]
    · rw [if_neg hNone]

/- The plan counts the usable pages of the page manager. -/
theorem pmmPlanInit_managedPages (regions : List MemoryRegion) (layout : MemoryLayout) :
    (pmmPlanInit regions layout).managedPages = u64 (usablePages regions layout).length := by
  unfold pmmPlanInit usablePages
  dsimp only
  generalize alignUp layout.kernelEnd.toNat 4096 = reservedBelow
  -- the count so far is below the width at every region
  have hFold : ∀ plan : PmmPlan, plan.managedPages < 18446744073709551616 →
        (regions.foldl (fun plan region =>
            match usableRange reservedBelow region with
            | none => plan
            | some (start, stop) => addManagedRange start stop plan)
          plan).managedPages =
          u64 (plan.managedPages + (regions.flatMap (regionPages reservedBelow)).length) := by
    induction regions with
    | nil =>
      intro plan hPages
      rw [List.flatMap_nil, List.length_nil, Nat.add_zero, u64_of_lt hPages]
      rfl
    | cons region regions ih =>
      intro plan hPages
      rw [List.foldl_cons, List.flatMap_cons, List.length_append]
      unfold regionPages
      cases hRange : usableRange reservedBelow region with
      | none =>
        dsimp only
        rw [ih plan hPages, List.length_nil, Nat.zero_add]
        rfl
      | some range =>
        obtain ⟨start, stop⟩ := range
        have hAdd := addManagedRange_managedPages hPages start stop
        dsimp only
        rw [ih _ (by rw [hAdd]; exact u64_lt _), hAdd, length_pagesFrom, ← Nat.add_assoc]
        unfold u64
        rw [Nat.mod_add_mod]
        rfl
  apply (hFold _ (Nat.two_pow_pos 64)).trans
  rw [Nat.zero_add]

theorem regionPages_length_le (reservedBelow : Nat) (region : MemoryRegion) :
    (regionPages reservedBelow region).length ≤ 4503599627370496 := by
  unfold regionPages
  cases hRange : usableRange reservedBelow region with
  | none => exact Nat.zero_le _
  | some range =>
    obtain ⟨start, stop⟩ := range
    have hStop : stop < 18446744073709551616 := by
      unfold usableRange at hRange
      split at hRange
      · exact absurd hRange nofun
      · dsimp only at hRange
        split at hRange
        · exact absurd hRange nofun
        · obtain ⟨-, rfl⟩ := Prod.mk.inj (Option.some.inj hRange)
          rw [alignDown_page (u64_lt _)]
          have hWord := u64_lt (region.base.toNat + region.length.toNat)
          omega
    dsimp only
    rw [length_pagesFrom]
    omega

theorem usablePages_length_le (regions : List MemoryRegion) (layout : MemoryLayout) :
    (usablePages regions layout).length ≤ regions.length * 4503599627370496 := by
  unfold usablePages
  induction regions with
  | nil => exact Nat.zero_le _
  | cons region regions ih =>
    have hRegion := regionPages_length_le (alignUp layout.kernelEnd.toNat 4096) region
    rw [List.flatMap_cons, List.length_append, List.length_cons]
    omega

/-
  The plan and the page manager agree on the regions of a boot summary: what the plan counts is
  tracked or dropped, up to the width of the counter, and the first 65536 pages are tracked.
-/
theorem pmmPlan_agrees (regions : List MemoryRegion) (layout : MemoryLayout)
    (hCount : regions.length ≤ memoryRegionMax) :
    u32 (pmmPlanInit regions layout).managedPages =
        u32 ((pmmInit regions layout).trackedPages + (pmmInit regions layout).droppedPages) ∧
      ((pmmPlanInit regions layout).managedPages -
          (pmmInit regions layout).trackedPages < 4294967296 →
        (pmmPlanInit regions layout).managedPages =
          (pmmInit regions layout).trackedPages + (pmmInit regions layout).droppedPages) ∧
      (pmmInit regions layout).trackedPages =
        min (pmmPlanInit regions layout).managedPages 65536 := by
  obtain ⟨-, hTracked, hDropped⟩ := pmmInit_tracking regions layout
  have hLength := usablePages_length_le regions layout
  have hManaged := pmmPlanInit_managedPages regions layout
  unfold memoryRegionMax at hCount
  rw [u64_of_lt (by omega)] at hManaged
  unfold pmmMaxTrackedPages at hTracked hDropped
  rw [hManaged, hTracked, hDropped]
  unfold u32
  refine ⟨by omega, fun hFits => ?_, rfl⟩
  rw [Nat.mod_eq_of_lt (by omega)]
  omega

/- A megabyte above a small kernel. -/
theorem pmmPlan_agrees_megabyte :
    (pmmPlanInit [⟨0x100000, 0x200000, 1⟩] ⟨0x100000, 0x200000⟩).managedPages = 256 ∧
      (pmmInit [⟨0x100000, 0x200000, 1⟩] ⟨0x100000, 0x200000⟩).trackedPages = 256 := by
  have hManaged :
      (pmmPlanInit [⟨0x100000, 0x200000, 1⟩] ⟨0x100000, 0x200000⟩).managedPages = 256 := by
    decide +kernel
  obtain ⟨-, -, hTracked⟩ :=
    pmmPlan_agrees [⟨0x100000, 0x200000, 1⟩] ⟨0x100000, 0x200000⟩ (by decide)
  rw [hManaged] at hTracked
  exact ⟨hManaged, hTracked⟩

----------
-- Regions And Their Pages

/- A page the page manager may hand out. -/
structure UsablePage (regions : List MemoryRegion) (layout : MemoryLayout) (p : Nat) : Prop where
  aligned : PageAligned p
  nonzero : p ≠ 0
  above : (layout.kernelEnd.toNat + 4095) / 4096 * 4096 ≤ p
  inside : ∃ region ∈ regions, region.type = memoryRegionAvailable ∧ region.base.toNat ≤ p ∧
        p + 4096 ≤ region.base.toNat + region.length.toNat

/- An available region that ends in the address space. -/
def Available (region : MemoryRegion) : Prop := region.type = memoryRegionAvailable ∧
    region.base.toNat + region.length.toNat < 18446744073709551616

instance (region : MemoryRegion) : Decidable (Available region) :=
  inferInstanceAs (Decidable (_ ∧ _))

/-
  A region that is tracked wrongly: it starts in the last page of the address space, or at zero
  with a kernel that ends at zero, or it has a page and the kernel ends in the last page of the
  address space.
-/
def Mistracked (layout : MemoryLayout) (region : MemoryRegion) : Prop := Available region ∧
    (18446744073709547520 < region.base.toNat ∨
      (layout.kernelEnd.toNat = 0 ∧ region.base.toNat = 0 ∧ 4096 ≤ region.length.toNat) ∨
      (18446744073709547520 < layout.kernelEnd.toNat ∧
        (region.base.toNat + 4095) / 4096 < (region.base.toNat + region.length.toNat) / 4096))

instance (layout : MemoryLayout) (region : MemoryRegion) : Decidable (Mistracked layout region) :=
  inferInstanceAs (Decidable (_ ∧ _))

/- The whole pages of a region above the kernel. -/
def wholePages (layout : MemoryLayout) (region : MemoryRegion) : Nat := if Available region then
    (region.base.toNat + region.length.toNat) / 4096 -
      (max region.base.toNat layout.kernelEnd.toNat + 4095) / 4096
  else
    0

section Region

variable {region : MemoryRegion}
variable {layout : MemoryLayout}

theorem regionPages_of_not_available (reservedBelow : Nat) (hNot : ¬ Available region) :
    regionPages reservedBelow region = [] := by
  have hBase := region.base.toNat_lt
  have hLength := region.length.toNat_lt
  have hNone : usableRange reservedBelow region = none := by
    unfold usableRange
    by_cases hType : region.type = memoryRegionAvailable
    · have hWrap : u64 (region.base.toNat + region.length.toNat) < region.base.toNat := by
        have hLarge : 18446744073709551616 ≤ region.base.toNat + region.length.toNat := by
          by_contra hSmall
          exact hNot ⟨hType, Nat.not_le.mp hSmall⟩
        unfold u64
        omega
      rw [if_neg (not_not.mpr hType)]
      exact if_pos (Or.inl hWrap)
    · rw [if_pos hType]
  rw [regionPages, hNone]

theorem regionPages_of_available (reservedBelow : Nat) (hAvailable : Available region) :
    regionPages reservedBelow region =
      if region.base.toNat + region.length.toNat ≤ reservedBelow then
        []
      else
        pagesFrom (alignUp (max region.base.toNat reservedBelow) 4096)
          (((region.base.toNat + region.length.toNat) / 4096 * 4096 -
            alignUp (max region.base.toNat reservedBelow) 4096) / 4096) := by
  obtain ⟨hType, hStop⟩ := hAvailable
  have hStart : (if region.base.toNat < reservedBelow then reservedBelow else region.base.toNat) =
        max region.base.toNat reservedBelow := by
    split
    · omega
    · omega
  unfold regionPages usableRange
  rw [if_neg (not_not.mpr hType)]
  dsimp only
  rw [u64_of_lt hStop, hStart, alignDown_page hStop]
  by_cases hBelow : region.base.toNat + region.length.toNat ≤ reservedBelow
  · rw [if_pos (Or.inr hBelow), if_pos hBelow]
  · rw [if_neg (by omega), if_neg hBelow]
    dsimp only
    congr 3
    omega

/- The rounded end of the kernel, where it does not wrap. -/
theorem alignUp_of_le (hValue : value ≤ 18446744073709547520) :
    alignUp value 4096 = (value + 4095) / 4096 * 4096 := by
  rw [alignUp_page, u64_of_lt (by omega)]
  omega

theorem alignUp_of_gt (hHigh : 18446744073709547520 < value)
    (hWord : value < 18446744073709551616) :
    alignUp value 4096 = 0 := by
  rw [alignUp_page]
  unfold u64
  omega

/- A region that is not mistracked gives its whole pages. -/
theorem regionPages_eq (hGood : ¬ Mistracked layout region) :
    regionPages (alignUp layout.kernelEnd.toNat 4096) region =
      pagesFrom ((max region.base.toNat layout.kernelEnd.toNat + 4095) / 4096 * 4096)
        (wholePages layout region) := by
  have hKernel := layout.kernelEnd.toNat_lt
  unfold wholePages
  by_cases hAvailable : Available region
  · rw [regionPages_of_available _ hAvailable, if_pos hAvailable]
    unfold Mistracked at hGood
    rw [and_iff_right hAvailable, not_or, not_or] at hGood
    obtain ⟨hBase, -, hLast⟩ := hGood
    have hStop := hAvailable.2
    by_cases hWrap : 18446744073709547520 < layout.kernelEnd.toNat
    · -- the kernel's end rounds to zero, no page is left
      rw [alignUp_of_gt hWrap hKernel, Nat.max_zero, alignUp_of_le (by omega)]
      have hNone : (region.base.toNat + region.length.toNat) / 4096 -
            (max region.base.toNat layout.kernelEnd.toNat + 4095) / 4096 = 0 := by
        omega
      rw [hNone]
      split
      · rw [pagesFrom_zero]
      · have hEmpty :
            ((region.base.toNat + region.length.toNat) / 4096 * 4096 -
              (region.base.toNat + 4095) / 4096 * 4096) / 4096 = 0 := by
          omega
        rw [hEmpty, pagesFrom_zero, pagesFrom_zero]
    · rw [alignUp_of_le (Nat.not_lt.mp hWrap), alignUp_of_le (by omega)]
      have hRound :
          (max region.base.toNat
              ((layout.kernelEnd.toNat + 4095) / 4096 * 4096) + 4095) / 4096 * 4096 =
            (max region.base.toNat layout.kernelEnd.toNat + 4095) / 4096 * 4096 := by
        omega
      rw [hRound]
      split
      · have hNone : (region.base.toNat + region.length.toNat) / 4096 -
              (max region.base.toNat layout.kernelEnd.toNat + 4095) / 4096 = 0 := by
          omega
        rw [hNone, pagesFrom_zero]
      · congr 1
        omega
  · rw [regionPages_of_not_available _ hAvailable, if_neg hAvailable, pagesFrom_zero]

theorem regionPages_length (hGood : ¬ Mistracked layout region) :
    (regionPages (alignUp layout.kernelEnd.toNat 4096)
      region).length = wholePages layout region := by
  rw [regionPages_eq hGood, length_pagesFrom]

/- Its pages may be handed out. -/
theorem usablePage_of_mem (hRegion : region ∈ regions) (hGood : ¬ Mistracked layout region)
    (hp : p ∈ regionPages (alignUp layout.kernelEnd.toNat 4096) region) :
    UsablePage regions layout p := by
  rw [regionPages_eq hGood, pagesFrom, List.mem_map] at hp
  obtain ⟨i, hi, rfl⟩ := hp
  rw [List.mem_range] at hi
  unfold wholePages at hi
  have hAvailable : Available region := by
    by_contra hNot
    rw [if_neg hNot] at hi
    omega
  rw [if_pos hAvailable] at hi
  unfold Mistracked at hGood
  rw [and_iff_right hAvailable, not_or, not_or] at hGood
  obtain ⟨-, hZero, -⟩ := hGood
  refine ⟨?_, ?_, ?_, region, hRegion, hAvailable.1, ?_, ?_⟩
  · unfold PageAligned
    omega
  · omega
  · omega
  · omega
  · omega

/- A mistracked region gives a page that may not, at once. -/
theorem Mistracked.regionPages (hBad : Mistracked layout region) :
    ∃ p rest, regionPages (alignUp layout.kernelEnd.toNat 4096) region = p :: rest ∧
      ∀ regions, ¬ UsablePage regions layout p := by
  obtain ⟨hAvailable, hCases⟩ := hBad
  have hStop := hAvailable.2
  have hBase := region.base.toNat_lt
  have hKernel := layout.kernelEnd.toNat_lt
  have hZero : ∀ regions, ¬ UsablePage regions layout 0 := by
    intro regions hUsable
    exact hUsable.nonzero rfl
  have hReserved : alignUp layout.kernelEnd.toNat 4096 ≤ 18446744073709547520 := by
    rw [alignUp_page]
    have hWord := u64_lt (layout.kernelEnd.toNat + 4095)
    omega
  rw [regionPages_of_available _ hAvailable]
  rcases hCases with hLast | hFirst | hEnd
  · -- the start wraps to zero
    have hStart : alignUp (max region.base.toNat (alignUp layout.kernelEnd.toNat 4096)) 4096 = 0 :=
      alignUp_of_gt (by omega) (by omega)
    have hSome :
        (region.base.toNat + region.length.toNat) / 4096 * 4096 / 4096 = 4503599627370494 + 1 := by
      omega
    rw [if_neg (by omega), hStart, Nat.sub_zero, hSome, pagesFrom_succ]
    exact ⟨0, _, rfl, hZero⟩
  · obtain ⟨hNone, hStart, hLength⟩ := hFirst
    obtain ⟨n, hSome⟩ : ∃ n, (0 + region.length.toNat) / 4096 * 4096 / 4096 = n + 1 :=
      Nat.exists_eq_succ_of_ne_zero (by omega)
    have hRound : alignUp 0 4096 = 0 := alignUp_of_le (Nat.zero_le _)
    rw [hNone, hStart, hRound, if_neg (by omega), Nat.max_self,
      hRound, Nat.sub_zero, hSome, pagesFrom_succ]
    exact ⟨0, _, rfl, hZero⟩
  · obtain ⟨hHigh, hPage⟩ := hEnd
    obtain ⟨n, hSome⟩ : ∃ n,
          ((region.base.toNat + region.length.toNat) / 4096 * 4096 -
            (region.base.toNat + 4095) / 4096 * 4096) / 4096 =
            n + 1 :=
      Nat.exists_eq_succ_of_ne_zero (by omega)
    rw [alignUp_of_gt hHigh hKernel, if_neg (by omega),
      Nat.max_zero, alignUp_of_le (by omega), hSome,
      pagesFrom_succ]
    refine ⟨_, _, rfl, ?_⟩
    intro regions hUsable
    have hAbove := hUsable.above
    omega

end Region

----------
-- All Tracked Pages

/- The first region that would be tracked wrongly comes when the page stack is full. -/
def MistrackedTooLate (regions : List MemoryRegion) (layout : MemoryLayout) : Prop :=
  ∀ before region after,
    regions = before ++ region :: after → (∀ q ∈ before, ¬ Mistracked layout q) →
        Mistracked layout region → 65536 ≤ (before.map (wholePages layout)).sum

theorem usablePages_append (before after : List MemoryRegion) (layout : MemoryLayout) :
    usablePages (before ++ after) layout = usablePages before layout ++ usablePages after layout :=
  List.flatMap_append

section Lists

variable {regions : List MemoryRegion}
variable {layout : MemoryLayout}

theorem usablePages_length (hGood : ∀ q ∈ regions, ¬ Mistracked layout q) :
    (usablePages regions layout).length = (regions.map (wholePages layout)).sum := by
  unfold usablePages
  rw [List.length_flatMap]
  congr 1
  apply List.map_congr_left
  intro q hq
  exact regionPages_length (hGood q hq)

theorem usablePage_of_mem_usablePages {before : List MemoryRegion} (hSubset : before ⊆ regions)
    (hGood : ∀ q ∈ before, ¬ Mistracked layout q) (hp : p ∈ usablePages before layout) :
    UsablePage regions layout p := by
  obtain ⟨q, hq, hPage⟩ := List.mem_flatMap.mp hp
  exact usablePage_of_mem (hSubset hq) (hGood q hq) hPage

/- A list is good, or has a first mistracked region. -/
theorem good_or_first_mistracked (regions : List MemoryRegion) (layout : MemoryLayout) :
    (∀ q ∈ regions, ¬ Mistracked layout q) ∨ ∃ before region after,
        regions = before ++ region :: after ∧ (∀ q ∈ before, ¬ Mistracked layout q) ∧
          Mistracked layout region := by
  cases hFind : regions.find? fun q => decide (Mistracked layout q) with
  | none =>
    left
    intro q hq
    exact of_decide_eq_false (Bool.eq_false_iff.mpr (List.find?_eq_none.mp hFind q hq))
  | some region =>
    right
    obtain ⟨hBad, before, after, hSplit, hBefore⟩ := List.find?_eq_some_iff_append.mp hFind
    refine ⟨before, region, after, hSplit, ?_, of_decide_eq_true hBad⟩
    intro q hq hOther
    have hNot := hBefore q hq
    rw [decide_eq_true hOther] at hNot
    exact absurd hNot (by decide)

end Lists

/-
  Every tracked page may be handed out exactly if no region that is tracked wrongly comes in time.
-/
theorem tracks_usable_iff (regions : List MemoryRegion) (layout : MemoryLayout) :
    (∀ p ∈ (pmmInit regions layout).stack, UsablePage regions layout p) ↔
      MistrackedTooLate regions layout := by
  constructor
  · intro hAll before region after hSplit hGood hBad
    by_contra hRoom
    obtain ⟨p, rest, hPages, hNot⟩ := hBad.regionPages
    have hLength := usablePages_length hGood
    have hMember : p ∈ (pmmInit regions layout).stack := by
      rw [mem_stack_pmmInit, hSplit, usablePages_append, List.take_append, List.mem_append]
      right
      have hMore : pmmMaxTrackedPages - (usablePages before layout).length =
          (pmmMaxTrackedPages - (usablePages before layout).length - 1) + 1 := by
        unfold pmmMaxTrackedPages
        omega
      have hHead :
          usablePages (region :: after) layout = p :: (rest ++ usablePages after layout) := by
        unfold usablePages
        rw [List.flatMap_cons, hPages, List.cons_append]
      rw [hMore, hHead, List.take_succ_cons]
      exact List.mem_cons_self
    exact hNot regions (hAll p hMember)
  · intro hLate p hp
    rw [mem_stack_pmmInit] at hp
    rcases good_or_first_mistracked regions layout with
      hGood | ⟨before, region, after, hSplit, hGood, hBad⟩
    · exact usablePage_of_mem_usablePages (List.Subset.refl _) hGood (List.mem_of_mem_take hp)
    · have hFull := hLate before region after hSplit hGood hBad
      have hLength := usablePages_length hGood
      have hSubset : before ⊆ regions := by
        rw [hSplit]
        exact List.subset_append_left _ _
      rw [hSplit, usablePages_append, List.take_append_of_le_length
        (by unfold pmmMaxTrackedPages; omega)] at hp
      exact usablePage_of_mem_usablePages hSubset hGood (List.mem_of_mem_take hp)

/- One byte of available memory in the last page of the address space: page zero is tracked. -/
theorem last_page_tracks_zero :
    0 ∈ (pmmInit [⟨0xFFFFFFFFFFFFF001, 1, 1⟩] ⟨0x100000, 0x200000⟩).stack ∧
      ¬ ∀ p ∈ (pmmInit [⟨0xFFFFFFFFFFFFF001, 1, 1⟩] ⟨0x100000, 0x200000⟩).stack,
        UsablePage [⟨0xFFFFFFFFFFFFF001, 1, 1⟩] ⟨0x100000, 0x200000⟩ p := by
  have hRange : usableRange (alignUp (MemoryLayout.mk 0x100000 0x200000).kernelEnd.toNat 4096)
          ⟨0xFFFFFFFFFFFFF001, 1, 1⟩ =
        some (0, 18446744073709547520) := by
    decide +kernel
  have hPages : usablePages [⟨0xFFFFFFFFFFFFF001, 1, 1⟩] ⟨0x100000, 0x200000⟩ =
        pagesFrom 0 (4503599627370494 + 1) := by
    rw [usablePages, List.flatMap_cons, List.flatMap_nil, List.append_nil, regionPages, hRange]
  have hZero : 0 ∈ (pmmInit [⟨0xFFFFFFFFFFFFF001, 1, 1⟩] ⟨0x100000, 0x200000⟩).stack := by
    rw [mem_stack_pmmInit, hPages, pagesFrom_succ, show pmmMaxTrackedPages = 65535 + 1 from rfl,
      List.take_succ_cons]
    exact List.mem_cons_self
  exact ⟨hZero, fun hAll => (hAll 0 hZero).nonzero rfl⟩

end LiamOS.X64
