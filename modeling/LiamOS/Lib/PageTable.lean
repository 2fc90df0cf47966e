import LiamOS.Lib.ByteMemory
import LiamOS.Lib.Word

/-
  Page tables of the x86_64 long mode in a byte memory.

  A table is a page of 512 entries of 64 bits. An entry is a page address with flags in its low 12
  bits. A walk goes through four levels; an entry of the second or third level with the size flag
  ends it early.

  Key definitions: `entryAt`, `setEntry`, `fillEntries`, `writeEntries`, `OnlyPages`,
  `PageFamily`, `walk`, `UserAt`.
-/

namespace LiamOS.PageTable

variable {first index j n p value : Nat} {pages : List Nat} {mem mem' : ByteMemory}

----------
-- Pages

/- The page an address is in. -/
def pageOf (x : Nat) : Nat := x - x % 4096

def PageAligned (p : Nat) : Prop := p % 4096 = 0

instance (p : Nat) : Decidable (PageAligned p) := by
  unfold PageAligned
  infer_instance

theorem pageOf_add {i : Nat} (hAligned : PageAligned p) (hi : i < 4096) : pageOf (p + i) = p := by
  unfold PageAligned at hAligned
  unfold pageOf
  omega

/- Only bytes of the given pages differ. -/
def OnlyPages (pages : List Nat) (mem mem' : ByteMemory) : Prop :=
  ∀ x, pageOf x ∉ pages → mem' x = mem x

theorem OnlyPages.refl (pages : List Nat) (mem : ByteMemory) : OnlyPages pages mem mem :=
  fun _ _ => rfl

theorem OnlyPages.trans {mem'' : ByteMemory} (hFirst : OnlyPages pages mem mem')
    (hSecond : OnlyPages pages mem' mem'') :
    OnlyPages pages mem mem'' := by
  intro x hx
  rw [hSecond x hx, hFirst x hx]

theorem OnlyPages.symm (hOnly : OnlyPages pages mem mem') : OnlyPages pages mem' mem :=
  fun x hPage => (hOnly x hPage).symm

theorem OnlyPages.mono {pages' : List Nat} (hOnly : OnlyPages pages mem mem')
    (hSubset : pages ⊆ pages') :
    OnlyPages pages' mem mem' := by
  intro x hx
  exact hOnly x fun hMem => hx (hSubset hMem)

----------
-- Entries

def entryAt (mem : ByteMemory) (table index : Nat) : Nat := readLE mem (table + 8 * index) 8

def setEntry (mem : ByteMemory) (table index value : Nat) : ByteMemory :=
  writeLE mem (table + 8 * index) 8 value

theorem OnlyPages.entryAt_eq (hOnly : OnlyPages pages mem mem') {table : Nat}
    (hAligned : PageAligned table) (hOther : table ∉ pages) (hIndex : index < 512) :
    entryAt mem' table index = entryAt mem table index := by
  apply readLE_congr
  intro x hLow hHigh
  apply hOnly
  obtain ⟨i, rfl⟩ := Nat.exists_eq_add_of_le hLow
  rw [Nat.add_assoc, pageOf_add hAligned (by omega)]
  exact hOther

theorem onlyPages_setEntry {mem : ByteMemory} {table index value : Nat}
    (hAligned : PageAligned table) (hIndex : index < 512) :
    OnlyPages [table] mem (setEntry mem table index value) := by
  intro x hx
  apply writeLE_outside
  by_contra hInside
  push Not at hInside
  obtain ⟨i, rfl⟩ := Nat.exists_eq_add_of_le hInside.1
  rw [Nat.add_assoc, pageOf_add hAligned (by omega)] at hx
  exact hx (by simp)

/- An entry after a write to the same table. -/
theorem entryAt_setEntry {table : Nat} (hValue : value < 18446744073709551616) :
    entryAt (setEntry mem table index value) table j =
      if j = index then value else entryAt mem table j := by
  by_cases hj : j = index
  · rw [if_pos hj, hj]
    exact readLE_writeLE_self hValue
  · rw [if_neg hj]
    apply readLE_congr
    intro x hLow hHigh
    apply writeLE_outside
    omega

def clearPage (mem : ByteMemory) (page : Nat) : ByteMemory := clearBytes mem page 4096

def copyPage (mem : ByteMemory) (dest src : Nat) : ByteMemory := copyBytes mem dest src 4096

theorem onlyPages_of_range {page : Nat} (hAligned : PageAligned page)
    (hOutside : ∀ x, x < page ∨ page + 4096 ≤ x → mem' x = mem x) :
    OnlyPages [page] mem mem' := by
  intro x hx
  apply hOutside
  by_contra hInside
  push Not at hInside
  obtain ⟨i, rfl⟩ := Nat.exists_eq_add_of_le hInside.1
  rw [pageOf_add hAligned (by omega)] at hx
  exact hx (by simp)

theorem onlyPages_clearPage {mem : ByteMemory} {page : Nat} (hAligned : PageAligned page) :
    OnlyPages [page] mem (clearPage mem page) := by
  apply onlyPages_of_range hAligned
  intro x hx
  rw [clearPage, clearBytes_apply, if_neg (by omega)]

theorem onlyPages_copyBytes {dest src : Nat} (hAligned : PageAligned dest) (hSize : n ≤ 4096) :
    OnlyPages [dest] mem (copyBytes mem dest src n) := by
  apply onlyPages_of_range hAligned
  intro x hx
  exact copyBytes_outside (by omega)

/- Distinct pages do not meet. -/
theorem pages_apart {q : Nat} (hp : PageAligned p) (hq : PageAligned q) (hNe : p ≠ q) :
    p + 4096 ≤ q ∨ q + 4096 ≤ p := by
  unfold PageAligned at hp hq
  omega

theorem entryAt_copyPage {mem : ByteMemory} {dest src index : Nat} (hDest : PageAligned dest)
    (hSrc : PageAligned src) (hNe : dest ≠ src) (hIndex : index < 512) :
    entryAt (copyPage mem dest src) dest index = entryAt mem src index := by
  apply readLE_shift
  intro i hi
  rw [Nat.add_assoc, Nat.add_assoc]
  exact copyBytes_inside (pages_apart hDest hSrc hNe) (by omega)

----------
-- Families Of Pages

/- Distinct pages under the names of `ι`. -/
structure PageFamily {ι : Type} (page : ι → Nat) : Prop where
  injective : Function.Injective page
  aligned : ∀ i, PageAligned (page i)

/- Write entries from an index on, as many as there are turns. -/
def fillEntries (mem : ByteMemory) (table first : Nat) (value : Nat → Nat) : Nat → ByteMemory
| 0 => mem
| n + 1 => setEntry (fillEntries mem table first value n) table (first + n) (value n)

theorem onlyPages_fillEntries {table : Nat} {value : Nat → Nat} (hAligned : PageAligned table)
    (hFit : first + n ≤ 512) :
    OnlyPages [table] mem (fillEntries mem table first value n) := by
  induction n with
  | zero => exact OnlyPages.refl _ _
  | succ n ih => exact (ih (by omega)).trans (onlyPages_setEntry hAligned (by omega))

/- Write entries of named tables, in order. -/
def writeEntries {ι : Type} (page : ι → Nat) (mem : ByteMemory)
    (writes : List (ι × Nat × Nat)) : ByteMemory :=
  writes.foldl (fun m w => setEntry m (page w.1) w.2.1 w.2.2) mem

/- The last value written to an entry, or its old one. -/
def lastEntry {ι : Type} [DecidableEq ι] (table : ι) (j : Nat) (writes : List (ι × Nat × Nat))
    (old : Nat) : Nat :=
  writes.foldl (fun e w => if w.1 = table ∧ j = w.2.1 then w.2.2 else e) old

section LastEntry

variable {ι : Type} [DecidableEq ι]
variable {table a : ι}
variable {j i v old : Nat}
variable {writes : List (ι × Nat × Nat)}

theorem lastEntry_nil : lastEntry table j [] old = old := by
  rw [lastEntry, List.foldl_nil]

theorem lastEntry_same : lastEntry table j ((table, i, v) :: writes) old =
      lastEntry table j writes (if j = i then v else old) := by
  simp [lastEntry]

theorem lastEntry_other (hTable : a ≠ table) :
    lastEntry table j ((a, i, v) :: writes) old = lastEntry table j writes old := by
  simp [lastEntry, hTable]

end LastEntry

namespace PageFamily

variable {ι : Type} [DecidableEq ι]
variable {page : ι → Nat}

theorem entryAt_setEntry (hPages : PageFamily page) (a b : ι) (hIndex : index < 512) (hj : j < 512)
    (hValue : value < 18446744073709551616) :
    entryAt (setEntry mem (page a) index value) (page b) j = if a = b ∧ j = index then
        value
      else
        entryAt mem (page b) j := by
  by_cases hEq : a = b
  · rw [hEq, PageTable.entryAt_setEntry hValue]
    by_cases hji : j = index
    · rw [if_pos hji, if_pos ⟨rfl, hji⟩]
    · rw [if_neg hji, if_neg fun h => hji h.2]
  · rw [if_neg fun h => hEq h.1]
    apply (onlyPages_setEntry (hPages.aligned a) hIndex).entryAt_eq (hPages.aligned b) _ hj
    intro hMem
    exact hEq (hPages.injective (List.mem_singleton.mp hMem)).symm

theorem entryAt_writeEntries (hPages : PageFamily page) (b : ι) {writes : List (ι × Nat × Nat)}
    (hj : j < 512) (hWrites : ∀ w ∈ writes, w.2.1 < 512 ∧ w.2.2 < 18446744073709551616) :
    entryAt (writeEntries page mem writes) (page b) j =
      lastEntry b j writes (entryAt mem (page b) j) := by
  induction writes generalizing mem with
  | nil => rfl
  | cons w writes ih =>
    have hFirst := hWrites w (by simp)
    rw [writeEntries, List.foldl_cons, lastEntry, List.foldl_cons,
      ← hPages.entryAt_setEntry w.1 b hFirst.1 hj hFirst.2]
    exact ih fun v hv => hWrites v (by simp [hv])

theorem entryAt_copyPage (hPages : PageFamily page) {mem : ByteMemory} (a b : ι) {src j : Nat}
    (hSrc : PageAligned src) (hApart : page a ≠ src) (hj : j < 512) :
    entryAt (copyPage mem (page a) src) (page b) j = if a = b then
        entryAt mem src j
      else
        entryAt mem (page b) j := by
  by_cases hEq : a = b
  · rw [if_pos hEq, ← hEq]
    exact PageTable.entryAt_copyPage (hPages.aligned a) hSrc hApart hj
  · rw [if_neg hEq]
    apply (onlyPages_copyBytes (hPages.aligned a) (le_refl 4096)).entryAt_eq (hPages.aligned b) _ hj
    intro hMem
    exact hEq (hPages.injective (List.mem_singleton.mp hMem)).symm

omit [DecidableEq ι] in
theorem onlyPages_writeEntries (hPages : PageFamily page) {writes : List (ι × Nat × Nat)}
    (hWrites : ∀ w ∈ writes, w.2.1 < 512 ∧ page w.1 ∈ pages) :
    OnlyPages pages mem (writeEntries page mem writes) := by
  induction writes generalizing mem with
  | nil => exact OnlyPages.refl _ _
  | cons w writes ih =>
    have hFirst := hWrites w (by simp)
    have hSet : OnlyPages pages mem (setEntry mem (page w.1) w.2.1 w.2.2) :=
      (onlyPages_setEntry (hPages.aligned w.1) hFirst.1).mono (by simpa using hFirst.2)
    exact hSet.trans (ih fun v hv => hWrites v (by simp [hv]))

theorem entryAt_fillEntries (hPages : PageFamily page) (a b : ι) {value : Nat → Nat}
    (hFit : first + n ≤ 512) (hj : j < 512) (hValue : ∀ i < n, value i < 18446744073709551616) :
    entryAt (fillEntries mem (page a) first value n) (page b) j =
      if a = b ∧ first ≤ j ∧ j < first + n then
        value (j - first)
      else
        entryAt mem (page b) j := by
  induction n with
  | zero => rw [fillEntries, if_neg (by omega)]
  | succ n ih =>
    rw [fillEntries, hPages.entryAt_setEntry a b (by omega) hj (hValue n (by omega)),
      ih (by omega) fun i hi => hValue i (by omega)]
    by_cases hLast : a = b ∧ j = first + n
    · rw [if_pos hLast, if_pos ⟨hLast.1, by omega, by omega⟩, show j - first = n by omega]
    · rw [if_neg hLast]
      by_cases hIn : a = b ∧ first ≤ j ∧ j < first + n
      · rw [if_pos hIn, if_pos ⟨hIn.1, by omega, by omega⟩]
      · rw [if_neg hIn, if_neg]
        rintro ⟨hEq, hLow, hHigh⟩
        have hNot : j ≠ first + n := fun h => hLast ⟨hEq, h⟩
        exact hIn ⟨hEq, hLow, by omega⟩

end PageFamily

----------
-- Flags

def entryPresent (entry : Nat) : Bool := entry.testBit 0

def entryWritable (entry : Nat) : Bool := entry.testBit 1

def entryUser (entry : Nat) : Bool := entry.testBit 2

def entryHuge (entry : Nat) : Bool := entry.testBit 7

/- The page an entry points to. -/
def entryPage (entry : Nat) : Nat := pageOf entry

section Flags

variable {p f : Nat}

theorem or_flags (hp : PageAligned p) (hf : f < 4096) : p ||| f = p + f :=
  Word.or_eq_add_of_low 12 hp hf

theorem or_flags_lt (hp : PageAligned p) (hBound : p < 18446744073709551616) (hf : f < 4096) :
    p ||| f < 18446744073709551616 := by
  rw [or_flags hp hf]
  unfold PageAligned at hp
  omega

theorem entryPage_or (hp : PageAligned p) (hf : f < 4096) : entryPage (p ||| f) = p := by
  rw [or_flags hp hf]
  exact pageOf_add hp hf

/- The flags of an entry are not changed by its page. -/
theorem testBit_or_flags (hp : PageAligned p) {k : Nat} (hk : k < 12) :
    (p ||| f).testBit k = f.testBit k := by
  have hLow : (p % 2 ^ 12).testBit k = p.testBit k := by
    rw [Nat.testBit_mod_two_pow, decide_eq_true hk, Bool.true_and]
  have hZero : p % 2 ^ 12 = 0 := hp
  rw [hZero, Nat.zero_testBit] at hLow
  rw [Nat.testBit_or, ← hLow, Bool.false_or]

end Flags

----------
-- Walks

def pml4Index (va : Nat) : Nat := va / 549755813888 % 512

def pdptIndex (va : Nat) : Nat := va / 1073741824 % 512

def pdIndex (va : Nat) : Nat := va / 2097152 % 512

def ptIndex (va : Nat) : Nat := va / 4096 % 512

/- The 64-bit addresses the processor accepts. -/
def Canonical (va : Nat) : Prop :=
  va < 140737488355328 ∨ (18446603336221196288 ≤ va ∧ va < 18446744073709551616)

instance (va : Nat) : Decidable (Canonical va) := by
  unfold Canonical
  infer_instance

structure Translation where
  physical : Nat
  user : Bool
  writable : Bool
deriving DecidableEq, Repr

/- The rights of a translation are those of all its entries. -/
def Translation.restrict (t : Translation) (entry : Nat) : Translation :=
  { t with
    user := entryUser entry && t.user
    writable := entryWritable entry && t.writable }

def walkPt (mem : ByteMemory) (table va : Nat) : Option Translation :=
  let entry := entryAt mem table (ptIndex va)
  if entryPresent entry then
    some ⟨entryPage entry + va % 4096, entryUser entry, entryWritable entry⟩
  else
    none

def walkPd (mem : ByteMemory) (table va : Nat) : Option Translation :=
  let entry := entryAt mem table (pdIndex va)
  if entryPresent entry then
    if entryHuge entry then
      some ⟨entry - entry % 2097152 + va % 2097152, entryUser entry, entryWritable entry⟩
    else
      (walkPt mem (entryPage entry) va).map (·.restrict entry)
  else
    none

def walkPdpt (mem : ByteMemory) (table va : Nat) : Option Translation :=
  let entry := entryAt mem table (pdptIndex va)
  if entryPresent entry then
    if entryHuge entry then
      some ⟨entry - entry % 1073741824 + va % 1073741824, entryUser entry, entryWritable entry⟩
    else
      (walkPd mem (entryPage entry) va).map (·.restrict entry)
  else
    none

/- The translation of an address by the tables at `cr3`. -/
def walk (mem : ByteMemory) (cr3 va : Nat) : Option Translation := if Canonical va then
    let entry := entryAt mem cr3 (pml4Index va)
    if entryPresent entry then (walkPdpt mem (entryPage entry) va).map (·.restrict entry) else none
  else
    none

/- The address is mapped for user mode at every level. -/
def UserAt (mem : ByteMemory) (cr3 va : Nat) : Prop := ∃ t, walk mem cr3 va = some t ∧ t.user = true

/- A walk through an entry that points to a table. -/
section Tables

variable {mem : ByteMemory} {va table next f : Nat}

theorem Translation.restrict_or (t : Translation) (hNext : PageAligned next) :
    t.restrict (next ||| f) = t.restrict f := by
  rw [Translation.restrict, Translation.restrict, entryUser,
    entryUser, entryWritable, entryWritable, testBit_or_flags hNext (by decide),
    testBit_or_flags hNext (by decide)]

theorem walk_absent (hEntry : entryAt mem table (pml4Index va) = 0) : walk mem table va = none := by
  simp [walk, hEntry, entryPresent]

theorem walk_table (hCanonical : Canonical va)
    (hEntry : entryAt mem table (pml4Index va) = next ||| f) (hNext : PageAligned next)
    (hf : f < 4096) (hPresent : f.testBit 0 = true) :
    walk mem table va = (walkPdpt mem next va).map (·.restrict f) := by
  simp only [walk, if_pos hCanonical, hEntry, entryPresent,
    testBit_or_flags hNext (show 0 < 12 by decide), hPresent,
    if_true, entryPage_or hNext hf,
    Translation.restrict_or _ hNext]

theorem walkPdpt_absent (hEntry : entryAt mem table (pdptIndex va) = 0) :
    walkPdpt mem table va = none := by
  simp [walkPdpt, hEntry, entryPresent]

theorem walkPdpt_table (hEntry : entryAt mem table (pdptIndex va) = next ||| f)
    (hNext : PageAligned next) (hf : f < 4096) (hPresent : f.testBit 0 = true)
    (hSmall : f.testBit 7 = false) :
    walkPdpt mem table va = (walkPd mem next va).map (·.restrict f) := by
  simp only [walkPdpt, hEntry, entryPresent, entryHuge,
    testBit_or_flags hNext (show 0 < 12 by decide),
    testBit_or_flags hNext (show 7 < 12 by decide), hPresent,
    hSmall, if_true, Bool.false_eq_true, if_false,
    entryPage_or hNext hf, Translation.restrict_or _ hNext]

theorem walkPd_absent (hEntry : entryAt mem table (pdIndex va) = 0) :
    walkPd mem table va = none := by
  simp [walkPd, hEntry, entryPresent]

theorem walkPd_table (hEntry : entryAt mem table (pdIndex va) = next ||| f)
    (hNext : PageAligned next) (hf : f < 4096) (hPresent : f.testBit 0 = true)
    (hSmall : f.testBit 7 = false) :
    walkPd mem table va = (walkPt mem next va).map (·.restrict f) := by
  simp only [walkPd, hEntry, entryPresent, entryHuge,
    testBit_or_flags hNext (show 0 < 12 by decide),
    testBit_or_flags hNext (show 7 < 12 by decide), hPresent,
    hSmall, if_true, Bool.false_eq_true, if_false,
    entryPage_or hNext hf, Translation.restrict_or _ hNext]

/- A huge page of 2 MiB. -/
theorem walkPd_huge (hEntry : entryAt mem table (pdIndex va) = next ||| f)
    (hNext : next % 2097152 = 0) (hf : f < 4096) (hPresent : f.testBit 0 = true)
    (hHuge : f.testBit 7 = true) :
    walkPd mem table va = some ⟨next + va % 2097152, f.testBit 2, f.testBit 1⟩ := by
  have hAligned : PageAligned next := by
    unfold PageAligned
    omega
  have hBase : (next ||| f) - (next ||| f) % 2097152 = next := by
    rw [or_flags hAligned hf]
    omega
  simp only [walkPd, hEntry, entryPresent, entryHuge, entryUser, entryWritable,
    testBit_or_flags hAligned (show 0 < 12 by decide),
    testBit_or_flags hAligned (show 1 < 12 by decide),
    testBit_or_flags hAligned (show 2 < 12 by decide),
    testBit_or_flags hAligned (show 7 < 12 by decide),
    hPresent, hHuge, if_true, hBase]

theorem walkPt_absent (hEntry : entryAt mem table (ptIndex va) = 0) :
    walkPt mem table va = none := by
  simp [walkPt, hEntry, entryPresent]

theorem walkPt_page (hEntry : entryAt mem table (ptIndex va) = next ||| f)
    (hNext : PageAligned next) (hf : f < 4096) (hPresent : f.testBit 0 = true) :
    walkPt mem table va = some ⟨next + va % 4096, f.testBit 2, f.testBit 1⟩ := by
  simp only [walkPt, hEntry, entryPresent, entryUser, entryWritable,
    testBit_or_flags hNext (show 0 < 12 by decide),
    testBit_or_flags hNext (show 1 < 12 by decide),
    testBit_or_flags hNext (show 2 < 12 by decide), hPresent,
    if_true, entryPage_or hNext hf]

end Tables

theorem pml4Index_lt (va : Nat) : pml4Index va < 512 := Nat.mod_lt _ (by decide)

theorem pdptIndex_lt (va : Nat) : pdptIndex va < 512 := Nat.mod_lt _ (by decide)

theorem pdIndex_lt (va : Nat) : pdIndex va < 512 := Nat.mod_lt _ (by decide)

theorem ptIndex_lt (va : Nat) : ptIndex va < 512 := Nat.mod_lt _ (by decide)

end LiamOS.PageTable
