import LiamOS.Lib.ByteMemory
import LiamOS.Lib.Word

/-
  The x86_64 framebuffer: its set-up from the boot summary, and the drawing of pixels and
  rectangles. Bytes are counted from the mapped address of the framebuffer on.

  The set-up compares the pitch with a 32-bit product, so that a screen whose rows take 2^32
  bytes or more can pass.

  Main declarations: `framebufferInit`, `framebufferFillRect`, `FramebufferState.Laid`,
  `framebufferDrawing_iff`.
-/

namespace LiamOS.X64

open LiamOS.Word

/- What `x86_64_framebuffer_init` reads of the boot summary and of the builder state. -/
structure FramebufferBoot where
  framebufferRgbFormatOk : Bool
  framebufferWidth : UInt32
  framebufferHeight : UInt32
  framebufferPitch : UInt32
  framebufferBpp : UInt8
  builderOk : Bool
  framebufferEntryOk : Bool

structure FramebufferState where
  bufferBytes : Nat
  width : Nat
  height : Nat
  pitch : Nat
  bytesPerPixel : Nat
  initialized : Bool

variable {s : FramebufferState} {boot : FramebufferBoot} {mem : ByteMemory}
variable {x y x' y' : Nat}

----------
-- The Code

def FramebufferBoot.formatReady (boot : FramebufferBoot) : Bool :=
  (boot.framebufferBpp = 24 ∨ boot.framebufferBpp = 32) ∧
    u32 (boot.framebufferWidth.toNat * (boot.framebufferBpp.toNat / 8)) ≤
      boot.framebufferPitch.toNat

/- The state of a set-up that goes through. -/
def FramebufferBoot.screen (boot : FramebufferBoot) : FramebufferState where
  bufferBytes := u64 (boot.framebufferPitch.toNat * boot.framebufferHeight.toNat)
  width := boot.framebufferWidth.toNat
  height := boot.framebufferHeight.toNat
  pitch := boot.framebufferPitch.toNat
  bytesPerPixel := boot.framebufferBpp.toNat / 8
  initialized := true

def framebufferInit (boot : FramebufferBoot) : FramebufferState :=
  if boot.framebufferRgbFormatOk && (boot.builderOk && boot.framebufferEntryOk) &&
      boot.formatReady then boot.screen
  else ⟨0, 0, 0, 0, 0, false⟩

def pixelOffset (s : FramebufferState) (x y : Nat) : Nat :=
  u64 (y * s.pitch + x * s.bytesPerPixel)

def pixelOffsetOk (s : FramebufferState) (x y : Nat) : Bool :=
  s.initialized ∧ x < s.width ∧ y < s.height ∧ s.bytesPerPixel ≠ 0 ∧
    u64 (pixelOffset s x y + s.bytesPerPixel) ≤ s.bufferBytes

/- A pixel is read and written as one word, or as three bytes. -/
def pixelBytes (s : FramebufferState) : Nat := if s.bytesPerPixel = 4 then 4 else 3

def readPixel (s : FramebufferState) (mem : ByteMemory) (x y : Nat) : Nat :=
  if pixelOffsetOk s x y then readLE mem (pixelOffset s x y) (pixelBytes s) else 0

def framebufferPutPixel (s : FramebufferState) (color : UInt32) (mem : ByteMemory) (x y : Nat) :
    Bool × ByteMemory :=
  if pixelOffsetOk s x y then
    (true, writeLE mem (pixelOffset s x y) (pixelBytes s) color.toNat)
  else (false, mem)

/- The pixels of a rectangle in the order of the two loops, up to the first that is refused. -/
def putPixels (s : FramebufferState) (color : UInt32) :
    List (Nat × Nat) → ByteMemory → Bool × ByteMemory
| [], mem => (true, mem)
| (x, y) :: rest, mem =>
    match framebufferPutPixel s color mem x y with
    | (true, mem') => putPixels s color rest mem'
    | (false, mem') => (false, mem')

/- The end of a side of the rectangle. Its sum may wrap. -/
def clippedEnd (start size limit : Nat) : Nat :=
  if limit < u32 (start + size) ∨ u32 (start + size) < start then limit else u32 (start + size)

def rectPixels (x endX y endY : Nat) : List (Nat × Nat) :=
  (List.range' y (endY - y)).flatMap fun row =>
    (List.range' x (endX - x)).map fun column => (column, row)

def framebufferFillRect (s : FramebufferState) (mem : ByteMemory) (x y : Nat)
    (width height color : UInt32) : Bool × ByteMemory :=
  if s.initialized ∧ x < s.width ∧ y < s.height then
    putPixels s color (rectPixels x (clippedEnd x width.toNat s.width)
      y (clippedEnd y height.toNat s.height)) mem
  else (false, mem)

----------
-- Exact Drawing

def FramebufferState.Has (s : FramebufferState) (x y : Nat) : Prop := x < s.width ∧ y < s.height

/- Two pixels whose bytes do not meet. -/
def FramebufferState.Apart (s : FramebufferState) (x y x' y' : Nat) : Prop :=
  pixelOffset s x y + s.bytesPerPixel ≤ pixelOffset s x' y' ∨
    pixelOffset s x' y' + s.bytesPerPixel ≤ pixelOffset s x y

/- A memory drawn on: the pixels that were meant have the part of the colour that a pixel holds,
  and the others are as before. -/
def FramebufferState.Drawn (s : FramebufferState) (color : UInt32) (meant : Nat → Nat → Prop)
    (mem mem' : ByteMemory) : Prop :=
  ∀ x y, s.Has x y →
    (meant x y → readPixel s mem' x y = color.toNat % 256 ^ s.bytesPerPixel) ∧
      (¬ meant x y → readPixel s mem' x y = readPixel s mem x y)

/- Pixels have bytes of their own in the buffer, and a rectangle sets its pixels alone. -/
structure FramebufferState.DrawsExactly (s : FramebufferState) : Prop where
  inside : ∀ x y, s.Has x y → pixelOffset s x y + s.bytesPerPixel ≤ s.pitch * s.height
  apart : ∀ x y x' y', s.Has x y → s.Has x' y' → (x, y) ≠ (x', y') → s.Apart x y x' y'
  fills : ∀ mem x y (width height color : UInt32), s.Has x y →
    (framebufferFillRect s mem x y width height color).1 = true ∧
      s.Drawn color
        (fun x' y' => (x ≤ x' ∧ x' < x + width.toNat) ∧ y ≤ y' ∧ y' < y + height.toNat)
        mem (framebufferFillRect s mem x y width height color).2

/- Rows that fit in the pitch, in a buffer that can be addressed. -/
structure FramebufferState.Laid (s : FramebufferState) : Prop where
  initialized : s.initialized = true
  pixel : s.bytesPerPixel = 3 ∨ s.bytesPerPixel = 4
  row : s.width * s.bytesPerPixel ≤ s.pitch
  bytes : s.bufferBytes = s.pitch * s.height
  fits : s.pitch * s.height < 18446744073709551616
  width : s.width < 4294967296
  height : s.height < 4294967296

namespace FramebufferState.Laid

variable (hLaid : s.Laid)
include hLaid

theorem pixelBytes_eq : pixelBytes s = s.bytesPerPixel := by
  have hPixel := hLaid.pixel
  unfold pixelBytes
  split <;> omega

theorem pixel_ends (hx : x < s.width) :
    y * s.pitch + x * s.bytesPerPixel + s.bytesPerPixel ≤ (y + 1) * s.pitch := by
  have hPixel := Nat.mul_le_mul_right s.bytesPerPixel hx
  rw [Nat.succ_mul] at hPixel
  rw [Nat.succ_mul]
  have hRow := hLaid.row
  omega

theorem offset_inside (hHas : s.Has x y) :
    y * s.pitch + x * s.bytesPerPixel + s.bytesPerPixel ≤ s.pitch * s.height := by
  rw [Nat.mul_comm s.pitch]
  exact (hLaid.pixel_ends hHas.1).trans (Nat.mul_le_mul_right s.pitch hHas.2)

theorem pixelOffset_eq (hHas : s.Has x y) :
    pixelOffset s x y = y * s.pitch + x * s.bytesPerPixel := by
  have hInside := hLaid.offset_inside hHas
  have hFits := hLaid.fits
  have hPixel := hLaid.pixel
  exact u64_of_lt (by omega)

theorem pixelOffset_inside (hHas : s.Has x y) :
    pixelOffset s x y + s.bytesPerPixel ≤ s.pitch * s.height := by
  rw [hLaid.pixelOffset_eq hHas]
  exact hLaid.offset_inside hHas

theorem pixelOffsetOk_eq (hHas : s.Has x y) : pixelOffsetOk s x y = true := by
  have hInside := hLaid.pixelOffset_inside hHas
  have hPixel := hLaid.pixel
  refine decide_eq_true ⟨hLaid.initialized, hHas.1, hHas.2, by omega, ?_⟩
  rw [u64_of_lt (lt_of_le_of_lt hInside hLaid.fits), hLaid.bytes]
  exact hInside

/- A pixel ends before the pixels behind it in its row, and before the later rows. -/
theorem pixelOffset_before (hHas : s.Has x y) (hHas' : s.Has x' y')
    (hBefore : y < y' ∨ y = y' ∧ x < x') :
    pixelOffset s x y + s.bytesPerPixel ≤ pixelOffset s x' y' := by
  rw [hLaid.pixelOffset_eq hHas, hLaid.pixelOffset_eq hHas']
  rcases hBefore with hRow | ⟨rfl, hColumn⟩
  · have hEnd := hLaid.pixel_ends (y := y) hHas.1
    have hRows : (y + 1) * s.pitch ≤ y' * s.pitch := Nat.mul_le_mul_right s.pitch hRow
    omega
  · have hPixel := Nat.mul_le_mul_right s.bytesPerPixel hColumn
    rw [Nat.succ_mul] at hPixel
    omega

theorem apart (hHas : s.Has x y) (hHas' : s.Has x' y') (hNe : (x, y) ≠ (x', y')) :
    s.Apart x y x' y' := by
  have hOther : (y < y' ∨ y = y' ∧ x < x') ∨ y' < y ∨ y' = y ∧ x' < x := by
    rw [Ne, Prod.mk.injEq] at hNe
    omega
  exact hOther.imp (hLaid.pixelOffset_before hHas hHas') (hLaid.pixelOffset_before hHas' hHas)

theorem readPixel_eq (mem : ByteMemory) (hHas : s.Has x y) :
    readPixel s mem x y = readLE mem (pixelOffset s x y) s.bytesPerPixel := by
  rw [readPixel, if_pos (hLaid.pixelOffsetOk_eq hHas), hLaid.pixelBytes_eq]

theorem putPixels_drawn (color : UInt32) (mem : ByteMemory) (pixels : List (Nat × Nat))
    (hPixels : ∀ x y, (x, y) ∈ pixels → s.Has x y) :
    (putPixels s color pixels mem).1 = true ∧
      s.Drawn color (fun x y => (x, y) ∈ pixels) mem (putPixels s color pixels mem).2 := by
  induction pixels generalizing mem with
  | nil => exact ⟨rfl, fun x y _ => ⟨fun hMem => absurd hMem List.not_mem_nil, fun _ => rfl⟩⟩
  | cons p rest ih =>
    have hHas := hPixels p.1 p.2 List.mem_cons_self
    rw [putPixels, framebufferPutPixel, if_pos (hLaid.pixelOffsetOk_eq hHas), hLaid.pixelBytes_eq]
    obtain ⟨hDone, hRest⟩ := ih (writeLE mem _ _ _) fun x y hMem =>
      hPixels x y (List.mem_cons_of_mem p hMem)
    refine ⟨hDone, fun x y hHas' => ?_⟩
    by_cases hLater : (x, y) ∈ rest
    · have hShown := (hRest x y hHas').1 hLater
      exact ⟨fun _ => hShown, fun hNot => absurd (List.mem_cons_of_mem p hLater) hNot⟩
    have hKept := (hRest x y hHas').2 hLater
    rw [hLaid.readPixel_eq (writeLE mem _ _ _) hHas'] at hKept
    constructor
    · intro hMem
      obtain rfl := (List.mem_cons.mp hMem).resolve_right hLater
      exact hKept.trans readLE_writeLE
    · intro hNot
      have hApart : _ ∨ _ := hLaid.apart hHas' hHas (List.ne_of_not_mem_cons hNot)
      rw [hLaid.readPixel_eq mem hHas']
      exact hKept.trans (readLE_congr fun a hLow hHigh => writeLE_outside (by omega))

end FramebufferState.Laid

/- A wrapped end lies below its start, so that the side is cut at the limit as it should be. -/
theorem lt_clippedEnd {start limit i : Nat} (size : UInt32) (hLimit : limit < 4294967296)
    (hStart : start < limit) :
    i < clippedEnd start size.toNat limit ↔ i < start + size.toNat ∧ i < limit := by
  have hSize := size.toNat_lt
  unfold clippedEnd u32
  split <;> omega

theorem mem_rectPixels {endX endY : Nat} :
    (x', y') ∈ rectPixels x endX y endY ↔ (x ≤ x' ∧ x' < endX) ∧ y ≤ y' ∧ y' < endY := by
  simp only [rectPixels, List.mem_flatMap, List.mem_map, List.mem_range'_1, Prod.mk.injEq]
  constructor
  · rintro ⟨row, hRow, column, hColumn, rfl, rfl⟩
    omega
  · intro hMem
    exact ⟨y', by omega, x', by omega, rfl, rfl⟩

theorem FramebufferState.Laid.drawsExactly (hLaid : s.Laid) : s.DrawsExactly where
  inside := fun _ _ => hLaid.pixelOffset_inside
  apart := fun _ _ _ _ => hLaid.apart
  fills := by
    intro mem x y width height color hHas
    rw [framebufferFillRect, if_pos ⟨hLaid.initialized, hHas⟩]
    have hRect : ∀ x' y', (x', y') ∈ rectPixels x (clippedEnd x width.toNat s.width)
        y (clippedEnd y height.toNat s.height) ↔ s.Has x' y' ∧
          (x ≤ x' ∧ x' < x + width.toNat) ∧ y ≤ y' ∧ y' < y + height.toNat := by
      intro x' y'
      rw [mem_rectPixels, lt_clippedEnd width hLaid.width hHas.1,
        lt_clippedEnd height hLaid.height hHas.2]
      unfold FramebufferState.Has
      omega
    obtain ⟨hDone, hDrawn⟩ := hLaid.putPixels_drawn color mem _
      fun x' y' hMem => ((hRect x' y').mp hMem).1
    refine ⟨hDone, fun x' y' hHas' => ⟨fun hMeant => ?_, fun hNot => ?_⟩⟩
    · exact (hDrawn x' y' hHas').1 ((hRect x' y').mpr ⟨hHas', hMeant⟩)
    · exact (hDrawn x' y' hHas').2 fun hMem => hNot ((hRect x' y').mp hMem).2

----------
-- The Set-Up

theorem framebufferInit_cases (hInit : (framebufferInit boot).initialized = true) :
    boot.formatReady = true ∧ framebufferInit boot = boot.screen := by
  unfold framebufferInit at hInit ⊢
  split at hInit
  case isTrue hReady => exact ⟨(Bool.and_eq_true_iff.mp hReady).2, if_pos hReady⟩
  case isFalse => cases hInit

theorem screen_pixel (hReady : boot.formatReady = true) :
    boot.screen.bytesPerPixel = 3 ∨ boot.screen.bytesPerPixel = 4 := by
  apply (of_decide_eq_true hReady).1.imp
  all_goals
    intro hBpp
    rw [FramebufferBoot.screen, hBpp]
    rfl

theorem screen_fits : boot.screen.pitch * boot.screen.height < 18446744073709551616 :=
  Nat.mul_lt_mul'' boot.framebufferPitch.toNat_lt boot.framebufferHeight.toNat_lt

theorem screen_laid (hReady : boot.formatReady = true)
    (hRow : boot.screen.width * boot.screen.bytesPerPixel < 4294967296) : boot.screen.Laid where
  initialized := rfl
  pixel := screen_pixel hReady
  row := (u32_of_lt hRow).symm.trans_le (of_decide_eq_true hReady).2
  bytes := u64_of_lt screen_fits
  fits := screen_fits
  width := boot.framebufferWidth.toNat_lt
  height := boot.framebufferHeight.toNat_lt

/- A row of 2^32 bytes or more runs out of the buffer, or into the row behind it. -/
theorem FramebufferState.DrawsExactly.row_lt (hExact : s.DrawsExactly)
    (hPixel : s.bytesPerPixel = 3 ∨ s.bytesPerPixel = 4) (hPitch : s.pitch < 4294967296)
    (hWidth : s.width < 4294967296) (hRows : 0 < s.height) :
    s.width * s.bytesPerPixel < 4294967296 := by
  by_contra hRow
  obtain ⟨last, hLast⟩ : ∃ last, s.width = last + 1 := by
    apply Nat.exists_eq_succ_of_ne_zero
    intro hZero
    rw [hZero, Nat.zero_mul] at hRow
    omega
  have hFirst : ∀ x < s.width, pixelOffset s x 0 = x * s.bytesPerPixel := by
    intro x hx
    have hSize : x * s.bytesPerPixel ≤ x * 4 := Nat.mul_le_mul_left x (by omega)
    rw [pixelOffset, Nat.zero_mul, Nat.zero_add]
    exact u64_of_lt (by omega)
  rcases Nat.eq_or_lt_of_le hRows with hOne | hSecond
  · have hInside := hExact.inside last 0 ⟨by omega, hRows⟩
    rw [hFirst last (by omega), ← Nat.succ_mul, Nat.succ_eq_add_one, ← hLast, ← hOne] at hInside
    omega
  · -- The pixel of the first row that the second row begins in.
    have hBegin : s.pitch / s.bytesPerPixel < s.width :=
      (Nat.div_lt_iff_lt_mul (by omega)).mpr (by omega)
    have hApart : _ ∨ _ := hExact.apart (s.pitch / s.bytesPerPixel) 0 0 1 ⟨hBegin, hRows⟩
      ⟨by omega, hSecond⟩ (by simp)
    rw [hFirst _ hBegin, pixelOffset, Nat.one_mul, Nat.zero_mul, u64_of_lt (by omega)] at hApart
    have hDiv := Nat.div_add_mod' s.pitch s.bytesPerPixel
    have hMod := Nat.mod_lt s.pitch (show 0 < s.bytesPerPixel by omega)
    omega

/- Drawing is exact if and only if a row of the screen takes less than 2^32 bytes, or there is
  no row. -/
theorem framebufferDrawing_iff (boot : FramebufferBoot)
    (hInit : (framebufferInit boot).initialized = true) :
    (framebufferInit boot).DrawsExactly ↔
      boot.framebufferWidth.toNat * (boot.framebufferBpp.toNat / 8) < 4294967296 ∨
        boot.framebufferHeight = 0 := by
  obtain ⟨hReady, hScreen⟩ := framebufferInit_cases hInit
  rw [hScreen]
  constructor
  · intro hExact
    rcases Nat.eq_zero_or_pos boot.framebufferHeight.toNat with hNone | hRows
    · exact Or.inr (UInt32.toNat_inj.mp hNone)
    · exact Or.inl (hExact.row_lt (screen_pixel hReady) boot.framebufferPitch.toNat_lt
        boot.framebufferWidth.toNat_lt hRows)
  · rintro (hRow | hNone)
    · exact (screen_laid hReady hRow).drawsExactly
    · have hEmpty : ∀ x y, ¬ boot.screen.Has x y := by
        intro x y hHas
        have hLt : y < boot.framebufferHeight.toNat := hHas.2
        rw [hNone] at hLt
        exact absurd hLt (Nat.not_lt_zero y)
      constructor
      · exact fun x y hHas => absurd hHas (hEmpty x y)
      · exact fun x y x' y' hHas => absurd hHas (hEmpty x y)
      · exact fun mem x y width height color hHas => absurd hHas (hEmpty x y)

/- One row of 2^32 + 4 bytes, with a pitch of 4. -/
def wrappedRow : FramebufferBoot := ⟨true, 1073741825, 1, 4, 32, true, true⟩

theorem framebufferDrawing_iff_narrow :
    (framebufferInit { wrappedRow with framebufferWidth := 1 }).DrawsExactly :=
  (framebufferDrawing_iff _ rfl).mpr (Or.inl (by decide))

theorem wrapped_row_is_refused :
    (framebufferInit wrappedRow).initialized = true ∧
      ¬ (framebufferInit wrappedRow).DrawsExactly := by
  refine ⟨rfl, fun hExact => ?_⟩
  have hFilled := (hExact.fills (fun _ => 0) 1 0 1 1 0 ⟨by decide, by decide⟩).1
  exact absurd hFilled (by decide)

end LiamOS.X64
