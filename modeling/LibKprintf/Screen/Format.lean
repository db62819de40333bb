import LibKprintf.Screen.Initex
import LibKprintf.Screen.Clear

/-! Whether clear_screen and scr_putchar stay inside the frame buffer of the stored mode. The mode
says how wide its pixels are, the build says how wide they are drawn.
-/

namespace LibKprintf

open Foundation

variable {build : ScrBuild} {mode : Int} {t : Screen}

/-- The screens whose mode and offset were set: by scr_set_vram_mode while the offset is 0, or by a
successful call of scr_initex.
-/
inductive ModeStored (build : ScrBuild) (mode : Int) : Screen → Prop
  | setVramMode (s : Screen) (offset : s.gScr.vramOffset = 0)
    : ModeStored build mode (scrSetVramMode s mode).1
  | initex (display : Display) (s : Screen) (vramBase flags : U32)
    (success : (scrInitex build display s vramBase mode flags).2 = 0)
    : ModeStored build mode (scrInitex build display s vramBase mode flags).1

/-- All bytes that are marked as written belong to the frame buffer of the stored mode. -/
def Screen.WithinFrame (s : Screen) : Prop :=
  ∀ a, s.vram.written a = true → (a - s.gScr.vramBase).toNat < s.gScr.frameBytes

/-- All bytes that clear_screen and scr_putchar write belong to the frame buffer of the stored mode.
-/
structure StoresFit (build : ScrBuild) (t : Screen) : Prop where
  clearScreen : ∀ color, (clearScreen build t.unmarked color).WithinFrame
  putchar
    : ∀ cx < mx, ∀ cy < my, ∀ fgcol ch,
        (scrPutchar build t.unmarked (7 * cx : Nat) (8 * cy : Nat) fgcol ch).WithinFrame

/-- The build can draw the pixels of a mode: any mode with `USE_DEBUG_SCREEN_16`, else RGBA8888. -/
def ScrBuild.Supports (build : ScrBuild) (mode : Int) : Prop :=
  build.useDebugScreen16 = true ∨ getValidMode mode = sceDisplayPixelRgba8888

/-- scr_putchar draws no pixel of a character: before the initialisation, and if the glyph is empty
and has no background.
-/
def Screen.DrawsNothing (s : Screen) (ch : Byte) : Prop :=
  s.gInit = false ∨ s.gScr.has flagScrUseBgcol = false ∧ ∀ row < 8, s.gScr.font.row ch row = 0

/-- The valid modes are the numbers 0 to 3. -/
theorem getValidMode_range (mode : Int) : 0 ≤ getValidMode mode ∧ getValidMode mode ≤ 3 := by
  simp only [getValidMode, sceDisplayPixelRgb565, sceDisplayPixelRgba5551, sceDisplayPixelRgba4444,
    sceDisplayPixelRgba8888]
  split_ifs <;> omega

/-- So the member of the struct holds the valid mode. -/
theorem validMode_toNat (mode : Int)
    : ((BitVec.ofInt 8 (getValidMode mode)).toNat : Int) = getValidMode mode := by
  obtain ⟨least, most⟩ := getValidMode_range mode
  rw [BitVec.toNat_ofInt]
  omega

/-- What is known of a screen whose mode was set. -/
theorem ModeStored.stored (stored : ModeStored build mode t)
    : t.gScr.vramOffset = 0 ∧ (t.gScr.vramMode.toNat : Int) = getValidMode mode := by
  cases stored with
  | setVramMode s offset => exact ⟨offset, validMode_toNat mode⟩
  | initex display s vramBase flags success =>
      rcases scrInitex_cases build display s vramBase mode flags with
        ⟨fails, result⟩ | ⟨_, result⟩
      · rw [result] at success
        simp only at success
        omega
      · rw [result]
        exact ⟨rfl, validMode_toNat mode⟩

/-- The pixels of the mode are as wide as they are drawn exactly if the build supports it. -/
theorem ModeStored.modeSize (stored : ModeStored build mode t)
    : (build.Supports mode ∧ t.gScr.modeSize = t.gScr.pixelSize build)
      ∨ (¬ build.Supports mode ∧ t.gScr.modeSize = 2 ∧ t.gScr.pixelSize build = 4) := by
  have same := stored.stored.2
  have wide : t.gScr.vramMode.toNat = sceDisplayPixelRgba8888
      ↔ getValidMode mode = sceDisplayPixelRgba8888 := by
    rw [← same]
    exact Int.natCast_inj.symm
  unfold DebugScr.modeSize DebugScr.pixelSize DebugScr.wide ScrBuild.Supports
  rw [← wide]
  by_cases narrow : build.useDebugScreen16 = true <;>
    by_cases full : t.gScr.vramMode.toNat = sceDisplayPixelRgba8888 <;> simp [narrow, full]

/-- With the offset 0 the pixels are cleared from the base on. -/
theorem clearOrigin_zero {scr : DebugScr} (offset : scr.vramOffset = 0)
    : scr.clearOrigin build = scr.vramBase := by
  rw [DebugScr.clearOrigin, offset]
  simp [element]

/-- The bytes that an overlay writes to a memory that counts as not written. -/
theorem written_paint (s : Screen) (origin : U32) (size : Nat) (overlay : Overlay 32) (a : U32)
    : (s.unmarked.vram.paint origin size overlay).written a = true
      ↔ (overlay ((a - origin).toNat / size)).isSome := by
  simp [ByteMemory.paint, Screen.unmarked]

/-- An overlay stays inside the frame buffer exactly if its last pixel does. -/
theorem withinFrame_paint (build : ScrBuild) (t : Screen) {s : Screen} {overlay : Overlay 32}
    (marks : ∀ i, (overlay i).isSome → i < vramPixels)
    (painted : s.vram = t.unmarked.vram.paint s.gScr.vramBase (s.gScr.pixelSize build) overlay)
    : s.WithinFrame
      ↔ ∀ i, (overlay i).isSome → s.gScr.pixelSize build * (i + 1) ≤ s.gScr.frameBytes := by
  have count : vramPixels = 139264 := rfl
  have positive : 0 < s.gScr.pixelSize build := by
    rcases pixelSize_cases build s.gScr with size | size <;> omega
  constructor
  · intro within i marked
    have inside := marks i marked
    have room := pixel_bound build s.gScr inside
    -- The last byte of the pixel.
    have last := within (element s.gScr.vramBase (s.gScr.pixelSize build) i
      + BitVec.ofNat 32 (s.gScr.pixelSize build - 1))
    have place : (element s.gScr.vramBase (s.gScr.pixelSize build) i
          + BitVec.ofNat 32 (s.gScr.pixelSize build - 1) - s.gScr.vramBase).toNat
        = s.gScr.pixelSize build * i + (s.gScr.pixelSize build - 1) := by
      rw [element_byte_sub, BitVec.toNat_ofNat, Nat.mod_eq_of_lt (by omega)]
    rw [painted, written_paint, place, Nat.mul_add_div positive, Nat.div_eq_of_lt (by omega)]
      at last
    have bound := last marked
    rw [Nat.mul_succ]
    omega
  · intro room a written
    rw [painted, written_paint] at written
    have bound := room _ written
    have parts := Nat.lt_mul_div_succ (a - s.gScr.vramBase).toNat positive
    omega

/-- clear_screen stays inside the frame buffer exactly if the build supports the mode. -/
theorem clearScreen_within (stored : ModeStored build mode t) (color : U32)
    : (clearScreen build t.unmarked color).WithinFrame ↔ build.Supports mode := by
  obtain ⟨vram, frame⟩ := clearScreen_frame build t.unmarked color
  have scr : (clearScreen build t.unmarked color).gScr = t.gScr := by
    rw [frame]
    rfl
  have painted := clearScreen_paint build t.unmarked color
  have origin : t.unmarked.gScr.clearOrigin build = t.gScr.vramBase :=
    clearOrigin_zero stored.stored.1
  have marks (i : Nat)
      : (cleared (t.unmarked.gScr.pixel build color) i).isSome ↔ i < vramPixels := by
    unfold cleared
    split_ifs with inside <;> simp [inside]
  have count : vramPixels = 139264 := rfl
  rw [origin] at painted
  rw [withinFrame_paint build t (fun i => (marks i).mp) (by rw [scr]; exact painted), scr,
    DebugScr.frameBytes]
  rcases stored.modeSize with ⟨supported, size⟩ | ⟨refused, two, four⟩
  · refine iff_of_true (fun i marked => ?_) supported
    rw [size]
    exact Nat.mul_le_mul_left _ ((marks i).mp marked)
  · refine iff_of_false (fun all => ?_) refused
    have last := all 139263 ((marks 139263).mpr (by omega))
    rw [two, four, count] at last
    omega

/-- A row that is not empty has a set bit. -/
theorem exists_bit
    : ∀ font : Byte, font ≠ 0 → ∃ column < 8, font &&& (128#8 >>> column) ≠ 0 := by
  decide

/-- A glyph with a background, or that is not empty, draws a pixel. -/
theorem exists_glyphPixel {scr : DebugScr} {ch : Byte}
    (drawn : ¬ (scr.has flagScrUseBgcol = false ∧ ∀ row < 8, scr.font.row ch row = 0))
    (fgcol bgcol : U32)
    : ∃ row < 8, ∃ column < 8, (scr.glyphPixel fgcol bgcol ch row column).isSome := by
  unfold DebugScr.glyphPixel
  by_cases background : scr.has flagScrUseBgcol = true
  · refine ⟨0, by omega, 0, by omega, ?_⟩
    rw [if_pos background]
    split <;> rfl
  · have some : ∃ row < 8, scr.font.row ch row ≠ 0 := by
      by_contra none
      refine drawn ⟨Bool.eq_false_iff.mpr background, fun row inside => ?_⟩
      by_contra bits
      exact none ⟨row, inside, bits⟩
    obtain ⟨row, inside, bits⟩ := some
    obtain ⟨column, within, bit⟩ := exists_bit _ bits
    exact ⟨row, inside, column, within, by rw [if_pos bit]; rfl⟩

/-- An empty glyph without a background draws none. -/
theorem glyph_none (scr : DebugScr) {ch : Byte}
    (empty : scr.has flagScrUseBgcol = false ∧ ∀ row < 8, scr.font.row ch row = 0)
    (fgcol bgcol : U32) (x y i : Nat)
    : scr.glyph fgcol bgcol ch x y i = none := by
  unfold DebugScr.glyph DebugScr.glyphPixel
  split_ifs with inside bit background
  · rw [empty.2 _ (by omega)] at bit
    simp at bit
  · exact absurd background (by simp [empty.1])
  · rfl
  · rfl

/-- A glyph marks pixels in the eight rows of its cell only. -/
theorem glyph_rows {scr : DebugScr} {fgcol bgcol : U32} {ch : Byte} {x y i : Nat}
    (marked : (scr.glyph fgcol bgcol ch x y i).isSome)
    : y ≤ i / vramWidth ∧ i / vramWidth < y + 8 := by
  unfold DebugScr.glyph at marked
  split_ifs at marked with inside
  · exact ⟨inside.1, inside.2.1⟩
  · simp at marked

/-- A pixel of the glyph is a pixel of the cell. -/
theorem glyph_at {scr : DebugScr} {x y row column : Nat} (width : x + 8 ≤ vramWidth)
    (inside : row < 8) (within : column < 8) (fgcol bgcol : U32) (ch : Byte)
    : scr.glyph fgcol bgcol ch x y (vramWidth * (y + row) + (x + column))
      = scr.glyphPixel fgcol bgcol ch row column := by
  have rows : (vramWidth * (y + row) + (x + column)) / vramWidth = y + row := by
    simp only [vramWidth] at *
    omega
  have columns : (vramWidth * (y + row) + (x + column)) % vramWidth = x + column := by
    simp only [vramWidth] at *
    omega
  rw [DebugScr.glyph, rows, columns, if_pos (by omega), Nat.add_sub_cancel_left,
    Nat.add_sub_cancel_left]

/-- scr_putchar stays inside the frame buffer exactly if the build supports the mode, if the cell is
in one of the first 17 lines, or if no pixel is drawn.
-/
theorem scrPutchar_within (stored : ModeStored build mode t) {cx cy : Nat} (column : cx < mx)
    (line : cy < my) (fgcol : U32) (ch : Byte)
    : (scrPutchar build t.unmarked (7 * cx : Nat) (8 * cy : Nat) fgcol ch).WithinFrame
      ↔ build.Supports mode ∨ cy < 17 ∨ t.DrawsNothing ch := by
  have count : vramPixels = 139264 := rfl
  have lines : my = 34 := rfl
  have columns : mx = 68 := rfl
  have scr : (scrPutchar build t.unmarked (7 * cx : Nat) (8 * cy : Nat) fgcol ch).gScr = t.gScr :=
    (scrPutchar_frame build t.unmarked (7 * cx : Nat) (8 * cy : Nat) fgcol ch).1
  by_cases started : t.gInit = true
  · have painted := scrPutchar_paint build (s := t.unmarked) started column
      (show cy < 2 ^ 16 by omega) fgcol ch
    have origin : t.unmarked.gScr.drawOrigin build = t.gScr.vramBase :=
      drawOrigin_zero stored.stored.1
    rw [origin] at painted
    rw [withinFrame_paint build t ?marks (by rw [scr]; exact painted), scr,
      DebugScr.frameBytes]
    case marks =>
      intro i marked
      have rows := glyph_rows marked
      simp only [vramWidth] at rows
      omega
    rcases stored.modeSize with ⟨supported, size⟩ | ⟨refused, two, four⟩
    · refine iff_of_true (fun i marked => ?_) (Or.inl supported)
      have rows := glyph_rows marked
      simp only [vramWidth] at rows
      rw [size]
      exact Nat.mul_le_mul_left _ (by omega)
    · rw [two, four, or_iff_right refused]
      constructor
      · intro all
        by_contra other
        push Not at other
        obtain ⟨low, draws⟩ := other
        have drawn := fun empty => draws (Or.inr empty)
        obtain ⟨row, inside, column', within, marked⟩ := exists_glyphPixel drawn
          (t.gScr.pixel build fgcol) (t.gScr.pixel build t.gScr.bgcol)
        have width : 7 * cx + 8 ≤ vramWidth := by
          simp only [vramWidth]
          omega
        rw [← glyph_at (y := 8 * cy) width inside within] at marked
        have last := all _ marked
        simp only [vramWidth] at last
        omega
      · rintro (high | nothing) i marked
        · have rows := glyph_rows marked
          simp only [vramWidth] at rows
          omega
        · rcases nothing with unstarted | empty
          · simp [started] at unstarted
          · rw [glyph_none t.unmarked.gScr empty] at marked
            contradiction
  · have unstarted : t.gInit = false := Bool.eq_false_iff.mpr started
    have idle : t.unmarked.gInit = false := unstarted
    refine iff_of_true (fun a written => ?_) (Or.inr (Or.inr (Or.inl unstarted)))
    rw [scrPutchar_eq, drawcharWith, if_pos idle] at written
    simp [Screen.unmarked] at written

/-- The bytes that clear_screen and scr_putchar write belong to the frame buffer of the stored mode
exactly if the build supports the mode. In a mode that it does not support clear_screen always
leaves the frame buffer, and scr_putchar whenever it draws below the first 17 lines.
-/
theorem stores_fit (stored : ModeStored build mode t)
    : (StoresFit build t ↔ build.Supports mode)
      ∧ (∀ color, (clearScreen build t.unmarked color).WithinFrame ↔ build.Supports mode)
      ∧ ∀ cx < mx, ∀ cy < my, ∀ fgcol ch,
          (scrPutchar build t.unmarked (7 * cx : Nat) (8 * cy : Nat) fgcol ch).WithinFrame
            ↔ build.Supports mode ∨ cy < 17 ∨ t.DrawsNothing ch := by
  refine ⟨⟨fun fits => ?_, fun supported => ⟨?_, ?_⟩⟩, clearScreen_within stored, ?_⟩
  · exact (clearScreen_within stored 0).mp (fits.clearScreen 0)
  · exact fun color => (clearScreen_within stored color).mpr supported
  · intro cx column cy line fgcol ch
    exact (scrPutchar_within stored column line fgcol ch).mpr (Or.inl supported)
  · exact fun cx column cy line fgcol ch => scrPutchar_within stored column line fgcol ch

/-- Witness: the mode RGBA4444 in a build with `USE_DEBUG_SCREEN_16`. -/
theorem stores_fit_4444
    : StoresFit ⟨true, 512⟩ (scrSetVramMode (.boot ⟨fun _ => 0, fun _ => false⟩) 2).1 :=
  (stores_fit (.setVramMode (.boot ⟨fun _ => 0, fun _ => false⟩) rfl)).1.mpr (Or.inl rfl)

/-- Counterexample: the mode RGB565 in a build without it; clear_screen fills twice the buffer. -/
theorem not_stores_fit
    : ¬ ∀ (build : ScrBuild) (mode : Int) (t : Screen), ModeStored build mode t →
        StoresFit build t := by
  intro always
  have stored : ModeStored ⟨false, 512⟩ 0
      (scrSetVramMode (.boot ⟨fun _ => 0, fun _ => false⟩) 0).1 := .setVramMode _ rfl
  have supported := (clearScreen_within stored 0).mp ((always _ _ _ stored).clearScreen 0)
  rcases supported with narrow | full
  · contradiction
  · exact absurd full (by decide)

end LibKprintf
