import LibKprintf.Screen.Clear

/-! Whether scr_clear erases what was drawn. It fills the frame buffer from the clearing origin on,
and the characters are where the drawing origin puts them.
-/

namespace LibKprintf

open Foundation

/-- A character that scr_putchar draws at a cell. -/
structure CellChar where
  cx : Nat
  cy : Nat
  fgcol : U32
  ch : Byte

/-- scr_putchar is called for one character after the other. -/
def putAll (build : ScrBuild) (s : Screen) (chars : List CellChar) : Screen :=
  chars.foldl (fun s c => scrPutchar build s (7 * c.cx : Nat) (8 * c.cy : Nat) c.fgcol c.ch) s

/-- A character touches pixel `i`, counted from where it is drawn. -/
def CellChar.Touches (scr : DebugScr) (c : CellChar) (i : Nat) : Prop :=
  (scr.glyph c.fgcol scr.bgcol c.ch (7 * c.cx) (8 * c.cy) i).isSome

/-- After every sequence of characters at cells, and scr_clear, the pixels that the characters
touched have the background colour.
-/
def ErasesAll (build : ScrBuild) (s : Screen) : Prop :=
  ∀ chars : List CellChar, (∀ c ∈ chars, c.cx < mx ∧ c.cy < my) →
    ∀ c ∈ chars, ∀ i, c.Touches s.gScr i →
      (scrClear build (putAll build s chars)).vram.Holds (s.gScr.drawOrigin build) 4 i s.gScr.bgcol

/-- Drawing changes the pixels only. -/
theorem putAll_frame (build : ScrBuild) (s : Screen) (chars : List CellChar)
    : (putAll build s chars).gScr = s.gScr ∧ (putAll build s chars).gInit = s.gInit := by
  refine List.foldlRecOn (motive := fun t : Screen => t.gScr = s.gScr ∧ t.gInit = s.gInit)
    chars _ ⟨rfl, rfl⟩ fun t ⟨scr, init⟩ c _ => ?_
  obtain ⟨scr', init', _⟩ :=
    scrPutchar_frame build t (7 * c.cx : Nat) (8 * c.cy : Nat) c.fgcol c.ch
  exact ⟨scr'.trans scr, init'.trans init⟩

/-- After the loop over the lines scr_clear fills the frame buffer, as clear_screen sees it. -/
theorem scrClear_paint (build : ScrBuild) {s : Screen} (init : s.gInit = true)
    : (scrClear build s).vram
      = (clearLines build s).vram.paint (s.gScr.clearOrigin build) (s.gScr.pixelSize build)
          (cleared (s.gScr.pixel build s.gScr.bgcol)) := by
  have scr := (clearLines_frame build s).1
  have home : (scrSetxy (clearLines build s) 0 0).gScr = { s.gScr with x := 0, y := 0 }
      ∧ (scrSetxy (clearLines build s) 0 0).vram = (clearLines build s).vram := by
    rw [← scr]
    exact ⟨rfl, rfl⟩
  rw [scrClear, if_neg (by simp [init])]
  simp only
  rw [clearScreen_paint, home.1, home.2]
  rfl

/-- A character touches only pixels of the eight rows and columns from its cell on. -/
theorem CellChar.Touches.within {scr : DebugScr} {c : CellChar} {i : Nat}
    (touches : c.Touches scr i)
    : i / vramWidth < 8 * c.cy + 8 ∧ i % vramWidth < 7 * c.cx + 8 := by
  by_contra outside
  have silent : scr.glyph c.fgcol scr.bgcol c.ch (7 * c.cx) (8 * c.cy) i = none := by
    unfold DebugScr.glyph
    exact if_neg (by omega)
  rw [CellChar.Touches, silent] at touches
  contradiction

/-- A cell's pixels are pixels of the frame buffer. -/
theorem CellChar.Touches.inside {scr : DebugScr} {c : CellChar} {i : Nat} (line : c.cy < my)
    (touches : c.Touches scr i)
    : i < vramPixels :=
  inside_line line touches.within.1

/-- They are in the columns that the characters of a line cover. -/
theorem CellChar.Touches.column {scr : DebugScr} {c : CellChar} {i : Nat} (column : c.cx < mx)
    (touches : c.Touches scr i)
    : i % vramWidth < 477 := by
  simp only [mx, scrWidth, fontcharWidthPx] at column
  have last := touches.within.2
  omega

/-- A non-negative multiple of four, and what is left of it after the shift. -/
theorem offset_quarter {offset : BitVec 32} (nonneg : 0 ≤ offset.toInt)
    (aligned : 4 ∣ offset.toInt)
    : ∃ q < 2 ^ 29, offset = BitVec.ofNat 32 (4 * q)
        ∧ offset.sshiftRight 2 = BitVec.ofNat 32 q := by
  have positive : offset.msb = false := by
    rw [BitVec.msb_eq_false_iff_two_mul_lt]
    rw [BitVec.toInt_eq_toNat_cond] at nonneg
    split at nonneg <;> omega
  have value : offset.toInt = offset.toNat := BitVec.toInt_eq_toNat_of_msb positive
  have small : 2 * offset.toNat < 2 ^ 32 := BitVec.msb_eq_false_iff_two_mul_lt.mp positive
  refine ⟨offset.toNat / 4, by omega, ?_, ?_⟩
  · apply BitVec.eq_of_toNat_eq
    rw [BitVec.toNat_ofNat]
    omega
  · rw [BitVec.sshiftRight_eq_of_msb_false positive]
    apply BitVec.eq_of_toNat_eq
    rw [BitVec.toNat_ushiftRight, BitVec.toNat_ofNat, Nat.shiftRight_eq_div_pow]
    omega

/-- A screen in 32-bit mode whose offset is `q` pixels. -/
structure DebugScr.OffsetBy (build : ScrBuild) (scr : DebugScr) (q : Nat) : Prop where
  wide : scr.wide build
  small : q < 2 ^ 29
  offset : scr.vramOffset = BitVec.ofNat 32 (4 * q)
  quarter : scr.vramOffset.sshiftRight 2 = BitVec.ofNat 32 q

/-- The clearing origin is the base plus the offset, the drawing origin the base plus a quarter of
the offset.
-/
theorem DebugScr.OffsetBy.origins {build : ScrBuild} {scr : DebugScr} {q : Nat}
    (offsetBy : scr.OffsetBy build q)
    : scr.clearOrigin build = scr.vramBase + scr.vramOffset
      ∧ scr.drawOrigin build = scr.vramBase + BitVec.ofNat 32 q := by
  obtain ⟨wide, small, offset, quarter⟩ := offsetBy
  have shift : scr.pixelShift build = 2 := if_pos wide
  have value : (BitVec.ofNat 32 q).toInt = (q : Int) := by
    rw [BitVec.toInt_eq_toNat_of_msb, BitVec.toNat_ofNat]
    · omega
    · rw [BitVec.msb_eq_false_iff_two_mul_lt, BitVec.toNat_ofNat]
      omega
  rw [DebugScr.clearOrigin, DebugScr.drawOrigin, shift, pixelSize_wide wide, quarter, value,
    element_natCast, offset]
  exact ⟨rfl, rfl⟩

/-- How far a drawn byte is from where the fill begins. -/
theorem drawn_sub_cleared (base : U32) {q i k : Nat} (small : q < 2 ^ 29) (inside : i < vramPixels)
    (within : k < 4)
    : (element (base + BitVec.ofNat 32 q) 4 i + BitVec.ofNat 32 k
        - (base + BitVec.ofNat 32 (4 * q))).toNat
      = if 3 * q ≤ 4 * i + k then 4 * i + k - 3 * q else 2 ^ 32 + (4 * i + k) - 3 * q := by
  have count : vramPixels = 139264 := rfl
  rw [element_natCast, BitVec.add_assoc, BitVec.add_assoc, ← BitVec.ofNat_add, ← BitVec.ofNat_add,
    add_sub_add_left_eq_sub, BitVec.toNat_sub, BitVec.toNat_ofNat, BitVec.toNat_ofNat,
    Nat.mod_eq_of_lt (show 4 * q < 2 ^ 32 by omega),
    Nat.mod_eq_of_lt (show q + (4 * i + k) < 2 ^ 32 by omega)]
  split_ifs with reached <;> omega

/-- A byte of a pixel after scr_clear, counted where characters are drawn: the fill sets it if it
reaches that far back, else it is as the loop over the lines has left it.
-/
theorem scrClear_byte {build : ScrBuild} {s : Screen} {q i k : Nat} (init : s.gInit = true)
    (offsetBy : s.gScr.OffsetBy build q) (inside : i < vramPixels) (within : k < 4)
    : (scrClear build s).vram.byte (element (s.gScr.drawOrigin build) 4 i + BitVec.ofNat 32 k)
      = if 3 * q ≤ 4 * i + k then
          byteOf s.gScr.bgcol ((k + q) % 4)
        else
          (clearLines build s).vram.byte
            (element (s.gScr.drawOrigin build) 4 i + BitVec.ofNat 32 k) := by
  have count : vramPixels = 139264 := rfl
  obtain ⟨clears, draws⟩ := offsetBy.origins
  obtain ⟨wide, small, offset, _⟩ := offsetBy
  rw [scrClear_paint build init, pixelSize_wide wide, pixel_wide wide, clears, draws, offset]
  simp only [ByteMemory.paint, drawn_sub_cleared s.gScr.vramBase small inside within, cleared]
  by_cases reached : 3 * q ≤ 4 * i + k
  · have place : (4 * i + k - 3 * q) % 4 = (k + q) % 4 := by omega
    rw [if_pos reached, if_pos reached, if_pos (by omega), place]
  · rw [if_neg reached, if_neg reached, if_neg (by omega)]

/-- For which screens with another offset than 0 everything is erased nevertheless: the first text
line is the line of the cursor and is cleared for itself, the fill begins in it, and the bytes of
the background colour are the same when they are rotated by as much as the two origins differ.
-/
structure DebugScr.Overlaps (scr : DebugScr) : Prop where
  background : scr.has flagScrUseBgcol = true
  clears : scr.has flagScrUseClearline = true
  line : scr.y = 0
  near : scr.vramOffset.toNat ≤ 21844
  rotated : ∀ k < 4, byteOf scr.bgcol ((k + scr.vramOffset.toNat / 4) % 4) = byteOf scr.bgcol k

/-- The row and the column of the first pixel of a cell. -/
theorem first_pixel {column : Nat} (line : Nat) (inRow : column < mx)
    : (vramWidth * (8 * line) + 7 * column) / vramWidth = 8 * line
      ∧ (vramWidth * (8 * line) + 7 * column) % vramWidth = 7 * column := by
  have width : 7 * column < vramWidth := by
    simp only [mx, scrWidth, fontcharWidthPx] at inRow
    simp only [vramWidth]
    omega
  rw [Nat.mul_add_div (by decide), Nat.div_eq_of_lt width, Nat.mul_add_mod, Nat.mod_eq_of_lt width]
  exact ⟨Nat.add_zero _, rfl⟩

/-- A solid block in a cell gives the first pixel of the cell its colour. -/
theorem block_touches {scr : DebugScr} (font : scr.font = gMsx) {column : Nat} (line : Nat)
    (fgcol : U32) (inRow : column < mx)
    : (⟨column, line, fgcol, 219⟩ : CellChar).Touches scr (vramWidth * (8 * line) + 7 * column)
      ∧ scr.glyph fgcol scr.bgcol 219 (7 * column) (8 * line)
          (vramWidth * (8 * line) + 7 * column) = some fgcol := by
  have drawn : scr.glyph fgcol scr.bgcol 219 (7 * column) (8 * line)
      (vramWidth * (8 * line) + 7 * column) = some fgcol := by
    have row : scr.font.row 219 0 = 0xff := by rw [font]; exact gMsx_block 0 (by decide)
    obtain ⟨first, rest⟩ := first_pixel line inRow
    rw [DebugScr.glyph, first, rest, if_pos (by omega), Nat.sub_self, Nat.sub_self,
      DebugScr.glyphPixel, row, if_pos (by decide)]
  refine ⟨?_, drawn⟩
  rw [CellChar.Touches, drawn]
  rfl

/-- A colour and its complement differ in every byte. -/
theorem byteOf_not (color : U32) : byteOf (~~~color) 0 ≠ byteOf color 0 := by
  intro same
  have bit := congrArg (fun b : Byte => b.getLsbD 0) same
  simp [byteOf] at bit

section Erase

variable {build : ScrBuild} {s : Screen} {q : Nat}

/-- The first pixel of a block of another colour is not erased if the fill begins behind it and its
line is not the one that is cleared for itself.
-/
theorem block_left (init : s.gInit = true) (font : s.gScr.font = gMsx)
    (offsetBy : s.gScr.OffsetBy build q) {column line : Nat} (fgcol : U32)
    (apart : byteOf fgcol 0 ≠ byteOf s.gScr.bgcol 0) (inRow : column < mx) (inGrid : line < my)
    (far : 4 * (vramWidth * (8 * line) + 7 * column) < 3 * q)
    (other
      : s.gScr.has flagScrUseBgcol = true → s.gScr.has flagScrUseClearline = true →
          s.gScr.y.toNat ≠ line)
    : ¬ (scrClear build (putAll build s [⟨column, line, fgcol, 219⟩])).vram.Holds
        (s.gScr.drawOrigin build) 4 (vramWidth * (8 * line) + 7 * column) s.gScr.bgcol := by
  intro erased
  let block : CellChar := ⟨column, line, fgcol, 219⟩
  let first : Nat := vramWidth * (8 * line) + 7 * column
  have black := erased 0 (by decide)
  change (scrClear build (putAll build s [block])).vram.byte
    (element (s.gScr.drawOrigin build) 4 first + BitVec.ofNat 32 0) = _ at black
  obtain ⟨touches, drawn⟩ := block_touches font line fgcol inRow
  have inside : first < vramPixels := touches.inside inGrid
  obtain ⟨scr, started⟩ := putAll_frame build s [block]
  have painted := scrPutchar_paint build init inRow
    (show line < 2 ^ 16 by simp only [my, scrHeight, fontcharHeightPx] at inGrid; omega)
    fgcol 219
  change (putAll build s [block]).vram = _ at painted
  generalize putAll build s [block] = t at scr started painted black
  have wide := offsetBy.wide
  have size := pixelSize_wide wide
  have bound : 4 * first + 4 ≤ 2 ^ 32 := by
    have room := pixel_bound build s.gScr inside
    rwa [size] at room
  have shown : t.vram.byte (element (s.gScr.drawOrigin build) 4 first + BitVec.ofNat 32 0)
      = byteOf fgcol 0 := by
    rw [painted, size, ByteMemory.byte_paint bound (by decide)]
    simp only [pixel_wide wide, first, drawn]
  have kept : (clearLines build t).vram.byte
        (element (s.gScr.drawOrigin build) 4 first + BitVec.ofNat 32 0)
      = t.vram.byte (element (s.gScr.drawOrigin build) 4 first + BitVec.ofNat 32 0) := by
    by_cases background : s.gScr.has flagScrUseBgcol = true
    · by_cases clears : s.gScr.has flagScrUseClearline = true
      · have elsewhere := other background clears
        rw [clearLines_paint (started.trans init) (by rw [scr, background]) (by rw [scr, clears]),
          scr, size, ByteMemory.byte_paint bound (by decide)]
        have row : first / vramWidth = 8 * line := (first_pixel line inRow).1
        rw [blankLine, if_neg (by omega)]
      · rw [clearLines_idle (Or.inr (by rw [scr]; simpa using clears))]
    · rw [clearLines_idle (Or.inl (by rw [scr]; simpa using background))]
  rw [← scr] at offsetBy
  have left := scrClear_byte (started.trans init) offsetBy inside (show 0 < 4 by decide)
  rw [scr, if_neg (by omega), kept, shown] at left
  exact apart (left.symm.trans black)

/-- So not everything is erased. -/
theorem block_stays (init : s.gInit = true) (font : s.gScr.font = gMsx)
    (offsetBy : s.gScr.OffsetBy build q) (line : Nat) (inGrid : line < my)
    (far : 4 * (vramWidth * (8 * line)) < 3 * q)
    (other
      : s.gScr.has flagScrUseBgcol = true → s.gScr.has flagScrUseClearline = true →
          s.gScr.y.toNat ≠ line)
    : ¬ ErasesAll build s := by
  intro always
  have first : 0 < mx := by decide
  refine block_left init font offsetBy _ (byteOf_not s.gScr.bgcol) first inGrid far other ?_
  exact always [⟨0, line, ~~~s.gScr.bgcol, 219⟩]
    (List.forall_mem_singleton.mpr ⟨first, inGrid⟩) _ List.mem_cons_self _
    (block_touches font line (~~~s.gScr.bgcol) first).1

/-- scr_clear erases everything exactly for the offset 0, and where the two origins are so near that
it does not matter.
-/
theorem erasesAll_iff (init : s.gInit = true) (font : s.gScr.font = gMsx)
    (offsetBy : s.gScr.OffsetBy build q)
    : ErasesAll build s ↔ q = 0 ∨ s.gScr.Overlaps := by
  have value : s.gScr.vramOffset.toNat = 4 * q := by
    have small := offsetBy.small
    rw [offsetBy.offset, BitVec.toNat_ofNat]
    omega
  have quotient : s.gScr.vramOffset.toNat / 4 = q := by omega
  constructor
  · intro always
    refine or_iff_not_imp_left.mpr fun other => ?_
    have cursor : s.gScr.has flagScrUseBgcol = true ∧ s.gScr.has flagScrUseClearline = true
        ∧ s.gScr.y.toNat = 0 := by
      by_contra apart
      refine block_stays init font offsetBy 0 (by decide)
        (by simp only [vramWidth]; omega) (fun background clears here => ?_) always
      exact apart ⟨background, clears, here⟩
    obtain ⟨background, clears, here⟩ := cursor
    have near : q ≤ 5461 := by
      by_contra far
      exact block_stays init font offsetBy 1 (by decide)
        (by simp only [vramWidth]; omega) (fun _ _ => by omega) always
    refine ⟨background, clears, BitVec.eq_of_toNat_eq here, by omega, fun k within => ?_⟩
    obtain ⟨touches, _⟩ := block_touches font 1 (~~~s.gScr.bgcol) (show 0 < mx by decide)
    let block : CellChar := ⟨0, 1, ~~~s.gScr.bgcol, 219⟩
    have black := always [block]
      (List.forall_mem_singleton.mpr ⟨show 0 < mx by decide, show 1 < my by decide⟩)
      block List.mem_cons_self _ touches k within
    obtain ⟨scr, started⟩ := putAll_frame build s [block]
    rw [← scr] at offsetBy
    have filled := scrClear_byte (started.trans init) offsetBy
      (touches.inside (show 1 < my by decide)) within
    rw [scr, if_pos (by simp only [vramWidth]; omega)] at filled
    rw [quotient, ← filled, black]
  · intro condition chars onGrid c member i touches k within
    have inside := touches.inside (onGrid c member).2
    have column := touches.column (onGrid c member).1
    obtain ⟨scr, started⟩ := putAll_frame build s chars
    generalize putAll build s chars = t at scr started
    have left := scrClear_byte (s := t) (started.trans init) (by rwa [scr]) inside within
    rw [scr] at left
    rw [left]
    rcases condition with rfl | overlaps
    · rw [if_pos (by omega), Nat.add_zero, Nat.mod_eq_of_lt within]
    · have rotated := overlaps.rotated k within
      rw [quotient] at rotated
      split_ifs with reached
      · exact rotated
      · have near := overlaps.near
        have room := pixel_bound build s.gScr inside
        have wide := offsetBy.wide
        rw [pixelSize_wide wide] at room
        rw [clearLines_paint (started.trans init) (by rw [scr]; exact overlaps.background)
          (by rw [scr]; exact overlaps.clears), scr, pixelSize_wide wide, pixel_wide wide,
          ByteMemory.byte_paint room within, blankLine, overlaps.line,
          if_pos ⟨by simp, by simp only [vramWidth]; simp; omega, column⟩]

/-- The address from which pixels are cleared, and the one from which they are drawn. -/
theorem DebugScr.OffsetBy.origin_eq_iff (offsetBy : s.gScr.OffsetBy build q)
    : s.gScr.drawOrigin build = s.gScr.clearOrigin build ↔ q = 0 := by
  obtain ⟨clears, draws⟩ := offsetBy.origins
  have small := offsetBy.small
  have quotient : BitVec.ofNat 32 q = BitVec.ofNat 32 (4 * q) ↔ q = 0 := by
    rw [← BitVec.toNat_inj, BitVec.toNat_ofNat, BitVec.toNat_ofNat,
      Nat.mod_eq_of_lt (show q < 2 ^ 32 by omega), Nat.mod_eq_of_lt (show 4 * q < 2 ^ 32 by omega)]
    omega
  rw [clears, draws, offsetBy.offset, add_right_inj, quotient]

end Erase

/-- In 32-bit mode, and with the only font there is, scr_clear erases whatever has been drawn at
cells exactly if the offset is 0 or so small that the overlap of the two areas hides the difference.
Pixel `512 * row + col` is cleared at the base plus the offset plus four times its number, and it is
drawn there exactly for the offset 0.
-/
theorem clear_erases (build : ScrBuild) {s : Screen} (base : U32) {offset : BitVec 32}
    (init : s.gInit = true) (wide : s.gScr.wide build) (font : s.gScr.font = gMsx)
    (nonneg : 0 ≤ offset.toInt) (aligned : 4 ∣ offset.toInt)
    : let t := (scrSetVramOffset (scrSetVramBase s base).1 offset).1
      (ErasesAll build t ↔ offset = 0 ∨ t.gScr.Overlaps)
        ∧ ∀ col row : Nat,
            element (t.gScr.clearOrigin build) 4 (vramWidth * row + col)
                = base + offset + BitVec.ofNat 32 (4 * (vramWidth * row + col))
              ∧ (element (t.gScr.drawOrigin build) 4 (vramWidth * row + col)
                    = element (t.gScr.clearOrigin build) 4 (vramWidth * row + col)
                  ↔ offset = 0) := by
  obtain ⟨q, small, value, quarter⟩ := offset_quarter nonneg aligned
  have zero : q = 0 ↔ offset = 0 := by
    rw [value, ← BitVec.toNat_inj, BitVec.toNat_ofNat,
      Nat.mod_eq_of_lt (show 4 * q < 2 ^ 32 by omega), show (0 : U32).toNat = 0 from rfl]
    omega
  intro t
  have offsetBy : t.gScr.OffsetBy build q := ⟨wide, small, value, quarter⟩
  constructor
  · rw [← zero]
    exact erasesAll_iff (s := t) init font offsetBy
  intro col row
  have clears : t.gScr.clearOrigin build = base + offset := offsetBy.origins.1
  constructor
  · rw [clears]
    exact element_natCast _ _ (vramWidth * row + col)
  · rw [element, element, add_left_inj, ← zero]
    exact offsetBy.origin_eq_iff

/-- Witness: with the offset 0 everything is erased. -/
theorem clear_erases_zero
    : ErasesAll ⟨false, 512⟩ (scrSetVramOffset (scrSetVramBase zeros 0x04000000).1 0).1 :=
  (clear_erases ⟨false, 512⟩ (s := zeros) 0x04000000 rfl (Or.inl rfl) rfl (by decide)
    (by decide)).1.mpr (Or.inl rfl)

/-- Counterexample: with the offset 65536, a cursor in the first text line and a background of
0x01010101, a block that scr_putchar draws in the second line keeps its colour.
-/
theorem not_clear_erases
    : let s := (scrSetVramOffset (scrSetVramBase zeros 0x04000000).1 65536).1
      let first := vramWidth * (8 * 1) + 7 * 1
      (s.gInit = true ∧ s.gScr.wide ⟨false, 512⟩ ∧ s.gScr.y = 0 ∧ s.gScr.bgcol = 0x01010101)
        ∧ (⟨1, 1, 0xFEFEFEFE, 219⟩ : CellChar).Touches s.gScr first
        ∧ ¬ (scrClear ⟨false, 512⟩ (scrPutchar ⟨false, 512⟩ s 7 8 0xFEFEFEFE 219)).vram.Holds
            (s.gScr.drawOrigin ⟨false, 512⟩) 4 first s.gScr.bgcol
        ∧ ¬ ErasesAll ⟨false, 512⟩ s := by
  intro s first
  have offsetBy : s.gScr.OffsetBy ⟨false, 512⟩ 16384 := ⟨Or.inl rfl, by decide, rfl, by decide⟩
  have inRow : 1 < mx := by decide
  have inGrid : 1 < my := by decide
  have touches : (⟨1, 1, 0xFEFEFEFE, 219⟩ : CellChar).Touches s.gScr first :=
    (block_touches rfl 1 0xFEFEFEFE inRow).1
  have alone : putAll ⟨false, 512⟩ s [⟨1, 1, 0xFEFEFEFE, 219⟩]
      = scrPutchar ⟨false, 512⟩ s 7 8 0xFEFEFEFE 219 := rfl
  have left := block_left (s := s) rfl rfl offsetBy 0xFEFEFEFE (by decide) inRow inGrid
    (by decide) fun _ _ => by decide
  refine ⟨⟨rfl, Or.inl rfl, rfl, rfl⟩, touches, by rwa [alone] at left, fun always => left ?_⟩
  exact always [⟨1, 1, 0xFEFEFEFE, 219⟩] (List.forall_mem_singleton.mpr ⟨inRow, inGrid⟩) _
    List.mem_cons_self first touches

end LibKprintf
