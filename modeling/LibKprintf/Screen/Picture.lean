import LibKprintf.Model.Screen

/-! What clearing and drawing come to: an overlay on the pixels of the frame buffer. Pixel
`512 * row + column` of both is counted from an origin, and the two origins are different.
-/

namespace LibKprintf

open Foundation

/-- The pixels are drawn with four bytes each, else with two. -/
def DebugScr.wide (build : ScrBuild) (scr : DebugScr) : Prop :=
  build.useDebugScreen16 = false ∨ scr.vramMode.toNat = sceDisplayPixelRgba8888

instance (build : ScrBuild) (scr : DebugScr) : Decidable (scr.wide build) :=
  inferInstanceAs (Decidable (_ ∨ _))

/-- The size of a pixel in bytes. -/
def DebugScr.pixelSize (build : ScrBuild) (scr : DebugScr) : Nat := if scr.wide build then 4 else 2

/-- By how many bits the offset is shifted. -/
def DebugScr.pixelShift (build : ScrBuild) (scr : DebugScr) : Nat := if scr.wide build then 2 else 1

/-- A colour as it is stored. -/
def DebugScr.pixel (build : ScrBuild) (scr : DebugScr) (color : U32) : U32 :=
  if scr.wide build then color else (convert16 scr.vramMode color).setWidth 32

/-- The address from which clear_screen counts the pixels. -/
def DebugScr.clearOrigin (build : ScrBuild) (scr : DebugScr) : U32 :=
  element scr.vramBase (scr.pixelSize build)
    (scr.vramOffset.sshiftRight (scr.pixelShift build)).toInt

/-- The address from which scr_putchar counts the pixels. -/
def DebugScr.drawOrigin (build : ScrBuild) (scr : DebugScr) : U32 :=
  scr.vramBase + scr.vramOffset.sshiftRight (scr.pixelShift build)

/-- The pixel in a row and a column of a glyph: the two colours, or nothing. -/
def DebugScr.glyphPixel (scr : DebugScr) (fgcol bgcol : U32) (ch : Byte) (row column : Nat)
    : Option U32 :=
  if scr.font.row ch row &&& (128#8 >>> column) ≠ 0 then
    some fgcol
  else if scr.has flagScrUseBgcol then
    some bgcol
  else
    none

/-- The overlay of a character whose upper left corner is at a pixel. -/
def DebugScr.glyph (scr : DebugScr) (fgcol bgcol : U32) (ch : Byte) (x y : Nat) : Overlay 32 :=
  fun i =>
    if y ≤ i / vramWidth ∧ i / vramWidth < y + 8 ∧ x ≤ i % vramWidth ∧ i % vramWidth < x + 8 then
      scr.glyphPixel fgcol bgcol ch (i / vramWidth - y) (i % vramWidth - x)
    else
      none

/-- The overlay of a cleared frame buffer. -/
def cleared (color : U32) : Overlay 32 :=
  fun i => if i < vramPixels then some color else none

/-- clear_screen fills the pixels of its build and mode. -/
theorem clearScreen_eq (build : ScrBuild) (s : Screen) (color : U32)
    : clearScreen build s color
      = clearScreenWith (s.gScr.pixelShift build) (s.gScr.pixelSize build) s
          (s.gScr.pixel build color) := by
  unfold clearScreen DebugScr.pixelShift DebugScr.pixelSize DebugScr.pixel DebugScr.wide
  by_cases narrow : build.useDebugScreen16 = true
  · by_cases mode : s.gScr.vramMode.toNat = sceDisplayPixelRgba8888
    · simp [narrow, mode, clearScreen32]
    · simp [narrow, mode, clearScreen16]
  · simp [narrow, clearScreen32]

/-- scr_putchar draws with the pixels of its build and mode. -/
theorem scrPutchar_eq (build : ScrBuild) (s : Screen) (x y : Int) (fgcol : U32) (ch : Byte)
    : scrPutchar build s x y fgcol ch
      = drawcharWith (s.gScr.pixelShift build) (s.gScr.pixelSize build) s x y
          (s.gScr.pixel build fgcol) (s.gScr.pixel build s.gScr.bgcol) ch := by
  unfold scrPutchar DebugScr.pixelShift DebugScr.pixelSize DebugScr.pixel DebugScr.wide
  by_cases narrow : build.useDebugScreen16 = true
  · by_cases mode : s.gScr.vramMode.toNat = sceDisplayPixelRgba8888
    · simp [narrow, mode, drawchar32]
    · simp [narrow, mode, drawchar16]
  · simp [narrow, drawchar32]

/-- A pixel has two or four bytes. -/
theorem pixelSize_cases (build : ScrBuild) (scr : DebugScr)
    : scr.pixelSize build = 2 ∨ scr.pixelSize build = 4 := by
  unfold DebugScr.pixelSize
  split
  · exact Or.inr rfl
  · exact Or.inl rfl

/-- In 32-bit mode a pixel has four bytes. -/
theorem pixelSize_wide {build : ScrBuild} {scr : DebugScr} (wide : scr.wide build)
    : scr.pixelSize build = 4 :=
  if_pos wide

/-- In 32-bit mode a colour is stored as it is. -/
theorem pixel_wide {build : ScrBuild} {scr : DebugScr} (wide : scr.wide build) (color : U32)
    : scr.pixel build color = color :=
  if_pos wide

/-- What clear_screen does to the memory. -/
theorem clearScreen_paint (build : ScrBuild) (s : Screen) (color : U32)
    : (clearScreen build s color).vram
      = s.vram.paint (s.gScr.clearOrigin build) (s.gScr.pixelSize build)
          (cleared (s.gScr.pixel build color)) := by
  have positive : 0 < s.gScr.pixelSize build := by
    rcases pixelSize_cases build s.gScr with size | size <;> omega
  have bound : s.gScr.pixelSize build * vramPixels ≤ 2 ^ 32 := by
    rcases pixelSize_cases build s.gScr with size | size <;> rw [size] <;> decide
  rw [clearScreen_eq]
  unfold clearScreenWith cleared DebugScr.clearOrigin
  simp only
  exact ByteMemory.foldl_fill positive bound _

/-- One row of a glyph is an overlay on eight pixels. -/
theorem drawRow_paint {size first : Nat} (positive : 0 < size)
    (bound : size * (first + 8) ≤ 2 ^ 32) (useBgcol : Bool) (fgcol bgcol : U32) (font : Byte)
    (origin : U32) (mem : ByteMemory 32)
    : drawRow size useBgcol fgcol bgcol font (element origin size first) mem
      = mem.paint origin size (fun i =>
          if first ≤ i ∧ i < first + 8 then
            if font &&& (128#8 >>> (i - first)) ≠ 0 then some fgcol
            else if useBgcol then some bgcol else none
          else none) := by
  let pixel (j : Nat) : Option U32 :=
    if font &&& (128#8 >>> j) ≠ 0 then some fgcol else if useBgcol then some bgcol else none
  have step (mem : ByteMemory 32) (j : Nat) (member : j ∈ List.range 8)
      : (if font &&& (128#8 >>> j) ≠ 0 then
            mem.store size (element (element origin size first) size j) fgcol
          else if useBgcol then
            mem.store size (element (element origin size first) size j) bgcol
          else mem)
        = mem.paint origin size (fun i => if i = first + j then pixel j else none) := by
    have room : size * (first + j) + size ≤ 2 ^ 32 := by
      have inside : first + j + 1 ≤ first + 8 := by
        have := List.mem_range.mp member
        omega
      have scaled := Nat.mul_le_mul_left size inside
      rw [Nat.mul_succ] at scaled
      omega
    rw [element_element, ← Int.natCast_add]
    by_cases bit : font &&& (128#8 >>> j) ≠ 0
    · rw [if_pos bit, ByteMemory.store_element positive room]
      simp only [pixel, if_pos bit]
    · by_cases background : useBgcol = true
      · rw [if_neg bit, if_pos background, ByteMemory.store_element positive room]
        simp only [pixel, if_neg bit, if_pos background]
      · rw [if_neg bit, if_neg background]
        simp only [pixel, if_neg bit, if_neg background, ite_self]
        rfl
  have only (j i : Nat) (hit : (if i = first + j then pixel j else none).isSome)
      : j = i - first := by
    by_contra other
    rw [if_neg (by omega)] at hit
    contradiction
  unfold drawRow
  rw [List.foldl_ext _ _ _ step, ByteMemory.foldl_paint (fun i => i - first) only]
  congr 1
  funext i
  by_cases inside : first ≤ i ∧ i < first + 8
  · rw [if_pos inside, if_pos (by omega), if_pos (by omega)]
  · rw [if_neg inside]
    split
    · rw [if_neg (by omega)]
    · rfl

/-- Drawing a character inside the rows and columns of the memory is putting its overlay on. -/
theorem drawcharWith_paint {shift size : Nat} {s : Screen} {x y : Nat} (init : s.gInit = true)
    (positive : 0 < size) (column : x + 8 ≤ vramWidth)
    (bound : size * (vramWidth * (y + 8)) ≤ 2 ^ 32) (fgcol bgcol : U32) (ch : Byte)
    : (drawcharWith shift size s x y fgcol bgcol ch).vram
      = s.vram.paint (s.gScr.vramBase + s.gScr.vramOffset.sshiftRight shift) size
          (s.gScr.glyph fgcol bgcol ch x y) := by
  have started : ¬ s.gInit = false := by simp [init]
  simp only [vramWidth] at column bound
  rw [drawcharWith, if_neg started]
  generalize s.gScr.vramBase + s.gScr.vramOffset.sshiftRight shift = origin
  have step (mem : ByteMemory 32) (i : Nat) (member : i ∈ List.range 8)
      : drawRow size (s.gScr.has flagScrUseBgcol) fgcol bgcol (s.gScr.font.row ch i)
          (element (element origin size (x + y * vramWidth)) size (vramWidth * i)) mem
        = mem.paint origin size (fun p =>
            if 512 * (y + i) + x ≤ p ∧ p < 512 * (y + i) + x + 8 then
              s.gScr.glyphPixel fgcol bgcol ch i (p - (512 * (y + i) + x))
            else none) := by
    have line : i < 8 := List.mem_range.mp member
    have place : (x : Int) + y * vramWidth + vramWidth * i = ((512 * (y + i) + x : Nat) : Int) := by
      simp only [vramWidth]
      push_cast
      ring
    have room : size * (512 * (y + i) + x + 8) ≤ 2 ^ 32 := by
      refine le_trans (Nat.mul_le_mul_left size ?_) bound
      omega
    rw [element_element, place, drawRow_paint positive room]
    rfl
  have only (i p : Nat)
      (hit : (if 512 * (y + i) + x ≤ p ∧ p < 512 * (y + i) + x + 8 then
          s.gScr.glyphPixel fgcol bgcol ch i (p - (512 * (y + i) + x)) else none).isSome)
      : i = p / 512 - y := by
    by_contra other
    rw [if_neg (by omega)] at hit
    contradiction
  simp only
  rw [List.foldl_ext _ _ _ step, ByteMemory.foldl_paint (fun p => p / 512 - y) only]
  congr 1
  funext p
  simp only [DebugScr.glyph, vramWidth]
  by_cases inside : y ≤ p / 512 ∧ p / 512 < y + 8 ∧ x ≤ p % 512 ∧ p % 512 < x + 8
  · rw [if_pos inside, if_pos (by omega), if_pos (by omega)]
    congr 1
    omega
  · rw [if_neg inside]
    split
    · rw [if_neg (by omega)]
    · rfl

/-- Drawing a character at a cell, of the grid or below it. -/
theorem scrPutchar_paint (build : ScrBuild) {s : Screen} {cx cy : Nat} (init : s.gInit = true)
    (column : cx < mx) (line : cy < 2 ^ 16) (fgcol : U32) (ch : Byte)
    : (scrPutchar build s (7 * cx : Nat) (8 * cy : Nat) fgcol ch).vram
      = s.vram.paint (s.gScr.drawOrigin build) (s.gScr.pixelSize build)
          (s.gScr.glyph (s.gScr.pixel build fgcol) (s.gScr.pixel build s.gScr.bgcol) ch (7 * cx)
            (8 * cy)) := by
  simp only [mx, scrWidth, fontcharWidthPx] at column
  rw [scrPutchar_eq]
  refine drawcharWith_paint init ?_ ?_ ?_ _ _ _
  · rcases pixelSize_cases build s.gScr with size | size <;> omega
  · simp only [vramWidth]
    omega
  · simp only [vramWidth]
    rcases pixelSize_cases build s.gScr with size | size <;> rw [size] <;> omega

end LibKprintf
