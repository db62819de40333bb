import LibKprintf.Screen.Cursor
import LibKprintf.Screen.Picture

/-! Clearing: what scr_clearline and scr_clear leave of what was drawn. Both draw and clear
relative to an origin of their own, and scr_clearline draws in the line of the cursor.
-/

namespace LibKprintf

open Foundation

/-- The overlay of the blank line `line`, as far as scr_clearline draws it. -/
def blankLine (color : U32) (line : Nat) : Overlay 32 :=
  fun i =>
    if 8 * line ≤ i / vramWidth ∧ i / vramWidth < 8 * line + 8 ∧ i % vramWidth < 477 then some color
    else none

/-- A character in the background colour is a blank block, whatever its glyph is. -/
theorem glyph_blank {scr : DebugScr} (background : scr.has flagScrUseBgcol = true) (color : U32)
    (ch : Byte) (x y i : Nat)
    : scr.glyph color color ch x y i
      = if y ≤ i / vramWidth ∧ i / vramWidth < y + 8 ∧ x ≤ i % vramWidth ∧ i % vramWidth < x + 8
          then some color else none := by
  simp only [DebugScr.glyph, DebugScr.glyphPixel, background, if_true, ite_self]

/-- scr_clearline puts a blank line on the line of the cursor; by induction on the cells. -/
theorem scrClearline_paint (build : ScrBuild) {s : Screen} (init : s.gInit = true)
    (background : s.gScr.has flagScrUseBgcol = true)
    (clears : s.gScr.has flagScrUseClearline = true) (y : Int)
    : (scrClearline build s y).vram
      = s.vram.paint (s.gScr.drawOrigin build) (s.gScr.pixelSize build)
          (blankLine (s.gScr.pixel build s.gScr.bgcol) s.gScr.y.toNat) := by
  have cells (count : Nat) (inside : count ≤ mx)
      : let t := (List.range count).foldl
          (fun s (i : Nat) => scrPutchar build s (i * 7) (s.gScr.y.toNat * 8) s.gScr.bgcol 219) s
        t.gScr = s.gScr ∧ t.gInit = true ∧
          t.vram = s.vram.paint (s.gScr.drawOrigin build) (s.gScr.pixelSize build) (fun i =>
            if 8 * s.gScr.y.toNat ≤ i / vramWidth ∧ i / vramWidth < 8 * s.gScr.y.toNat + 8
                ∧ 0 < count ∧ i % vramWidth < 7 * count + 1
            then some (s.gScr.pixel build s.gScr.bgcol) else none) := by
    induction count with
    | zero => exact ⟨rfl, init, by simp [ByteMemory.paint]⟩
    | succ count ih =>
        obtain ⟨scr, started, painted⟩ := ih (by omega)
        rw [List.range_succ, List.foldl_append, List.foldl_cons, List.foldl_nil]
        generalize (List.range count).foldl _ s = t at scr started painted ⊢
        obtain ⟨scr', started', _⟩ := scrPutchar_frame build t (count * 7) (t.gScr.y.toNat * 8)
          t.gScr.bgcol 219
        refine ⟨scr'.trans scr, started'.trans started, ?_⟩
        have place : ((count : Int) * 7 = ((7 * count : Nat) : Int))
            ∧ ((t.gScr.y.toNat : Int) * 8 = ((8 * t.gScr.y.toNat : Nat) : Int)) := by
          constructor <;> push_cast <;> ring
        rw [place.1, place.2, scrPutchar_paint build started (by omega) t.gScr.y.isLt, painted, scr,
          ByteMemory.paint_paint]
        congr 1
        funext i
        rw [glyph_blank background]
        simp only [vramWidth]
        split_ifs <;> first | rfl | omega
  obtain ⟨_, _, painted⟩ := cells mx le_rfl
  rw [scrClearline, if_neg (by simp [clears]), if_neg (by simp [background]), painted]
  congr 1
  funext i
  have width : mx = 68 := rfl
  simp only [blankLine, vramWidth]
  split_ifs <;> first | rfl | omega

/-- Pixel `i`, counted from the frame buffer of a screen with the offset 0, has a colour. -/
def Screen.Shows (build : ScrBuild) (s : Screen) (i : Nat) (color : U32) : Prop :=
  s.vram.Holds s.gScr.vramBase (s.gScr.pixelSize build) i (s.gScr.pixel build color)

/-- The first columns of a text line show the background colour. -/
def Screen.LineBlank (build : ScrBuild) (s : Screen) (line columns : Nat) : Prop :=
  ∀ i, 8 * line ≤ i / vramWidth → i / vramWidth < 8 * line + 8 → i % vramWidth < columns →
    s.Shows build i s.gScr.bgcol

/-- The bytes of pixel `i` are the same in both states. -/
def Screen.SamePixel (build : ScrBuild) (s t : Screen) (i : Nat) : Prop :=
  ∀ k < s.gScr.pixelSize build,
    t.vram.byte (element s.gScr.vramBase (s.gScr.pixelSize build) i + BitVec.ofNat 32 k)
      = s.vram.byte (element s.gScr.vramBase (s.gScr.pixelSize build) i + BitVec.ofNat 32 k)

/-- scr_clearline(line) does what its name says: the columns 0 to 475 of the line are blank, no
pixel of another pixel row has changed, nor have the cursor and the settings.
-/
structure ClearsLine (build : ScrBuild) (s : Screen) (line : Nat) : Prop where
  blank : (scrClearline build s line).LineBlank build line 476
  others
    : ∀ i < vramPixels, ¬ (8 * line ≤ i / vramWidth ∧ i / vramWidth < 8 * line + 8) →
        s.SamePixel build (scrClearline build s line) i
  settings
    : (scrClearline build s line).gScr = s.gScr ∧ (scrClearline build s line).gInit = s.gInit

/-- A screen on which scr_clearline draws: initialised, both flags set, the offset 0, and the cursor
in one of the lines.
-/
structure Screen.Clearable (s : Screen) : Prop where
  init : s.gInit = true
  background : s.gScr.has flagScrUseBgcol = true
  clears : s.gScr.has flagScrUseClearline = true
  offset : s.gScr.vramOffset = 0
  line : s.gScr.y.toNat < my

section ClearLine

variable {build : ScrBuild} {s : Screen}

/-- With the offset 0 the pixels are drawn from the base on. -/
theorem drawOrigin_zero {scr : DebugScr} (offset : scr.vramOffset = 0)
    : scr.drawOrigin build = scr.vramBase := by
  rw [DebugScr.drawOrigin, offset]
  simp

/-- The pixels of the frame buffer do not reach around the end of the memory. -/
theorem pixel_bound (build : ScrBuild) (scr : DebugScr) {i : Nat} (inside : i < vramPixels)
    : scr.pixelSize build * i + scr.pixelSize build ≤ 2 ^ 32 := by
  have count : vramPixels = 139264 := rfl
  rcases pixelSize_cases build scr with size | size <;> rw [size] <;> omega

/-- The bytes of a pixel after scr_clearline: in the line of the cursor those of the background
colour, else what was there before.
-/
theorem Screen.Clearable.byte (clearable : s.Clearable) (y : Int) {i k : Nat}
    (inside : i < vramPixels) (within : k < s.gScr.pixelSize build)
    : (scrClearline build s y).vram.byte
        (element s.gScr.vramBase (s.gScr.pixelSize build) i + BitVec.ofNat 32 k)
      = if 8 * s.gScr.y.toNat ≤ i / vramWidth ∧ i / vramWidth < 8 * s.gScr.y.toNat + 8
            ∧ i % vramWidth < 477 then
          byteOf (s.gScr.pixel build s.gScr.bgcol) k
        else
          s.vram.byte (element s.gScr.vramBase (s.gScr.pixelSize build) i + BitVec.ofNat 32 k) := by
  obtain ⟨init, background, clears, offset, _⟩ := clearable
  rw [scrClearline_paint build init background clears, drawOrigin_zero offset,
    ByteMemory.byte_paint (pixel_bound build s.gScr inside) within]
  simp only [blankLine]
  split_ifs <;> rfl

/-- A pixel in a text line is a pixel of the frame buffer. -/
theorem inside_line {i line : Nat} (inGrid : line < my) (below : i / vramWidth < 8 * line + 8)
    : i < vramPixels := by
  have count : vramPixels = 139264 := rfl
  have lines : my = 34 := rfl
  simp only [vramWidth] at below
  omega

/-- A line after scr_clearline: the line of the cursor is blank, the others are as before. -/
theorem Screen.Clearable.lineBlank (clearable : s.Clearable) (y : Int) {line : Nat}
    (inGrid : line < my)
    : (scrClearline build s y).LineBlank build line 476
      ↔ line = s.gScr.y.toNat ∨ s.LineBlank build line 476 := by
  have settings := (scrClearline_frame build s y).1
  unfold Screen.LineBlank Screen.Shows ByteMemory.Holds
  rw [settings]
  by_cases here : line = s.gScr.y.toNat
  · subst here
    refine iff_of_true (fun i above below column k within => ?_) (Or.inl rfl)
    rw [clearable.byte y (inside_line inGrid below) within, if_pos ⟨above, below, by omega⟩]
  · rw [or_iff_right here]
    refine forall_congr' fun i => forall₃_congr fun above below column =>
      forall₂_congr fun k within => ?_
    rw [clearable.byte y (inside_line inGrid below) within, if_neg (by omega)]

/-- scr_clearline(line) clears the line exactly if it is the line of the cursor, or if there is
nothing to clear: neither in the line nor in the line of the cursor.
-/
theorem clearsLine_iff (clearable : s.Clearable) {line : Nat} (inGrid : line < my)
    : ClearsLine build s line
      ↔ line = s.gScr.y.toNat
        ∨ s.LineBlank build line 476 ∧ s.LineBlank build s.gScr.y.toNat 477 := by
  obtain ⟨scr, init, _⟩ := scrClearline_frame build s line
  constructor
  · intro clearing
    by_cases here : line = s.gScr.y.toNat
    · exact Or.inl here
    · refine Or.inr ⟨?_, fun i above below column k within => ?_⟩
      · exact ((clearable.lineBlank line inGrid).mp clearing.blank).resolve_left here
      · have inside := inside_line clearable.line below
        rw [← clearing.others i inside (by omega) k within,
          clearable.byte line inside within, if_pos ⟨above, below, column⟩]
  · intro condition
    refine ⟨(clearable.lineBlank line inGrid).mpr (condition.imp_right And.left), ?_, scr, init⟩
    intro i inside other k within
    rw [clearable.byte line inside within]
    split_ifs with drawn
    · obtain ⟨above, below, column⟩ := drawn
      rcases condition with here | ⟨_, blank⟩
      · exact absurd ⟨here ▸ above, here ▸ below⟩ other
      · exact (blank i above below column k within).symm
    · rfl

/-- The loop changes the pixels only. -/
theorem clearLines_frame (build : ScrBuild) (s : Screen)
    : (clearLines build s).gScr = s.gScr ∧ (clearLines build s).gInit = s.gInit := by
  refine List.foldlRecOn (motive := fun t : Screen => t.gScr = s.gScr ∧ t.gInit = s.gInit)
    (List.range my) _ ⟨rfl, rfl⟩ fun t ⟨scr, init⟩ y _ => ?_
  obtain ⟨scr', init', _⟩ := scrClearline_frame build t y
  exact ⟨scr'.trans scr, init'.trans init⟩

/-- The loop puts the same blank line on the line of the cursor again and again; by induction on the
passes.
-/
theorem clearLines_paint (init : s.gInit = true) (background : s.gScr.has flagScrUseBgcol = true)
    (clears : s.gScr.has flagScrUseClearline = true)
    : (clearLines build s).vram
      = s.vram.paint (s.gScr.drawOrigin build) (s.gScr.pixelSize build)
          (blankLine (s.gScr.pixel build s.gScr.bgcol) s.gScr.y.toNat) := by
  have passes (count : Nat)
      : let t := (List.range (count + 1)).foldl (fun s (y : Nat) => scrClearline build s y) s
        t.gScr = s.gScr ∧ t.gInit = true
          ∧ t.vram = s.vram.paint (s.gScr.drawOrigin build) (s.gScr.pixelSize build)
              (blankLine (s.gScr.pixel build s.gScr.bgcol) s.gScr.y.toNat) := by
    induction count with
    | zero =>
        obtain ⟨scr, started, _⟩ := scrClearline_frame build s 0
        exact ⟨scr, started.trans init, scrClearline_paint build init background clears 0⟩
    | succ count ih =>
        obtain ⟨scr, started, painted⟩ := ih
        rw [List.range_succ, List.foldl_append, List.foldl_cons, List.foldl_nil]
        generalize (List.range (count + 1)).foldl _ s = t at scr started painted ⊢
        obtain ⟨scr', started', _⟩ := scrClearline_frame build t (count + 1 : Nat)
        refine ⟨scr'.trans scr, started'.trans started, ?_⟩
        rw [scrClearline_paint build started (by rw [scr, background]) (by rw [scr, clears]), scr,
          painted, ByteMemory.paint_paint]
        congr 1
        funext i
        exact Option.or_self
  exact (passes 33).2.2

/-- Without one of the two flags the loop does nothing. -/
theorem clearLines_idle
    (idle : s.gScr.has flagScrUseBgcol = false ∨ s.gScr.has flagScrUseClearline = false)
    : clearLines build s = s := by
  refine List.foldlRecOn (motive := fun t : Screen => t = s) (List.range my) _ rfl ?_
  rintro _ rfl y _
  unfold scrClearline
  rcases idle with background | clears
  · rw [if_pos background, ite_self]
  · rw [if_pos clears]

/-- After the loop the line of the cursor is blank, and the others are as before. -/
theorem Screen.Clearable.loop (clearable : s.Clearable) {line : Nat} (inGrid : line < my)
    : (clearLines build s).LineBlank build line 476
      ↔ line = s.gScr.y.toNat ∨ s.LineBlank build line 476 := by
  rw [← clearable.lineBlank 0 inGrid]
  unfold Screen.LineBlank Screen.Shows
  rw [clearLines_paint clearable.init clearable.background clearable.clears,
    scrClearline_paint build clearable.init clearable.background clearable.clears,
    (clearLines_frame build s).1, (scrClearline_frame build s 0).1]

end ClearLine

/-- scr_clearline clears the line it is asked to clear exactly if that is the line of the cursor,
or if that line and the line of the cursor are blank already. So the loop of scr_clear blanks all
lines exactly if the other lines are blank already.
-/
theorem clearline_clears (build : ScrBuild) {s : Screen} (clearable : s.Clearable)
    : (∀ line < my, ClearsLine build s line
        ↔ line = s.gScr.y.toNat
          ∨ s.LineBlank build line 476 ∧ s.LineBlank build s.gScr.y.toNat 477)
      ∧ ((∀ line < my, (clearLines build s).LineBlank build line 476)
        ↔ ∀ line < my, line ≠ s.gScr.y.toNat → s.LineBlank build line 476) := by
  refine ⟨fun line inGrid => clearsLine_iff clearable inGrid, forall₂_congr fun line inGrid => ?_⟩
  rw [clearable.loop inGrid, or_iff_not_imp_left]

/-- An initialised screen with the cursor in the first line, a background of ones, and a memory of
zeros.
-/
def zeros : Screen :=
  {
    Screen.boot ⟨fun _ => 0, fun _ => false⟩ with
    gInit := true
    gScr := { initDebugScr with bgcol := 0x01010101 }
  }

/-- scr_clearline can draw on it. -/
theorem zeros_clearable : zeros.Clearable :=
  ⟨rfl, by decide, by decide, rfl, by decide⟩

/-- Witness: the line of the cursor is cleared. -/
theorem clearline_clears_cursor : ClearsLine ⟨false, 512⟩ zeros 0 :=
  ((clearline_clears ⟨false, 512⟩ zeros_clearable).1 0 (by decide)).mpr (Or.inl rfl)

/-- Counterexample: the second line is not. -/
theorem not_clearline_clears
    : ¬ ∀ (build : ScrBuild) (s : Screen), s.Clearable → ∀ line < my, ClearsLine build s line := by
  intro always
  have clearing := always ⟨false, 512⟩ zeros zeros_clearable 1 (by decide)
  rcases (clearsLine_iff zeros_clearable (by decide)).mp clearing with here | ⟨blank, _⟩
  · contradiction
  · have byte := blank (512 * 8) (by decide) (by decide) (by decide) 0 (by decide)
    revert byte
    decide

end LibKprintf
