import LibKprintf.Screen.CellOps

/-! What scr_printdata does to the cells of the grid. A glyph is eight pixels wide and a cell seven,
so a character also draws the first column of the cell to its right.
-/

namespace LibKprintf

open Foundation

variable {build : ScrBuild} {s : Screen} {text : List Byte} {cx cy row column : Nat}

/-- What an operation means for a cell: a character of its own, the eighth column of the character
to its left, or nothing but background.
-/
inductive Mark
  | own (ch : Byte)
  | left (ch : Byte)
  | blank
  deriving DecidableEq, Repr

/-- What an operation draws on a cell, where lines that are entered are cleared or not. -/
def CellOp.mark (clears : Bool) (cx cy : Nat) : CellOp → Option Mark
  | .put x y ch =>
      if y = cy ∧ x = cx then some (.own ch)
      else if y = cy ∧ x + 1 = cx then some (.left ch)
      else none
  | .enter y => if clears ∧ y = cy then some .blank else none

/-- What a mark leaves in the cell itself: a character, or an empty cell. -/
def Mark.content : Mark → Option (Option Byte)
  | .own ch => some (some ch)
  | .left _ => none
  | .blank => some none

/-- The colour of a pixel of a glyph, of which a cell shows the columns 0 to 6. -/
def DebugScr.glyphColor (scr : DebugScr) (ch : Byte) (row column : Nat) : U32 :=
  if scr.font.row ch row &&& (128#8 >>> column) ≠ 0 then scr.fgcol else scr.bgcol

/-- The colour that a mark gives to a pixel of the cell. -/
def Mark.color (scr : DebugScr) (row column : Nat) : Mark → Option U32
  | .own ch => some (scr.glyphColor ch row column)
  | .left ch => if column = 0 then some (scr.glyphColor ch row 7) else none
  | .blank => some scr.bgcol

/-- A pixel of a cell, counted from the first pixel of the frame buffer. -/
def cellPixel (cx cy row column : Nat) : Nat := vramWidth * (8 * cy + row) + (7 * cx + column)

/-- The operations of a call of scr_printdata. -/
def Screen.ops (s : Screen) (text : List Byte) : List CellOp :=
  textOps s.gScr.x.toNat s.gScr.y.toNat text

/-- The last mark of a cell. -/
def Screen.lastMark (s : Screen) (text : List Byte) (cx cy : Nat) : Option Mark :=
  latest (CellOp.mark (s.gScr.has flagScrUseClearline) cx cy) (s.ops text)

/-- What is in the cell last: the last character it received, or nothing if its line was cleared
after that.
-/
def Screen.lastContent (s : Screen) (text : List Byte) (cx cy : Nat) : Option (Option Byte) :=
  latest (fun op => (op.mark (s.gScr.has flagScrUseClearline) cx cy).bind Mark.content) (s.ops text)

/-- The cell received a character last. -/
def Screen.LastChar (s : Screen) (text : List Byte) (cx cy : Nat) (ch : Byte) : Prop :=
  s.lastContent text cx cy = some (some ch)

/-- The cell received no character, and its line was not entered. -/
def Screen.Untouched (s : Screen) (text : List Byte) (cx cy : Nat) : Prop :=
  (∀ ch, .put cx cy ch ∉ s.ops text) ∧ .enter cy ∉ s.ops text

/-- Printing a text leaves the other cells alone: those that receive no character, on lines that are
not entered, are as before, and those that receive a character last show it.
-/
structure LeavesOthers (build : ScrBuild) (s : Screen) (text : List Byte) : Prop where
  others
    : ∀ cx < mx, ∀ cy < my, s.Untouched text cx cy → ∀ row < 8, ∀ column < 7,
        s.SamePixel build (scrPrintdata build s text).1 (cellPixel cx cy row column)
  shown
    : ∀ cx < mx, ∀ cy < my, ∀ ch, s.LastChar text cx cy ch → ∀ row < 8, ∀ column < 7,
        (scrPrintdata build s text).1.Shows build (cellPixel cx cy row column)
          (s.gScr.glyphColor ch row column)

/-- Where the character to the left of a cell is drawn after all that is drawn on the cell itself,
the eighth column of its glyph looks like the first column that the cell should show.
-/
def EdgesAgree (build : ScrBuild) (s : Screen) (text : List Byte) : Prop :=
  ∀ cx < mx, ∀ cy < my, ∀ neighbour, s.lastMark text cx cy = some (.left neighbour) →
    (∀ ch, s.LastChar text cx cy ch → ∀ row < 8,
        s.gScr.pixel build (s.gScr.glyphColor neighbour row 7)
          = s.gScr.pixel build (s.gScr.glyphColor ch row 0))
      ∧ (s.Untouched text cx cy → ∀ row < 8,
        s.Shows build (cellPixel cx cy row 0) (s.gScr.glyphColor neighbour row 7))

/-- With a background every pixel of a glyph is drawn. -/
theorem glyphPixel_color {scr : DebugScr} (background : scr.has flagScrUseBgcol = true)
    (ch : Byte) (row column : Nat)
    : scr.glyphPixel (scr.pixel build scr.fgcol) (scr.pixel build scr.bgcol) ch row column
      = some (scr.pixel build (scr.glyphColor ch row column)) := by
  unfold DebugScr.glyphPixel DebugScr.glyphColor
  rw [if_pos background]
  split <;> rfl

/-- What an operation draws at a pixel of a cell. -/
theorem overlay_cellPixel {scr : DebugScr} (background : scr.has flagScrUseBgcol = true)
    (within : cx < mx) (inRow : row < 8) (inColumn : column < 7) (op : CellOp)
    : op.overlay build scr (cellPixel cx cy row column)
      = ((op.mark (scr.has flagScrUseClearline) cx cy).bind (Mark.color scr row column)).map
          (scr.pixel build) := by
  have columns : mx = 68 := rfl
  have rowOf : cellPixel cx cy row column / vramWidth = 8 * cy + row := by
    simp only [cellPixel, vramWidth]
    omega
  have columnOf : cellPixel cx cy row column % vramWidth = 7 * cx + column := by
    simp only [cellPixel, vramWidth]
    omega
  cases op with
  | put x y ch =>
      rw [CellOp.overlay, CellOp.mark, DebugScr.glyph, rowOf, columnOf]
      by_cases own : y = cy ∧ x = cx
      · obtain ⟨rfl, rfl⟩ := own
        rw [if_pos (by omega), if_pos ⟨rfl, rfl⟩, glyphPixel_color background,
          Nat.add_sub_cancel_left, Nat.add_sub_cancel_left]
        rfl
      by_cases left : y = cy ∧ x + 1 = cx
      · obtain ⟨rfl, rfl⟩ := left
        rw [if_neg own]
        by_cases first : column = 0
        · have eighth : 7 * (x + 1) + column - 7 * x = 7 := by omega
          rw [if_pos (by omega), glyphPixel_color background, Nat.add_sub_cancel_left, eighth,
            if_pos ⟨rfl, rfl⟩, Option.bind_some, Mark.color, if_pos first]
          rfl
        · rw [if_neg (by omega), if_pos ⟨rfl, rfl⟩, Option.bind_some, Mark.color, if_neg first]
          rfl
      · rw [if_neg own, if_neg left, if_neg (by omega)]
        rfl
  | enter y =>
      rw [CellOp.overlay, CellOp.mark]
      by_cases clears : scr.has flagScrUseClearline = true
      · rw [if_pos clears, blankLine, rowOf, columnOf]
        by_cases here : y = cy
        · rw [if_pos (by omega), if_pos ⟨clears, here⟩]
          rfl
        · rw [if_neg (by omega), if_neg fun both => here both.2]
          rfl
      · rw [if_neg clears, if_neg fun both => clears both.1]
        rfl

/-- A pixel of a cell is a pixel of the frame buffer. -/
theorem cellPixel_inside (within : cx < mx) (line : cy < my) (inRow : row < 8)
    (inColumn : column < 7)
    : cellPixel cx cy row column < vramPixels := by
  have columns : mx = 68 := rfl
  have lines : my = 34 := rfl
  have count : vramPixels = 139264 := rfl
  simp only [cellPixel, vramWidth]
  omega

/-- The last colour that a text gives to a pixel of a cell. -/
def Screen.lastColor (s : Screen) (text : List Byte) (cx cy row column : Nat) : Option U32 :=
  latest (fun op => (op.mark (s.gScr.has flagScrUseClearline) cx cy).bind
    (Mark.color s.gScr row column)) (s.ops text)

/-- The settings after a text has been printed, and the bytes of the pixels: those of the last
colour, or those that were there before.
-/
theorem printed (build : ScrBuild) (printable : s.Printable) (noTab : 0x09 ∉ text)
    (within : cx < mx) (line : cy < my) (inRow : row < 8) (inColumn : column < 7)
    : let t := (scrPrintdata build s text).1
      (∃ x y, t.gScr = { s.gScr with x := x, y := y })
        ∧ ∀ k < s.gScr.pixelSize build,
            t.vram.byte (element s.gScr.vramBase (s.gScr.pixelSize build)
                (cellPixel cx cy row column) + BitVec.ofNat 32 k)
              = match s.lastColor text cx cy row column with
                | some color => byteOf (s.gScr.pixel build color) k
                | none => s.vram.byte (element s.gScr.vramBase (s.gScr.pixelSize build)
                    (cellPixel cx cy row column) + BitVec.ofNat 32 k) := by
  obtain ⟨_, _, drew⟩ := printdata_drew build printable noTab
  have started : ¬ s.gInit = false := by simp [printable.init]
  have colors : latest (fun op => op.overlay build s.gScr (cellPixel cx cy row column)) (s.ops text)
      = (s.lastColor text cx cy row column).map (s.gScr.pixel build) := by
    rw [Screen.lastColor, ← latest_map]
    exact latest_congr fun op _ => overlay_cellPixel printable.background within inRow inColumn op
  simp only [scrPrintdata, if_neg started]
  refine ⟨⟨_, _, drew.settings⟩, fun k inside => ?_⟩
  have room := pixel_bound build s.gScr (cellPixel_inside within line inRow inColumn)
  rw [drew.vram, paintOps, ByteMemory.foldl_paint_latest, ByteMemory.byte_paint room inside]
  rw [Screen.ops] at colors
  rw [colors]
  cases s.lastColor text cx cy row column <;> rfl

/-- Two colours that are stored as the same bytes are the same pixel. -/
theorem pixel_eq {scr : DebugScr} {first second : U32}
    (same : ∀ k < scr.pixelSize build,
      byteOf (scr.pixel build first) k = byteOf (scr.pixel build second) k)
    : scr.pixel build first = scr.pixel build second := by
  unfold DebugScr.pixelSize DebugScr.pixel at *
  split at same
  · rename_i wide
    simp only [if_pos wide] at *
    exact eq_of_byteOf 4 le_rfl same
  · rename_i narrow
    simp only [if_neg narrow] at *
    refine congrArg (BitVec.setWidth 32) (eq_of_byteOf 2 le_rfl fun k inside => ?_)
    have low (c : U16) : byteOf (c.setWidth 32) k = byteOf c k := by
      refine BitVec.eq_of_getLsbD_eq fun i bit => ?_
      simp only [byteOf, BitVec.getLsbD_setWidth, BitVec.getLsbD_ushiftRight]
      simp [bit]
      omega
    rw [← low, ← low]
    exact same k inside

/-- A pixel of a cell is as before exactly if it showed its last colour already. -/
theorem samePixel_iff (printable : s.Printable) (noTab : 0x09 ∉ text) (within : cx < mx)
    (line : cy < my) (inRow : row < 8) (inColumn : column < 7)
    : s.SamePixel build (scrPrintdata build s text).1 (cellPixel cx cy row column)
      ↔ ∀ color, s.lastColor text cx cy row column = some color →
          s.Shows build (cellPixel cx cy row column) color := by
  have bytes := (printed build printable noTab within line inRow inColumn).2
  unfold Screen.SamePixel Screen.Shows ByteMemory.Holds
  cases last : s.lastColor text cx cy row column with
  | none =>
      rw [last] at bytes
      exact iff_of_true bytes nofun
  | some color =>
      rw [last] at bytes
      constructor
      · intro same color' is k inside
        cases is
        rw [← same k inside, bytes k inside]
      · intro shows k inside
        rw [bytes k inside, shows color rfl k inside]

/-- A pixel of a cell with a last colour shows a colour exactly if it is the same pixel. -/
theorem shows_iff (printable : s.Printable) (noTab : 0x09 ∉ text) (within : cx < mx)
    (line : cy < my) (inRow : row < 8) (inColumn : column < 7) {last : U32}
    (drawn : s.lastColor text cx cy row column = some last) (color : U32)
    : (scrPrintdata build s text).1.Shows build (cellPixel cx cy row column) color
      ↔ s.gScr.pixel build last = s.gScr.pixel build color := by
  obtain ⟨⟨x, y, settings⟩, bytes⟩ :=
    printed build printable noTab within line inRow inColumn
  rw [drawn] at bytes
  unfold Screen.Shows ByteMemory.Holds
  rw [settings]
  constructor
  · intro shows
    exact pixel_eq fun k inside => (bytes k inside).symm.trans (shows k inside)
  · intro same k inside
    exact (bytes k inside).trans (congrArg (byteOf · k) same)

/-- The columns behind the first one have the colours of what is in the cell. -/
theorem lastColor_inner (inner : 0 < column)
    : s.lastColor text cx cy row column
      = (s.lastContent text cx cy).map
          (fun content => content.elim s.gScr.bgcol (s.gScr.glyphColor · row column)) := by
  rw [Screen.lastColor, Screen.lastContent, ← latest_map]
  refine latest_congr fun op _ => ?_
  cases op.mark (s.gScr.has flagScrUseClearline) cx cy with
  | none => rfl
  | some mark =>
      cases mark with
      | left ch => exact if_neg inner.ne'
      | _ => rfl

/-- The first column has the colours of the last mark, of whatever kind. -/
theorem lastColor_edge
    : s.lastColor text cx cy row 0
      = (s.lastMark text cx cy).map (fun
          | .own ch => s.gScr.glyphColor ch row 0
          | .left ch => s.gScr.glyphColor ch row 7
          | .blank => s.gScr.bgcol) := by
  rw [Screen.lastColor, Screen.lastMark, ← latest_map]
  refine latest_congr fun op _ => ?_
  cases op.mark (s.gScr.has flagScrUseClearline) cx cy with
  | none => rfl
  | some mark => cases mark <;> rfl

/-- If it comes from the left, it is the eighth column of the neighbour. -/
theorem lastColor_left {neighbour : Byte} (last : s.lastMark text cx cy = some (.left neighbour))
    : s.lastColor text cx cy row 0 = some (s.gScr.glyphColor neighbour row 7) := by
  rw [lastColor_edge, last]
  rfl

/-- A last mark that leaves something in the cell leaves what is in it last. -/
theorem lastContent_of_mark {mark : Mark} {content : Option Byte}
    (last : s.lastMark text cx cy = some mark) (leaves : mark.content = some content)
    : s.lastContent text cx cy = some content :=
  latest_of_bind last leaves

/-- Nothing is left in an untouched cell. -/
theorem untouched_content (untouched : s.Untouched text cx cy)
    : s.lastContent text cx cy = none := by
  refine latest_eq_none.mpr fun op member => ?_
  cases op with
  | put x y ch =>
      rw [CellOp.mark]
      split_ifs with own left
      · obtain ⟨rfl, rfl⟩ := own
        exact absurd member (untouched.1 ch)
      · rfl
      · rfl
  | enter y =>
      rw [CellOp.mark]
      split_ifs with here
      · exact absurd (here.2 ▸ member) untouched.2
      · rfl

/-- On an untouched cell nothing is drawn last but the eighth column of its neighbour. -/
theorem untouched_mark (untouched : s.Untouched text cx cy)
    : s.lastMark text cx cy = none
      ∨ ∃ neighbour, s.lastMark text cx cy = some (.left neighbour) := by
  have empty := untouched_content untouched
  cases last : s.lastMark text cx cy with
  | none => exact Or.inl rfl
  | some mark =>
      cases mark with
      | left neighbour => exact Or.inr ⟨neighbour, rfl⟩
      | _ =>
          rw [lastContent_of_mark last rfl] at empty
          contradiction

/-- On a cell that received a character last that character is drawn last, or the eighth column of
its neighbour.
-/
theorem lastChar_mark {ch : Byte} (received : s.LastChar text cx cy ch)
    : s.lastMark text cx cy = some (.own ch)
      ∨ ∃ neighbour, s.lastMark text cx cy = some (.left neighbour) := by
  rw [Screen.LastChar] at received
  cases last : s.lastMark text cx cy with
  | none =>
      have silent : s.lastContent text cx cy = none :=
        latest_eq_none.mpr fun op member => by rw [latest_eq_none.mp last op member]; rfl
      rw [silent] at received
      contradiction
  | some mark =>
      cases mark with
      | left neighbour => exact Or.inr ⟨neighbour, rfl⟩
      | own other =>
          rw [lastContent_of_mark last rfl] at received
          cases received
          exact Or.inl rfl
      | blank =>
          rw [lastContent_of_mark last rfl] at received
          cases Option.some.inj received

/-- An untouched cell is as before exactly if what its neighbour draws on it last was there already.
-/
theorem untouched_iff (build : ScrBuild) (printable : s.Printable) (noTab : 0x09 ∉ text)
    (within : cx < mx) (line : cy < my) (untouched : s.Untouched text cx cy)
    : (∀ row < 8, ∀ column < 7,
        s.SamePixel build (scrPrintdata build s text).1 (cellPixel cx cy row column))
      ↔ ∀ neighbour, s.lastMark text cx cy = some (.left neighbour) → ∀ row < 8,
          s.Shows build (cellPixel cx cy row 0) (s.gScr.glyphColor neighbour row 7) := by
  constructor
  · intro same neighbour last row inRow
    have first : 0 < 7 := by decide
    exact (samePixel_iff printable noTab within line inRow first).mp (same row inRow 0 first) _
      (lastColor_left last)
  · intro agrees row inRow column inColumn
    refine (samePixel_iff printable noTab within line inRow inColumn).mpr fun color drawn => ?_
    by_cases first : column = 0
    · subst first
      rcases untouched_mark untouched with silent | ⟨neighbour, last⟩
      · rw [lastColor_edge, silent] at drawn
        contradiction
      · rw [lastColor_left last] at drawn
        cases drawn
        exact agrees neighbour last row inRow
    · rw [lastColor_inner (Nat.pos_of_ne_zero first), untouched_content untouched] at drawn
      contradiction

/-- A cell that received a character last shows it exactly if what its neighbour draws on it after
that looks the same.
-/
theorem lastChar_iff (build : ScrBuild) (printable : s.Printable) (noTab : 0x09 ∉ text)
    (within : cx < mx) (line : cy < my) {ch : Byte} (received : s.LastChar text cx cy ch)
    : (∀ row < 8, ∀ column < 7,
        (scrPrintdata build s text).1.Shows build (cellPixel cx cy row column)
          (s.gScr.glyphColor ch row column))
      ↔ ∀ neighbour, s.lastMark text cx cy = some (.left neighbour) → ∀ row < 8,
          s.gScr.pixel build (s.gScr.glyphColor neighbour row 7)
            = s.gScr.pixel build (s.gScr.glyphColor ch row 0) := by
  constructor
  · intro shown neighbour last row inRow
    have first : 0 < 7 := by decide
    exact (shows_iff printable noTab within line inRow first (lastColor_left last) _).mp
      (shown row inRow 0 first)
  · intro agrees row inRow column inColumn
    by_cases first : column = 0
    · subst first
      rcases lastChar_mark received with last | ⟨neighbour, last⟩
      · have drawn : s.lastColor text cx cy row 0 = some (s.gScr.glyphColor ch row 0) := by
          rw [lastColor_edge, last]
          rfl
        exact (shows_iff printable noTab within line inRow inColumn drawn _).mpr rfl
      · exact (shows_iff printable noTab within line inRow inColumn (lastColor_left last) _).mpr
          (agrees neighbour last row inRow)
    · have drawn : s.lastColor text cx cy row column = some (s.gScr.glyphColor ch row column) := by
        rw [lastColor_inner (Nat.pos_of_ne_zero first), received]
        rfl
      exact (shows_iff printable noTab within line inRow inColumn drawn _).mpr rfl

/-- Printing leaves the other cells alone exactly if the columns that two neighbours share agree. -/
theorem print_leaves_others (build : ScrBuild) (printable : s.Printable) (noTab : 0x09 ∉ text)
    : LeavesOthers build s text ↔ EdgesAgree build s text := by
  constructor
  · intro leaves cx within cy line neighbour last
    constructor
    · intro ch received
      exact (lastChar_iff build printable noTab within line received).mp
        (leaves.shown cx within cy line ch received) neighbour last
    · intro untouched
      exact (untouched_iff build printable noTab within line untouched).mp
        (leaves.others cx within cy line untouched) neighbour last
  · intro agree
    constructor
    · intro cx within cy line untouched
      exact (untouched_iff build printable noTab within line untouched).mpr
        fun neighbour last => (agree cx within cy line neighbour last).2 untouched
    · intro cx within cy line ch received
      exact (lastChar_iff build printable noTab within line received).mpr
        fun neighbour last => (agree cx within cy line neighbour last).1 ch received

/-- An initialised screen with the cursor in its first cell, black on a memory of zeros. -/
def black : Screen := { Screen.boot ⟨fun _ => 0, fun _ => false⟩ with gInit := true }

/-- Printing draws on it. -/
theorem black_printable : black.Printable :=
  ⟨rfl, by decide, rfl, by decide, by decide⟩

/-- After two characters the eighth column of the second one is drawn last in the cell behind. -/
theorem black_edges : EdgesAgree ⟨false, 512⟩ black [0x41, 0x42] := by
  intro cx within cy line neighbour last
  have place : neighbour = 0x42 ∧ cx = 2 ∧ cy = 0 := by
    have ops : black.ops [0x41, 0x42] = [.put 0 0 0x41, .put 1 0 0x42] := by decide
    rw [Screen.lastMark, ops] at last
    simp only [latest_cons, latest_nil, CellOp.mark] at last
    split_ifs at last <;> simp_all
  obtain ⟨rfl, rfl, rfl⟩ := place
  constructor
  · intro ch received
    have empty : black.lastContent [0x41, 0x42] 2 0 = none := by decide
    rw [Screen.LastChar, empty] at received
    contradiction
  · intro untouched row inRow
    have background : black.gScr.glyphColor 0x42 row 7 = 0 := by
      revert row
      decide
    have bytes : ∀ k < 4, (0 : Byte) = byteOf (0 : U32) k := by decide
    rw [background]
    exact bytes

/-- Witness: two characters on a black screen. -/
theorem print_leaves_others_black : LeavesOthers ⟨false, 512⟩ black [0x41, 0x42] :=
  (print_leaves_others ⟨false, 512⟩ black_printable (by decide)).mpr black_edges

/-- Counterexample: the first column of the cell behind a character changes. -/
theorem not_print_leaves_others
    : ¬ ∀ (build : ScrBuild) (s : Screen) (text : List Byte), s.Printable → 0x09 ∉ text →
        LeavesOthers build s text := by
  intro always
  have printable : zeros.Printable := ⟨rfl, by decide, rfl, by decide, by decide⟩
  have untouched : zeros.Untouched [0x41] 1 0 := by
    have ops : zeros.ops [0x41] = [.put 0 0 0x41] := by decide
    rw [Screen.Untouched, ops]
    simp
  have leaves := always ⟨false, 512⟩ zeros [0x41] printable (by decide)
  have same := (untouched_iff _ printable (by decide) (by decide) (by decide) untouched).mp
    (leaves.others 1 (by decide) 0 (by decide) untouched)
  have byte := same 0x41 (by decide) 0 (by decide) 0 (by decide)
  revert byte
  decide

end LibKprintf
