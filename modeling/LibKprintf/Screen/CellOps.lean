import LibKprintf.Screen.Clear

/-! What scr_printdata draws, as a list of the cells and lines it draws one after the other. The
list depends on the text and the cursor only, and the picture is that of the last one at every
pixel.
-/

namespace LibKprintf

open Foundation

variable {build : ScrBuild} {s : Screen}

/-- A character put at a cell, or a line entered by a line advance. -/
inductive CellOp
  | put (cx cy : Nat) (ch : Byte)
  | enter (cy : Nat)
  deriving DecidableEq, Repr

/-- The line after a line. -/
def lineAfter (y : Nat) : Nat := if y + 1 = my then 0 else y + 1

/-- What one character of a text draws with the cursor at a cell, and where the cursor is then. Tabs
are not covered.
-/
def byteOps (x y : Nat) (c : Byte) : List CellOp × Nat × Nat :=
  if c = 0x0D then
    ([], 0, y)
  else if c = 0x0A then
    ([.enter (lineAfter y)], 0, lineAfter y)
  else if x + 1 = mx then
    ([.put x y c, .enter (lineAfter y)], 0, lineAfter y)
  else
    ([.put x y c], x + 1, y)

/-- What a text draws with the cursor at a cell. -/
def textOps (x y : Nat) : List Byte → List CellOp
  | [] => []
  | c :: rest =>
      let (ops, x, y) := byteOps x y c
      ops ++ textOps x y rest

/-- What an operation draws. A line that is entered is cleared if the flag says so. -/
def CellOp.overlay (build : ScrBuild) (scr : DebugScr) : CellOp → Overlay 32
  | .put cx cy ch =>
      scr.glyph (scr.pixel build scr.fgcol) (scr.pixel build scr.bgcol) ch (7 * cx) (8 * cy)
  | .enter cy =>
      if scr.has flagScrUseClearline then blankLine (scr.pixel build scr.bgcol) cy
      else fun _ => none

/-- The memory after some operations. -/
def paintOps (build : ScrBuild) (scr : DebugScr) (mem : ByteMemory 32) (ops : List CellOp)
    : ByteMemory 32 :=
  ops.foldl (fun mem op =>
    mem.paint scr.vramBase (scr.pixelSize build) (op.overlay build scr)) mem

/-- A screen on which scr_printdata draws: initialised, with a background, the offset 0, and the
cursor in the grid.
-/
structure Screen.Printable (s : Screen) : Prop where
  init : s.gInit = true
  background : s.gScr.has flagScrUseBgcol = true
  offset : s.gScr.vramOffset = 0
  cursor : s.InGrid

/-- The screen has moved its cursor and drawn some operations, and is otherwise as before. -/
structure Drew (build : ScrBuild) (s t : Screen) (ops : List CellOp) (x y : Nat) : Prop where
  init : t.gInit = s.gInit
  settings : t.gScr = { s.gScr with x := t.gScr.x, y := t.gScr.y }
  column : t.gScr.x.toNat = x
  line : t.gScr.y.toNat = y
  vram : t.vram = paintOps build s.gScr s.vram ops

/-- Two parts of a text are drawn one after the other. -/
theorem Drew.trans {t u : Screen} {first second : List CellOp} {x y x' y' : Nat}
    (drew : Drew build s t first x y) (more : Drew build t u second x' y')
    : Drew build s u (first ++ second) x' y' := by
  refine ⟨more.init.trans drew.init, ?_, more.column, more.line, ?_⟩
  · rw [more.settings, drew.settings]
  · rw [more.vram, drew.vram, drew.settings]
    exact List.foldl_append.symm

/-- Putting a character at the cursor. -/
theorem putNext_drew (build : ScrBuild) (printable : s.Printable) (ch : Byte)
    : Drew build s (putNext build s ch) [.put s.gScr.x.toNat s.gScr.y.toNat ch]
        (s.gScr.x.toNat + 1) s.gScr.y.toNat := by
  obtain ⟨scr, init, _⟩ := putNext_frame build s ch
  have column := printable.cursor.1
  have next : (s.gScr.x + 1).toNat = s.gScr.x.toNat + 1 := by
    simp only [mx, scrWidth, fontcharWidthPx] at column
    bv_omega
  have place : ((s.gScr.x.toNat : Int) * 7 = ((7 * s.gScr.x.toNat : Nat) : Int))
      ∧ ((s.gScr.y.toNat : Int) * 8 = ((8 * s.gScr.y.toNat : Nat) : Int)) := by
    constructor <;> push_cast <;> ring
  have painted := scrPutchar_paint build printable.init printable.cursor.1 s.gScr.y.isLt
    s.gScr.fgcol ch
  rw [drawOrigin_zero printable.offset] at painted
  refine ⟨init, by rw [scr], by rw [scr]; exact next, by rw [scr], ?_⟩
  rw [putNext]
  simp only [place.1, place.2]
  exact painted

/-- The line of the cursor after a line advance. -/
theorem nextLine_y {scr : DebugScr} (line : scr.y.toNat < my)
    : scr.nextLine.y.toNat = lineAfter scr.y.toNat := by
  have next : (scr.y + 1).toNat = scr.y.toNat + 1 := by
    simp only [my, scrHeight, fontcharHeightPx] at line
    bv_omega
  simp only [DebugScr.nextLine, lineAfter, next]
  split
  · rfl
  · exact next

/-- Advancing the line enters the next line. -/
theorem advanceLine_drew (build : ScrBuild) (init : s.gInit = true)
    (background : s.gScr.has flagScrUseBgcol = true) (offset : s.gScr.vramOffset = 0)
    (line : s.gScr.y.toNat < my)
    : Drew build s (advanceLine build s) [.enter (lineAfter s.gScr.y.toNat)] 0
        (lineAfter s.gScr.y.toNat) := by
  obtain ⟨scr, init', _⟩ := advanceLine_frame build s
  refine ⟨init', by rw [scr]; rfl, by rw [scr]; rfl, by rw [scr, nextLine_y line], ?_⟩
  simp only [paintOps, List.foldl_cons, List.foldl_nil, CellOp.overlay]
  by_cases clears : s.gScr.has flagScrUseClearline = true
  · have painted := scrClearline_paint build (s := { s with gScr := s.gScr.nextLine }) init
      background clears s.gScr.nextLine.y.toNat
    have origin : s.gScr.nextLine.drawOrigin build = s.gScr.vramBase := drawOrigin_zero offset
    rw [origin] at painted
    rw [if_pos clears, ← nextLine_y line]
    exact painted
  · have idle : (advanceLine build s).vram = s.vram := by
      have off : s.gScr.nextLine.has flagScrUseClearline = false := Bool.eq_false_iff.mpr clears
      rw [advanceLine, scrClearline, if_pos off]
    rw [if_neg clears, idle]
    simp [ByteMemory.paint]

/-- One character of a text. -/
theorem printByte_drew (build : ScrBuild) (printable : s.Printable) {c : Byte} (noTab : c ≠ 0x09)
    : let (ops, x, y) := byteOps s.gScr.x.toNat s.gScr.y.toNat c
      Drew build s (scrPrintByte build s c) ops x y ∧ x < mx ∧ y < my := by
  obtain ⟨init, background, offset, column, line⟩ := printable
  have after : lineAfter s.gScr.y.toNat < my := by
    rw [← nextLine_y line]
    exact (nextLine_inGrid line).2
  have first : 0 < mx := by decide
  rw [scrPrintByte, byteOps]
  by_cases return' : c = 0x0D
  · rw [if_pos return', if_pos return']
    exact ⟨⟨rfl, rfl, rfl, rfl, rfl⟩, first, line⟩
  by_cases newline : c = 0x0A
  · rw [if_neg return', if_neg return', if_pos newline, if_pos newline]
    exact ⟨advanceLine_drew build init background offset line, first, after⟩
  rw [if_neg return', if_neg return', if_neg newline, if_neg newline, if_neg noTab]
  have put := putNext_drew build ⟨init, background, offset, column, line⟩ c
  by_cases last : s.gScr.x.toNat + 1 = mx
  · have advance : Drew build (putNext build s c) (advanceLine build (putNext build s c))
        [.enter (lineAfter s.gScr.y.toNat)] 0 (lineAfter s.gScr.y.toNat) := by
      have drew := advanceLine_drew build (put.init.trans init)
        (by rw [put.settings]; exact background) (by rw [put.settings]; exact offset)
        (by rw [put.line]; exact line)
      rwa [put.line] at drew
    rw [if_pos last]
    simp only [put.column, last, if_true]
    exact ⟨put.trans advance, first, after⟩
  · rw [if_neg last]
    simp only [put.column, last, if_false]
    exact ⟨put, by omega, line⟩

/-- A text; by induction on it. -/
theorem printdata_drew (build : ScrBuild) (printable : s.Printable) {text : List Byte}
    (noTab : 0x09 ∉ text)
    : ∃ x y, Drew build s (text.foldl (scrPrintByte build) s)
        (textOps s.gScr.x.toNat s.gScr.y.toNat text) x y := by
  induction text generalizing s with
  | nil => exact ⟨_, _, rfl, rfl, rfl, rfl, rfl⟩
  | cons c rest ih =>
      have other : c ≠ 0x09 := fun same => noTab (same ▸ List.mem_cons_self)
      have step := printByte_drew build printable other
      rw [textOps]
      generalize byteOps s.gScr.x.toNat s.gScr.y.toNat c = next at step ⊢
      obtain ⟨ops, x, y⟩ := next
      obtain ⟨drew, column, line⟩ := step
      have printable' : (scrPrintByte build s c).Printable := by
        refine ⟨drew.init.trans printable.init, ?_, ?_, ?_⟩
        · rw [drew.settings]
          exact printable.background
        · rw [drew.settings]
          exact printable.offset
        · rw [Screen.InGrid, drew.column, drew.line]
          exact ⟨column, line⟩
      obtain ⟨x', y', more⟩ := ih printable' fun member => noTab (List.mem_cons_of_mem c member)
      rw [drew.column, drew.line] at more
      exact ⟨x', y', drew.trans more⟩

end LibKprintf
