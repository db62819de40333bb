import LibKprintf.Foundation.Terminal
import LibKprintf.Screen.Cells
import LibKprintf.Screen.Erase
import LibKprintf.Screen.Format
import LibKprintf.Screen.Stream

/-! The debug screen as a text terminal. As long as lines are cleared when they are entered, no text
has a carriage return in it and no glyph reaches into the cell to its right, the frame buffer shows
the last lines of what has been printed since the last scr_clear, every character in the colour that
was set at the time.
-/

namespace LibKprintf

open Foundation

variable {build : ScrBuild} {prnt : PrntBuild}

/-- A character and the colour that it is drawn in. -/
structure ScrInk where
  ch : Byte
  fgcol : U32
  deriving DecidableEq, Repr

instance : NeZero mx := ⟨by decide⟩

instance : NeZero my := ⟨by decide⟩

/-- What a byte types in a colour; a tab types four spaces. -/
def keysOf (fgcol : U32) (c : Byte) : List (Key ScrInk) :=
  if c = 0x0A then [.newline]
  else if c = 0x09 then List.replicate 4 (.ink ⟨0x20, fgcol⟩)
  else [.ink ⟨c, fgcol⟩]

/-- The eighth column of a glyph has no pixel of the character. -/
def Font.Narrow (font : Font) (ch : Byte) : Prop := ∀ row < 8, font.row ch row &&& (128#8 >>> 7) = 0

instance (font : Font) (ch : Byte) : Decidable (font.Narrow ch) :=
  inferInstanceAs (Decidable (∀ row < 8, _))

/-- A byte can be typed in a column: a newline, a tab that does not reach the end of the line, or a
character with a narrow glyph.
-/
def MayType (column : Nat) (c : Byte) : Prop :=
  c = 0x0A ∨ (c = 0x09 ∧ column + 4 < mx)
    ∨ (c ≠ 0x0D ∧ c ≠ 0x0A ∧ c ≠ 0x09 ∧ gMsx.Narrow c)

instance (column : Nat) (c : Byte) : Decidable (MayType column c) :=
  inferInstanceAs (Decidable (_ ∨ _ ∨ _))

/-- The cells of the screen. -/
abbrev Cells := Fin mx → Fin my → Option ScrInk

/-- The screen as a terminal. -/
abbrev ScrTerminal := Terminal ScrInk mx my

/-- The colour of a pixel of a character; the background is that of the screen. -/
def DebugScr.inkColor (scr : DebugScr) (ink : ScrInk) (row column : Nat) : U32 :=
  DebugScr.glyphColor { scr with fgcol := ink.fgcol } ink.ch row column

/-- The colour of a pixel of a cell. -/
def DebugScr.cellColor (scr : DebugScr) (content : Option ScrInk) (row column : Nat) : U32 :=
  content.elim scr.bgcol (fun ink => scr.inkColor ink row column)

/-- The colour of a pixel of the frame buffer. Behind the last column of cells there is background
only.
-/
def DebugScr.pixelColor (scr : DebugScr) (cells : Cells) (i : Nat) : U32 :=
  if inside : i % vramWidth / 7 < mx ∧ i / vramWidth / 8 < my then
    scr.cellColor (cells ⟨i % vramWidth / 7, inside.1⟩ ⟨i / vramWidth / 8, inside.2⟩)
      (i / vramWidth % 8) (i % vramWidth % 7)
  else
    scr.bgcol

/-- A screen whose lines are cleared when they are entered: initialised, with the font of the
library, both flags set, and the offset 0.
-/
structure Screen.Ready (s : Screen) : Prop where
  init : s.gInit = true
  font : s.gScr.font = gMsx
  background : s.gScr.has flagScrUseBgcol = true
  clears : s.gScr.has flagScrUseClearline = true
  offset : s.gScr.vramOffset = 0

/-- Every pixel of the frame buffer has its colour. -/
def Pictured (build : ScrBuild) (scr : DebugScr) (mem : ByteMemory 32) (cells : Cells) : Prop :=
  ∀ i < vramPixels,
    mem.Holds scr.vramBase (scr.pixelSize build) i (scr.pixel build (scr.pixelColor cells i))

/-- The screen shows a terminal, and will draw in a colour. -/
structure Screen.Displays (build : ScrBuild) (s : Screen) (t : ScrTerminal) (fgcol : U32)
    : Prop where
  ready : s.Ready
  fgcol : s.gScr.fgcol = fgcol
  column : s.gScr.x.toNat = t.column
  line : s.gScr.y.toNat = t.line
  pictured : Pictured build s.gScr s.vram t.cell

section Steps

variable {s u : Screen} {t : ScrTerminal} {fgcol : U32} {c : Byte}

/-- Where an overlay draws, it draws the new colour of the pixel, and elsewhere there is none. -/
def Recolors (build : ScrBuild) (scr : DebugScr) (overlay : Overlay 32) (old new : Cells) : Prop :=
  ∀ i, overlay i = some (scr.pixel build (scr.pixelColor new i))
    ∨ overlay i = none ∧ scr.pixelColor new i = scr.pixelColor old i

/-- Such an overlay turns the picture of the old cells into that of the new ones. -/
theorem Pictured.paint {scr : DebugScr} {mem : ByteMemory 32} {overlay : Overlay 32}
    {old new : Cells} (pictured : Pictured build scr mem old)
    (recolors : Recolors build scr overlay old new)
    : Pictured build scr (mem.paint scr.vramBase (scr.pixelSize build) overlay) new := by
  intro i inside k within
  rw [ByteMemory.byte_paint (pixel_bound build scr inside) within]
  rcases recolors i with drawn | ⟨silent, same⟩
  · rw [drawn]
  · rw [silent, same]
    exact pictured i inside k within

/-- The colour of a pixel in the columns of the cells. -/
theorem pixelColor_inside (scr : DebugScr) (cells : Cells) {i : Nat} {cx : Fin mx} {cy : Fin my}
    (column : i % vramWidth / 7 = cx) (line : i / vramWidth / 8 = cy)
    : scr.pixelColor cells i
      = scr.cellColor (cells cx cy) (i / vramWidth % 8) (i % vramWidth % 7) := by
  have inside : i % vramWidth / 7 < mx ∧ i / vramWidth / 8 < my :=
    ⟨column ▸ cx.isLt, line ▸ cy.isLt⟩
  have place : (⟨i % vramWidth / 7, inside.1⟩ : Fin mx) = cx
      ∧ (⟨i / vramWidth / 8, inside.2⟩ : Fin my) = cy :=
    ⟨Fin.ext column, Fin.ext line⟩
  rw [DebugScr.pixelColor, dif_pos inside, place.1, place.2]

/-- Behind them there is background. -/
theorem pixelColor_outside (scr : DebugScr) (cells : Cells) {i : Nat}
    (behind : mx ≤ i % vramWidth / 7)
    : scr.pixelColor cells i = scr.bgcol :=
  dif_neg fun inside => absurd inside.1 (not_lt.mpr behind)

/-- A pixel of a cell that has not changed has its old colour. -/
theorem pixelColor_congr (scr : DebugScr) {old new : Cells} {i : Nat}
    (same
      : ∀ (cx : Fin mx) (cy : Fin my), i % vramWidth / 7 = cx → i / vramWidth / 8 = cy →
          new cx cy = old cx cy)
    : scr.pixelColor new i = scr.pixelColor old i := by
  unfold DebugScr.pixelColor
  split
  · rename_i inside
    rw [same ⟨_, inside.1⟩ ⟨_, inside.2⟩ rfl rfl]
  · rfl

/-- Putting a narrow character in a cell draws it there, and nothing but background on the empty
cell to its right.
-/
theorem put_recolors {scr : DebugScr} {old new : Cells} {x : Fin mx} {y : Fin my} {ch : Byte}
    (background : scr.has flagScrUseBgcol = true) (narrow : scr.font.Narrow ch)
    (next : ∀ cx : Fin mx, cx.val = x + 1 → old cx y = none)
    (inked : ∀ cx cy, new cx cy = if cy = y ∧ cx = x then some ⟨ch, scr.fgcol⟩ else old cx cy)
    : Recolors build scr ((CellOp.put x y ch).overlay build scr) old new := by
  intro i
  rw [CellOp.overlay, DebugScr.glyph]
  split_ifs with block
  · obtain ⟨above, below, left, right⟩ := block
    have line : i / vramWidth / 8 = y := by omega
    have row : i / vramWidth % 8 = i / vramWidth - 8 * y := by omega
    refine Or.inl ?_
    rw [glyphPixel_color background]
    by_cases eighth : i % vramWidth = 7 * x + 7
    · -- The eighth column is the first one of the next cell, or behind all cells.
      have seventh : i % vramWidth - 7 * x = 7 := by omega
      have empty : scr.glyphColor ch (i / vramWidth - 8 * y) 7 = scr.bgcol := by
        rw [DebugScr.glyphColor, if_neg (not_not.mpr (narrow _ (by omega)))]
      rw [seventh, empty]
      by_cases last : x + 1 < mx
      · have column : i % vramWidth / 7 = (⟨x + 1, last⟩ : Fin mx) := by
          simp only
          omega
        have other : (⟨x + 1, last⟩ : Fin mx) ≠ x := fun same => by
          have := congrArg Fin.val same
          simp at this
        rw [pixelColor_inside scr new column line, inked, if_neg fun both => other both.2,
          next ⟨x + 1, last⟩ rfl]
        rfl
      · rw [pixelColor_outside scr new (by omega)]
    · have column : i % vramWidth / 7 = x := by omega
      have within : i % vramWidth % 7 = i % vramWidth - 7 * x := by omega
      rw [pixelColor_inside scr new column line, inked, if_pos ⟨rfl, rfl⟩, row, within]
      rfl
  · refine Or.inr ⟨rfl, pixelColor_congr scr fun cx cy column line => ?_⟩
    rw [inked, if_neg]
    rintro ⟨rfl, rfl⟩
    exact block (by omega)

/-- Entering a line blanks it. -/
theorem enter_recolors {scr : DebugScr} {old new : Cells} {y : Fin my}
    (clears : scr.has flagScrUseClearline = true)
    (entered : ∀ cx cy, new cx cy = if cy = y then none else old cx cy)
    : Recolors build scr ((CellOp.enter y).overlay build scr) old new := by
  intro i
  have width : mx = 68 := rfl
  rw [CellOp.overlay, if_pos clears, blankLine]
  split_ifs with block
  · obtain ⟨above, below, left⟩ := block
    refine Or.inl ?_
    by_cases column : i % vramWidth / 7 < mx
    · have line : i / vramWidth / 8 = y := by omega
      rw [pixelColor_inside scr new (show i % vramWidth / 7 = (⟨_, column⟩ : Fin mx) from rfl) line,
        entered, if_pos rfl]
      rfl
    · rw [pixelColor_outside scr new (not_lt.mp column)]
  · refine Or.inr ⟨rfl, ?_⟩
    by_cases column : i % vramWidth / 7 < mx
    · refine pixelColor_congr scr fun cx cy column line => ?_
      rw [entered, if_neg]
      rintro rfl
      exact block (by omega)
    · rw [pixelColor_outside scr new (not_lt.mp column),
        pixelColor_outside scr old (not_lt.mp column)]

/-- Neither the cursor nor the colour of the next characters matters for it. -/
theorem Screen.Ready.settings {x y : U16} {color : U32} (ready : s.Ready)
    (init : u.gInit = s.gInit) (settings : u.gScr = { s.gScr with x := x, y := y, fgcol := color })
    : u.Ready := by
  obtain ⟨started, font, background, clears, offset⟩ := ready
  refine ⟨init.trans started, ?_, ?_, ?_, ?_⟩ <;> rw [settings] <;> assumption

/-- A screen that displays a terminal can print. -/
theorem Screen.Displays.printable (displays : s.Displays build t fgcol) : s.Printable := by
  obtain ⟨⟨init, _, background, _, offset⟩, _, column, line, _⟩ := displays
  exact ⟨init, background, offset, column ▸ t.column.isLt, line ▸ t.line.isLt⟩

/-- What has been drawn on a screen leads to the next terminal. -/
theorem Screen.Displays.drew {ops : List CellOp} {next : ScrTerminal}
    (displays : s.Displays build t fgcol) (drew : Drew build s u ops next.column next.line)
    (pictured : Pictured build s.gScr (paintOps build s.gScr s.vram ops) next.cell)
    : u.Displays build next fgcol where
  ready := displays.ready.settings drew.init drew.settings
  fgcol := by
    rw [drew.settings]
    exact displays.fgcol
  column := drew.column
  line := drew.line
  pictured := by
    rw [drew.vram, drew.settings]
    exact pictured

/-- The code counts the lines as the terminal does. -/
theorem lineAfter_eq (l : Fin my) : lineAfter l.val = (Terminal.lineAfter l).val := by
  have inside := l.isLt
  have value : (Terminal.lineAfter l).val = (l.val + 1) % my := rfl
  rw [value, lineAfter]
  split
  · rename_i last
    rw [last, Nat.mod_self]
  · exact (Nat.mod_eq_of_lt (by omega)).symm

/-- A newline is typed on the terminal. -/
theorem Screen.Displays.newline (displays : s.Displays build t fgcol)
    : (scrPrintByte build s 0x0A).Displays build (t.feed .newline) fgcol := by
  have step := printByte_drew build displays.printable (show (0x0A : Byte) ≠ 0x09 by decide)
  rw [displays.column, displays.line, byteOps, if_neg (by decide), if_pos rfl,
    lineAfter_eq] at step
  exact displays.drew step.1
    (displays.pictured.paint (enter_recolors displays.ready.clears fun _ _ => rfl))

/-- So is a narrow character. -/
theorem Screen.Displays.put (displays : s.Displays build t fgcol) (noReturn : c ≠ 0x0D)
    (noNewline : c ≠ 0x0A) (noTab : c ≠ 0x09) (narrow : gMsx.Narrow c)
    : (scrPrintByte build s c).Displays build (t.feed (.ink ⟨c, fgcol⟩)) fgcol := by
  have step := printByte_drew build displays.printable noTab
  rw [displays.column, displays.line, byteOps, if_neg noReturn, if_neg noNewline] at step
  have inked : Pictured build s.gScr (paintOps build s.gScr s.vram [.put t.column t.line c])
      (t.inked ⟨c, fgcol⟩) := by
    refine displays.pictured.paint (put_recolors displays.ready.background
      (displays.ready.font ▸ narrow) (fun cx next => ?_) fun _ _ => by rw [displays.fgcol]; rfl)
    exact t.ahead cx (by omega)
  by_cases last : t.column.val + 1 = mx
  · have ends : t.feed (.ink ⟨c, fgcol⟩) = Terminal.enter t.line (t.inked ⟨c, fgcol⟩) :=
      dif_neg (by omega)
    rw [if_pos last, lineAfter_eq] at step
    rw [ends]
    exact displays.drew step.1
      (inked.paint (enter_recolors displays.ready.clears fun _ _ => rfl))
  · have room : t.column.val + 1 < mx := by
      have inside := t.column.isLt
      omega
    rw [if_neg last] at step
    rw [Terminal.feed, Terminal.put, dif_pos room]
    exact displays.drew step.1 inked

/-- A tab that does not reach the end of the line draws what four spaces draw. -/
theorem tab_eq_spaces (build : ScrBuild) (s : Screen) (fits : s.gScr.x.toNat + 4 < mx)
    : scrPrintByte build s 0x09
      = (List.replicate 4 (0x20 : Byte)).foldl (scrPrintByte build) s := by
  have columns : mx = 68 := rfl
  have space (u : Screen) (room : u.gScr.x.toNat + 1 < mx)
      : scrPrintByte build u 0x20 = putNext build u 0x20
        ∧ (putNext build u 0x20).gScr.x.toNat = u.gScr.x.toNat + 1 := by
    have next : (putNext build u 0x20).gScr.x.toNat = u.gScr.x.toNat + 1 := by
      rw [(putNext_frame build u 0x20).1]
      simp only
      bv_omega
    refine ⟨?_, next⟩
    rw [scrPrintByte, if_neg (by decide), if_neg (by decide), if_neg (by decide)]
    simp only [next]
    rw [if_neg (by omega)]
  obtain ⟨first, x₁⟩ := space s (by omega)
  obtain ⟨second, x₂⟩ := space (putNext build s 0x20) (by omega)
  obtain ⟨third, x₃⟩ := space (putNext build (putNext build s 0x20) 0x20) (by omega)
  obtain ⟨fourth, _⟩ :=
    space (putNext build (putNext build (putNext build s 0x20) 0x20) 0x20) (by omega)
  simp only [List.replicate, List.foldl_cons, List.foldl_nil, first, second, third, fourth]
  rfl

/-- A byte that may be typed is typed on the terminal. -/
theorem Screen.Displays.byte (displays : s.Displays build t fgcol) (may : MayType t.column c)
    : (scrPrintByte build s c).Displays build (t.type (keysOf fgcol c)) fgcol := by
  rcases may with rfl | ⟨rfl, fits⟩ | ⟨noReturn, noNewline, noTab, narrow⟩
  · exact displays.newline
  · rw [tab_eq_spaces build s (by rw [displays.column]; exact fits)]
    have spaces (count : Nat)
        : ((List.replicate count (0x20 : Byte)).foldl (scrPrintByte build) s).Displays build
            (t.type (List.replicate count (.ink ⟨0x20, fgcol⟩))) fgcol := by
      induction count with
      | zero => exact displays
      | succ count ih =>
          rw [List.replicate_succ', List.replicate_succ', Terminal.type, List.foldl_append,
            List.foldl_append]
          exact ih.put (c := 0x20) (by decide) (by decide) (by decide) (by decide)
    exact spaces 4
  · have keys : keysOf fgcol c = [.ink ⟨c, fgcol⟩] := by
      rw [keysOf, if_neg noNewline, if_neg noTab]
    rw [keys]
    exact displays.put noReturn noNewline noTab narrow

end Steps

-----------------------------------------------------------------------------------------
-- Runs of calls
-----------------------------------------------------------------------------------------

/-- What has been typed since the screen was cleared, and the colour of the next characters. -/
structure Console where
  typed : List (Key ScrInk)
  fgcol : U32

/-- The text on the console, in lines. -/
def Console.written (console : Console) : Written ScrInk := Written.type mx console.typed

/-- Type a text. -/
def Console.type (console : Console) (text : List Byte) : Console :=
  { console with typed := console.typed ++ text.flatMap (keysOf console.fgcol) }

/-- Every byte of a text may be typed where the cursor is when its turn comes. -/
def Console.MayType (console : Console) : List Byte → Prop
  | [] => True
  | c :: rest =>
      LibKprintf.MayType console.written.last.length c ∧ (console.type [c]).MayType rest

/-- The calls that print, clear or choose the colour. -/
inductive TextCall (prnt : PrntBuild)
  | fgcol (color : U32)
  | clear
  | print (call : ScrCall)
  | kprintf (buf : Vector Byte prnt.prntCtxBufsz) (codes : List Byte)

/-- The screen after a call. -/
def TextCall.run (build : ScrBuild) (s : Screen) : TextCall prnt → Screen
  | .fgcol color => (scrSetFgcol s color).1
  | .clear => scrClear build s
  | .print call => call.run build s
  | .kprintf buf codes => (scrKprintf build s buf (framed codes)).getD s

/-- The text of a call. -/
def TextCall.text (build : ScrBuild) : TextCall prnt → List Byte
  | .print call => call.text build
  | .kprintf _ codes => withoutReturns codes
  | _ => []

/-- What a call means on the console. -/
def TextCall.type (build : ScrBuild) (console : Console) (call : TextCall prnt) : Console :=
  match call with
  | .fgcol color => { console with fgcol := color }
  | .clear => { console with typed := [] }
  | call => console.type (call.text build)

/-- Among the calls of the cursor, only those that print are meant. -/
def TextCall.prints : TextCall prnt → Bool
  | .print call => call.prints
  | _ => true

/-- What a call prints may be typed. -/
def TextCall.Allowed (build : ScrBuild) (console : Console) (call : TextCall prnt) : Prop :=
  call.prints = true ∧ console.MayType (call.text build)

/-- All calls of a sequence are allowed in their turn. -/
def AllAllowed (build : ScrBuild) : Console → List (TextCall prnt) → Prop
  | _, [] => True
  | console, call :: rest =>
      call.Allowed build console ∧ AllAllowed build (call.type build console) rest

instance Console.decidableMayType
    : (console : Console) → (text : List Byte) → Decidable (console.MayType text)
  | _, [] => isTrue trivial
  | console, c :: rest =>
      have := decidableMayType (console.type [c]) rest
      inferInstanceAs (Decidable (_ ∧ _))

instance (build : ScrBuild) (console : Console) (call : TextCall prnt)
    : Decidable (call.Allowed build console) :=
  inferInstanceAs (Decidable (_ ∧ _))

instance decidableAllAllowed (build : ScrBuild)
    : (console : Console) → (calls : List (TextCall prnt)) →
        Decidable (AllAllowed build console calls)
  | _, [] => isTrue trivial
  | console, call :: rest =>
      have := decidableAllAllowed build (call.type build console) rest
      inferInstanceAs (Decidable (_ ∧ _))

/-- The screen shows the last lines of a text: the cursor is behind its end, each of the last 34
lines is in its place of the ring, the places that no line has reached are blank, and so is what is
behind the last column of cells.
-/
structure Screen.ShowsText (build : ScrBuild) (s : Screen) (w : Written ScrInk) : Prop where
  column : s.gScr.x.toNat = w.last.length
  line : s.gScr.y.toNat = w.full.length % my
  recent
    : ∀ k, w.Recent my k → ∀ cx < mx, ∀ row < 8, ∀ column < 7,
        s.Shows build (cellPixel cx (k % my) row column)
          (s.gScr.cellColor (w.all[k]?.bind (·[cx]?)) row column)
  unused
    : ∀ cy < my, w.full.length < cy → ∀ cx < mx, ∀ row < 8, ∀ column < 7,
        s.Shows build (cellPixel cx cy row column) s.gScr.bgcol
  margin : ∀ i < vramPixels, 7 * mx ≤ i % vramWidth → s.Shows build i s.gScr.bgcol

/-- The screen displays a terminal that shows what has been typed on the console. -/
def Screen.Follows (build : ScrBuild) (s : Screen) (console : Console) : Prop :=
  s.Displays build (Terminal.blank.type console.typed) console.fgcol

section Runs

variable {s : Screen} {console : Console}

/-- Texts are typed one after the other. -/
theorem Console.type_cons (console : Console) (c : Byte) (rest : List Byte)
    : console.type (c :: rest) = (console.type [c]).type rest := by
  simp [Console.type]

/-- A text that may be typed is printed as it is typed; by induction on it. -/
theorem Screen.Follows.text {text : List Byte} (follows : s.Follows build console)
    (may : console.MayType text)
    : (text.foldl (scrPrintByte build) s).Follows build (console.type text) := by
  induction text generalizing s console with
  | nil => simpa [Console.type] using follows
  | cons c rest ih =>
      obtain ⟨first, others⟩ := may
      have column : (Terminal.blank.type console.typed : ScrTerminal).column.val
          = console.written.last.length :=
        (Terminal.type_shows console.typed).column
      rw [← column] at first
      have typed := follows.byte first
      rw [List.foldl_cons, Console.type_cons]
      refine ih ?_ others
      rw [Screen.Follows, Console.type, List.flatMap_singleton]
      simp only [Terminal.type, List.foldl_append] at typed ⊢
      exact typed

/-- scr_clear changes the pixels, and moves the cursor to the first cell. -/
theorem scrClear_frame (build : ScrBuild) (init : s.gInit = true)
    : (scrClear build s).gScr = { s.gScr with x := 0, y := 0 }
      ∧ (scrClear build s).gInit = s.gInit := by
  obtain ⟨scr, started⟩ := clearLines_frame build s
  obtain ⟨vram, same⟩ := clearScreen_frame build (scrSetxy (clearLines build s) 0 0)
    (scrSetxy (clearLines build s) 0 0).gScr.bgcol
  rw [scrClear, if_neg (by simp [init])]
  simp only
  rw [same, ← scr, ← started]
  exact ⟨rfl, rfl⟩

/-- After scr_clear nothing has been typed. -/
theorem follows_clear (build : ScrBuild) (ready : s.Ready)
    : (scrClear build s).Follows build ⟨[], s.gScr.fgcol⟩ := by
  obtain ⟨settings, init⟩ := scrClear_frame build ready.init
  refine ⟨ready.settings init settings, by rw [settings], by rw [settings]; rfl,
    by rw [settings]; rfl, ?_⟩
  have painted := scrClear_paint build ready.init
  rw [clearOrigin_zero ready.offset] at painted
  intro i inside k within
  rw [settings] at within ⊢
  have color : DebugScr.pixelColor { s.gScr with x := 0, y := 0 }
      (Terminal.blank.type [] : ScrTerminal).cell i = s.gScr.bgcol := by
    rw [DebugScr.pixelColor]
    split <;> rfl
  rw [painted, color]
  refine (ByteMemory.byte_paint (pixel_bound build s.gScr inside) within).trans ?_
  rw [cleared, if_pos inside]
  rfl

/-- A call that is allowed is followed by the console. -/
theorem Screen.Follows.call {call : TextCall prnt} (follows : s.Follows build console)
    (allowed : call.Allowed build console)
    : (call.run build s).Follows build (call.type build console) := by
  have started : ¬ s.gInit = false := by simp [follows.ready.init]
  cases call with
  | fgcol color =>
      obtain ⟨ready, _, column, line, pictured⟩ := follows
      exact ⟨ready.settings rfl rfl, rfl, column, line, pictured⟩
  | clear =>
      have cleared := follows_clear build follows.ready
      rw [follows.fgcol] at cleared
      exact cleared
  | print call =>
      rw [TextCall.run, ScrCall.run_prints build s allowed.1, if_neg started]
      exact follows.text allowed.2
  | kprintf buf codes =>
      rw [TextCall.run, (prnt_streams build s codes).2 buf, Option.getD_some, scrPrintdata,
        if_neg started]
      exact follows.text allowed.2

/-- So is a sequence of them; by induction on it. -/
theorem Screen.Follows.calls {calls : List (TextCall prnt)} (follows : s.Follows build console)
    (allowed : AllAllowed build console calls)
    : (calls.foldl (TextCall.run build) s).Follows build
        (calls.foldl (TextCall.type build) console) := by
  induction calls generalizing s console with
  | nil => exact follows
  | cons call rest ih => exact ih (follows.call allowed.1) allowed.2

/-- A screen that follows a console shows its text. -/
theorem Screen.Follows.shows (follows : s.Follows build console)
    : s.ShowsText build console.written := by
  have ring : (Terminal.blank.type console.typed : ScrTerminal).Shows console.written :=
    Terminal.type_shows console.typed
  have columns : mx = 68 := rfl
  have lines : my = 34 := rfl
  have shown (cx cy row column : Nat) (within : cx < mx) (line : cy < my) (inRow : row < 8)
      (inColumn : column < 7)
      : s.Shows build (cellPixel cx cy row column)
          (s.gScr.cellColor ((Terminal.blank.type console.typed : ScrTerminal).cell ⟨cx, within⟩
            ⟨cy, line⟩) row column) := by
    have holds := follows.pictured _ (cellPixel_inside within line inRow inColumn)
    have rowOf : cellPixel cx cy row column / vramWidth = 8 * cy + row := by
      simp only [cellPixel, vramWidth]
      omega
    have columnOf : cellPixel cx cy row column % vramWidth = 7 * cx + column := by
      simp only [cellPixel, vramWidth]
      omega
    have columnAt : cellPixel cx cy row column % vramWidth / 7 = (⟨cx, within⟩ : Fin mx) := by
      simp only
      omega
    have lineAt : cellPixel cx cy row column / vramWidth / 8 = (⟨cy, line⟩ : Fin my) := by
      simp only
      omega
    have parts : (8 * cy + row) % 8 = row ∧ (7 * cx + column) % 7 = column := by omega
    rw [pixelColor_inside s.gScr _ columnAt lineAt, rowOf, columnOf, parts.1, parts.2] at holds
    exact holds
  refine ⟨follows.column.trans ring.column, follows.line.trans ring.line, ?_, ?_, ?_⟩
  · intro k recent cx within row inRow column inColumn
    have line : k % my < my := Nat.mod_lt k (by omega)
    have holds := shown cx (k % my) row column within line inRow inColumn
    rw [ring.recent k recent ⟨cx, within⟩ ⟨k % my, line⟩ rfl] at holds
    exact holds
  · intro cy line behind cx within row inRow column inColumn
    have holds := shown cx cy row column within line inRow inColumn
    rw [ring.unused ⟨cy, line⟩ behind ⟨cx, within⟩] at holds
    exact holds
  · intro i inside behind
    have holds := follows.pictured i inside
    rw [pixelColor_outside s.gScr _ (by omega)] at holds
    exact holds

end Runs

end LibKprintf
