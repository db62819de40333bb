import LibKprintf.Foundation.ElementArray
import LibKprintf.Screen.Clear

/-! The same calls show the same picture in every pixel format. Two screens, with buffers at
different places and with pixels of different sizes, are run side by side.
-/

namespace LibKprintf

open Foundation

-----------------------------------------------------------------------------------------
-- The calls
-----------------------------------------------------------------------------------------

/-- A call that does not choose the frame buffer or its format. -/
inductive ScreenCall
  | setFgcol (color : U32)
  | setBgcol (color : U32)
  | useBgcol (on : Int)
  | useClearline (on : Int)
  | setx (x : U16)
  | sety (y : U16)
  | setxy (x y : U16)
  | putchar (x y : Int) (fgcol : U32) (ch : Byte)
  | clear
  | clearline (y : Int)
  | printdata (buf : List Byte)
  | puts (str : Option (List Byte))
  | putsl (str : Option (List Byte))
  | printf (len : Int) (buf : List Byte)

/-- The state after a call and what the call returns, 0 for `void`. -/
def ScreenCall.run (build : ScrBuild) (s : Screen) : ScreenCall → Screen × Int
  | .setFgcol color => (scrSetFgcol s color).map id (·.toNat)
  | .setBgcol color => (scrSetBgcol s color).map id (·.toNat)
  | .useBgcol on => (scrUseBgcol s on).map id (·.toNat)
  | .useClearline on => (scrUseClearline s on).map id (·.toNat)
  | .setx x => (scrSetx s x).map id (·.toNat)
  | .sety y => (scrSety s y).map id (·.toNat)
  | .setxy x y => (scrSetxy s x y, 0)
  | .putchar x y fgcol ch => (scrPutchar build s x y fgcol ch, 0)
  | .clear => (scrClear build s, 0)
  | .clearline y => (scrClearline build s y, 0)
  | .printdata buf => scrPrintdata build s buf
  | .puts str => scrPuts build s str
  | .putsl str => scrPutsl build s str
  | .printf len buf => scrPrintf build s len buf

/-- A character drawn by scr_putchar has its place inside the frame buffer. -/
def ScreenCall.Inside : ScreenCall → Prop
  | .putchar x y _ _ => 0 ≤ x ∧ x + 8 ≤ vramWidth ∧ 0 ≤ y ∧ y + 8 ≤ scrHeight
  | _ => True

/-- The state after a sequence of calls, and what they return. -/
def runScreen (build : ScrBuild) (s : Screen) : List ScreenCall → Screen × List Int
  | [] => (s, [])
  | call :: rest =>
      let after := call.run build s
      let last := runScreen build after.1 rest
      (last.1, after.2 :: last.2)

-----------------------------------------------------------------------------------------
-- Two screens side by side
-----------------------------------------------------------------------------------------

/-- The frame buffer as an array of colours, each stored in the format of the build and the mode. -/
def DebugScr.pixels (build : ScrBuild) (scr : DebugScr) : ElementArray 32 32 U32 where
  origin := scr.vramBase
  size := scr.pixelSize build
  encode := scr.pixel build

/-- Two initialised screens that differ at most in the mode and in the place of the frame buffer,
with the offset 0.
-/
structure Twins (s t : Screen) : Prop where
  init : s.gInit = true ∧ t.gInit = true
  settings : ∃ mode base, t.gScr = { s.gScr with vramMode := mode, vramBase := base }
  offset : s.gScr.vramOffset = 0

/-- A pixel shows the same colour on both screens, each in its own format. -/
def SameColor (build₁ build₂ : ScrBuild) (s t : Screen) (i : Nat) : Prop :=
  ∃ color, s.Shows build₁ i color ∧ t.Shows build₂ i color

/-- Two screens take corresponding steps: they stay alike, their formats stay as they are, and each
pixel that is drawn on one of them gets the same colour on the other.
-/
structure Alike (build₁ build₂ : ScrBuild) (s s' t t' : Screen) : Prop where
  twins : Twins s' t'
  first : s'.gScr.pixels build₁ = s.gScr.pixels build₁
  second : t'.gScr.pixels build₂ = t.gScr.pixels build₂
  picture
    : ∀ i < vramPixels,
        (s.gScr.pixels build₁).InStep (t.gScr.pixels build₂) s.vram s'.vram t.vram t'.vram i

section Steps

variable {build₁ build₂ : ScrBuild} {s s' s'' t t' t'' : Screen}

/-- A frame buffer, with room for a cursor that has left the grid, fits into the memory. -/
theorem pixels_cover (build : ScrBuild) (scr : DebugScr)
    : (scr.pixels build).Covers (2 ^ 30) := by
  rcases pixelSize_cases build scr with size | size <;>
    simp [ElementArray.Covers, DebugScr.pixels, size]

/-- Nothing happens on either screen. -/
theorem Twins.refl (twins : Twins s t) : Alike build₁ build₂ s s t t :=
  ⟨twins, rfl, rfl, fun _ _ => .refl⟩

/-- Two corresponding steps are one. -/
theorem Alike.trans (earlier : Alike build₁ build₂ s s' t t')
    (later : Alike build₁ build₂ s' s'' t' t'')
    : Alike build₁ build₂ s s'' t t'' where
  twins := later.twins
  first := later.first.trans earlier.first
  second := later.second.trans earlier.second
  picture i inside := by
    have drawn := later.picture i inside
    rw [earlier.first, earlier.second] at drawn
    exact (earlier.picture i inside).trans drawn

/-- Each pixel has been kept on both screens or shows the same colour on both. -/
theorem Alike.shown (alike : Alike build₁ build₂ s s' t t') {i : Nat} (inside : i < vramPixels)
    : (s.SamePixel build₁ s' i ∧ t.SamePixel build₂ t' i) ∨ SameColor build₁ build₂ s' t' i := by
  refine (alike.picture i inside).imp id ?_
  rw [← alike.first, ← alike.second]
  exact id

/-- A pixel with the same colour on both screens still has one. -/
theorem Alike.agree (alike : Alike build₁ build₂ s s' t t') {i : Nat} (inside : i < vramPixels)
    (same : SameColor build₁ build₂ s t i)
    : SameColor build₁ build₂ s' t' i := by
  have agrees := (alike.picture i inside).agree same
  rw [← alike.first, ← alike.second] at agrees
  exact agrees

/-- A loop of corresponding steps; by induction on its rounds. -/
theorem Twins.foldl {α : Type} {f g : Screen → α → Screen} {list : List α} (twins : Twins s t)
    (round : ∀ x ∈ list, ∀ {s t}, Twins s t → Alike build₁ build₂ s (f s x) t (g t x))
    : Alike build₁ build₂ s (list.foldl f s) t (list.foldl g t) := by
  induction list generalizing s t with
  | nil => exact twins.refl
  | cons x rest ih =>
      have first := round x List.mem_cons_self twins
      exact first.trans (ih first.twins fun y member => round y (List.mem_cons_of_mem x member))

/-- A change of the settings that has nothing to do with the frame buffer. -/
theorem Twins.sets (twins : Twins s t) (h : DebugScr → DebugScr)
    (mode
      : ∀ scr mode base,
          h { scr with vramMode := mode, vramBase := base }
            = { h scr with vramMode := mode, vramBase := base })
    (offset : ∀ scr, (h scr).vramOffset = scr.vramOffset)
    : Alike build₁ build₂ s { s with gScr := h s.gScr } t { t with gScr := h t.gScr } := by
  have format (build : ScrBuild) (scr : DebugScr) : (h scr).pixels build = scr.pixels build := by
    rw [show h scr = { h scr with vramMode := scr.vramMode, vramBase := scr.vramBase } from
      mode scr scr.vramMode scr.vramBase]
    rfl
  obtain ⟨mode', base, settings⟩ := twins.settings
  have changed := (congrArg h settings).trans (mode s.gScr mode' base)
  exact ⟨⟨twins.init, ⟨mode', base, changed⟩, (offset s.gScr).trans twins.offset⟩,
    format build₁ s.gScr, format build₂ t.gScr, fun _ _ => .refl⟩

/-- A change of the pixels. -/
theorem Twins.draws {vram vram' : ByteMemory 32} (twins : Twins s t) (drawn drawn' : List Drawn)
    (picture
      : ∀ i < vramPixels,
          (s.gScr.pixels build₁).InStep (t.gScr.pixels build₂) s.vram vram t.vram vram' i)
    : Alike build₁ build₂ s { s with vram := vram, drawn := drawn } t
        { t with vram := vram', drawn := drawn' } :=
  ⟨⟨twins.init, twins.settings, twins.offset⟩, rfl, rfl, picture⟩

-----------------------------------------------------------------------------------------
-- Characters
-----------------------------------------------------------------------------------------

/-- A row of a glyph is drawn in step. -/
theorem drawRow_inStep {one two : ElementArray 32 32 U32} {mem mem' : ByteMemory 32}
    {count start i : Nat} (covers : one.Covers count) (covers' : two.Covers count)
    (inside : start + 8 ≤ count) (any : i < count) (useBgcol : Bool) (fgcol bgcol : U32)
    (font : Byte)
    : one.InStep two
        mem
        (drawRow one.size useBgcol (one.encode fgcol) (one.encode bgcol) font
          (element one.origin one.size start) mem)
        mem'
        (drawRow two.size useBgcol (two.encode fgcol) (two.encode bgcol) font
          (element two.origin two.size start) mem')
        i := by
  refine ElementArray.foldl_inStep _ fun j member mem mem' => ?_
  have column : start + j < count := by
    have := List.mem_range.mp member
    omega
  have stored (color : U32)
      : one.InStep two mem (one.store mem (start + j : Nat) color) mem'
          (two.store mem' (start + j : Nat) color) i :=
    ElementArray.store_inStep covers covers' column any color
  simp only [ElementArray.store, Nat.cast_add] at stored
  simp only [element_element]
  split
  · exact stored fgcol
  · split
    · exact stored bgcol
    · exact .refl

/-- scr_putchar draws the same glyph on both screens. -/
theorem Twins.putchar (twins : Twins s t) {x y : Int} (column : 0 ≤ x) (line : 0 ≤ y)
    (bound : x + vramWidth * y < 2 ^ 29) (fgcol : U32) (ch : Byte)
    : Alike build₁ build₂ s (scrPutchar build₁ s x y fgcol ch) t
        (scrPutchar build₂ t x y fgcol ch) := by
  obtain ⟨x, rfl⟩ := Int.eq_ofNat_of_zero_le column
  obtain ⟨y, rfl⟩ := Int.eq_ofNat_of_zero_le line
  obtain ⟨mode, base, settings⟩ := twins.settings
  have started : ¬ s.gInit = false ∧ ¬ t.gInit = false := by simp [twins.init]
  have origin (build : ScrBuild) (scr : DebugScr) (zero : scr.vramOffset = 0)
      : scr.vramBase + scr.vramOffset.sshiftRight (scr.pixelShift build) = scr.vramBase := by
    simp [zero]
  have offset : t.gScr.vramOffset = 0 := by rw [settings, twins.offset]
  rw [scrPutchar_eq, scrPutchar_eq, drawcharWith, drawcharWith, if_neg started.1, if_neg started.2,
    origin build₁ _ twins.offset, origin build₂ _ offset]
  refine twins.draws _ _ fun i inside => ElementArray.foldl_inStep _ fun row member mem mem' => ?_
  have within := List.mem_range.mp member
  have count : vramPixels = 139264 := rfl
  have place : (x : Int) + y * vramWidth + vramWidth * row
      = ((x + vramWidth * (y + row) : Nat) : Int) := by
    push_cast
    ring
  have same : t.gScr.has flagScrUseBgcol = s.gScr.has flagScrUseBgcol
      ∧ t.gScr.font = s.gScr.font ∧ t.gScr.bgcol = s.gScr.bgcol := by simp [settings, DebugScr.has]
  simp only [element_element, place, same.1, same.2.1, same.2.2]
  refine drawRow_inStep (pixels_cover build₁ s.gScr) (pixels_cover build₂ t.gScr) ?_ ?_ _ _ _ _
  · simp only [vramWidth] at bound ⊢
    omega
  · omega

-----------------------------------------------------------------------------------------
-- Clearing
-----------------------------------------------------------------------------------------

/-- With the offset 0 each pixel of a cleared screen shows the colour. -/
theorem clearScreen_shows (build : ScrBuild) {s : Screen} (offset : s.gScr.vramOffset = 0)
    (color : U32) {i : Nat} (inside : i < vramPixels)
    : (clearScreen build s color).Shows build i color := by
  obtain ⟨vram, same⟩ := clearScreen_frame build s color
  have settings : (clearScreen build s color).gScr = s.gScr := by rw [same]
  have origin : s.gScr.clearOrigin build = s.gScr.vramBase := by
    simp [DebugScr.clearOrigin, offset, element]
  intro k within
  rw [settings] at within ⊢
  rw [clearScreen_paint, origin, ByteMemory.byte_paint (pixel_bound build s.gScr inside) within,
    cleared, if_pos inside]

/-- clear_screen fills both screens with the same colour. -/
theorem Twins.fills (twins : Twins s t) (color : U32)
    : Alike build₁ build₂ s (clearScreen build₁ s color) t (clearScreen build₂ t color)
      ∧ ∀ i < vramPixels,
          SameColor build₁ build₂ (clearScreen build₁ s color)
            (clearScreen build₂ t color) i := by
  obtain ⟨mode, base, settings⟩ := twins.settings
  have offset : t.gScr.vramOffset = 0 := by rw [settings, twins.offset]
  have shown (i : Nat) (inside : i < vramPixels) :
      SameColor build₁ build₂ (clearScreen build₁ s color)
        (clearScreen build₂ t color) i :=
    ⟨color, clearScreen_shows build₁ twins.offset color inside,
      clearScreen_shows build₂ offset color inside⟩
  refine ⟨?_, shown⟩
  obtain ⟨vram, first⟩ := clearScreen_frame build₁ s color
  obtain ⟨vram', second⟩ := clearScreen_frame build₂ t color
  rw [first, second] at shown ⊢
  exact twins.draws s.drawn t.drawn fun i inside => Or.inr (shown i inside)

/-- What the two screens have in common. -/
theorem Twins.same (twins : Twins s t)
    : t.gScr.x = s.gScr.x ∧ t.gScr.y = s.gScr.y ∧ t.gScr.fgcol = s.gScr.fgcol
      ∧ t.gScr.bgcol = s.gScr.bgcol ∧ ∀ flag, t.gScr.has flag = s.gScr.has flag := by
  obtain ⟨mode, base, settings⟩ := twins.settings
  simp [settings, DebugScr.has]

/-- scr_clearline blanks the same line, whatever it is asked for. -/
theorem Twins.clearline (twins : Twins s t) (y y' : Int)
    : Alike build₁ build₂ s (scrClearline build₁ s y) t (scrClearline build₂ t y') := by
  unfold scrClearline
  rw [twins.same.2.2.2.2, twins.same.2.2.2.2]
  split
  · exact twins.refl
  split
  · exact twins.refl
  refine twins.foldl fun i member s t twins => ?_
  obtain ⟨_, line, _, background, _⟩ := twins.same
  have column : i < 68 := List.mem_range.mp member
  have bound := s.gScr.y.isLt
  rw [line, background]
  refine twins.putchar (by omega) (by omega) ?_ _ _
  simp only [vramWidth]
  omega

/-- scr_setx moves both cursors. -/
theorem Twins.setx (twins : Twins s t) (x : U16)
    : Alike build₁ build₂ s (scrSetx s x).1 t (scrSetx t x).1 := by
  simp only [scrSetx]
  split
  · exact twins.sets (fun scr => { scr with x := x }) (fun _ _ _ => rfl) fun _ => rfl
  · exact twins.refl

/-- So does scr_sety. -/
theorem Twins.sety (twins : Twins s t) (y : U16)
    : Alike build₁ build₂ s (scrSety s y).1 t (scrSety t y).1 := by
  simp only [scrSety]
  split
  · exact twins.sets (fun scr => { scr with y := y }) (fun _ _ _ => rfl) fun _ => rfl
  · exact twins.refl

/-- And scr_setxy. -/
theorem Twins.setxy (twins : Twins s t) (x y : U16)
    : Alike build₁ build₂ s (scrSetxy s x y) t (scrSetxy t x y) := by
  have first : Alike build₁ build₂ s (scrSetx s x).1 t (scrSetx t x).1 := twins.setx x
  exact first.trans (first.twins.sety y)

/-- After scr_clear all pixels show the same colour. -/
theorem Twins.clear (twins : Twins s t)
    : Alike build₁ build₂ s (scrClear build₁ s) t (scrClear build₂ t)
      ∧ ∀ i < vramPixels,
          SameColor build₁ build₂ (scrClear build₁ s) (scrClear build₂ t) i := by
  have started : ¬ s.gInit = false ∧ ¬ t.gInit = false := by simp [twins.init]
  have lines : Alike build₁ build₂ s (clearLines build₁ s) t (clearLines build₂ t) :=
    twins.foldl fun y _ s t twins => twins.clearline y y
  have home := lines.trans (lines.twins.setxy 0 0)
  rw [scrClear, scrClear, if_neg started.1, if_neg started.2]
  simp only [home.twins.same.2.2.2.1]
  obtain ⟨clears, shown⟩ := @Twins.fills build₁ build₂ _ _ home.twins
    (scrSetxy (clearLines build₁ s) 0 0).gScr.bgcol
  exact ⟨home.trans clears, shown⟩

-----------------------------------------------------------------------------------------
-- Printing
-----------------------------------------------------------------------------------------

/-- The line advance. -/
theorem Twins.advance (twins : Twins s t)
    : Alike build₁ build₂ s (advanceLine build₁ s) t (advanceLine build₂ t) := by
  have next : Alike build₁ build₂ s { s with gScr := s.gScr.nextLine } t
      { t with gScr := t.gScr.nextLine } :=
    twins.sets DebugScr.nextLine (fun _ _ _ => rfl) fun _ => rfl
  exact next.trans (next.twins.clearline s.gScr.nextLine.y.toNat t.gScr.nextLine.y.toNat)

/-- A character at the cursor, which may be far outside the grid. -/
theorem Twins.draw (twins : Twins s t) (ch : Byte)
    : Alike build₁ build₂ s (putNext build₁ s ch) t (putNext build₂ t ch) := by
  obtain ⟨column, line, color, _, _⟩ := twins.same
  have farthest := s.gScr.x.isLt
  have lowest := s.gScr.y.isLt
  have drawn : Alike build₁ build₂ s
      (scrPutchar build₁ s (s.gScr.x.toNat * 7) (s.gScr.y.toNat * 8) s.gScr.fgcol ch) t
      (scrPutchar build₂ t (t.gScr.x.toNat * 7) (t.gScr.y.toNat * 8) t.gScr.fgcol ch) := by
    rw [column, line, color]
    refine twins.putchar (by omega) (by omega) ?_ _ _
    simp only [vramWidth]
    omega
  exact drawn.trans (drawn.twins.sets (fun scr => { scr with x := scr.x + 1 }) (fun _ _ _ => rfl)
    fun _ => rfl)

/-- One round of scr_printdata. -/
theorem Twins.printByte (twins : Twins s t) (c : Byte)
    : Alike build₁ build₂ s (scrPrintByte build₁ s c) t (scrPrintByte build₂ t c) := by
  unfold scrPrintByte
  split
  · exact twins.sets (fun scr => { scr with x := 0 }) (fun _ _ _ => rfl) fun _ => rfl
  split
  · exact twins.advance
  split
  · exact twins.foldl fun _ _ s t twins => twins.draw 0x20
  · have drawn : Alike build₁ build₂ s (putNext build₁ s c) t (putNext build₂ t c) :=
      twins.draw c
    simp only [drawn.twins.same.1]
    split
    · exact drawn.trans drawn.twins.advance
    · exact drawn

/-- scr_printdata prints the same on both screens and returns the same. -/
theorem Twins.printdata (twins : Twins s t) (buf : List Byte)
    : Alike build₁ build₂ s (scrPrintdata build₁ s buf).1 t (scrPrintdata build₂ t buf).1
      ∧ (scrPrintdata build₁ s buf).2 = (scrPrintdata build₂ t buf).2 := by
  have started : ¬ s.gInit = false ∧ ¬ t.gInit = false := by simp [twins.init]
  rw [scrPrintdata, scrPrintdata, if_neg started.1, if_neg started.2]
  exact ⟨twins.foldl fun c _ s t twins => twins.printByte c, rfl⟩

-----------------------------------------------------------------------------------------
-- Whole runs
-----------------------------------------------------------------------------------------

/-- Each call takes corresponding steps on the two screens and returns the same; by cases of the
call.
-/
theorem Twins.run (sameBuffer : build₁.scrPrintfBufsz = build₂.scrPrintfBufsz) (twins : Twins s t)
    {call : ScreenCall} (inside : call.Inside)
    : Alike build₁ build₂ s (call.run build₁ s).1 t (call.run build₂ t).1
      ∧ (call.run build₁ s).2 = (call.run build₂ t).2 := by
  obtain ⟨column, line, foreground, background, flags⟩ := twins.same
  cases call with
  | setFgcol color =>
      refine ⟨twins.sets (fun scr => { scr with fgcol := color }) (fun _ _ _ => rfl)
        fun _ => rfl, ?_⟩
      simp [ScreenCall.run, scrSetFgcol, foreground]
  | setBgcol color =>
      refine ⟨twins.sets (fun scr => { scr with bgcol := color }) (fun _ _ _ => rfl)
        fun _ => rfl, ?_⟩
      simp [ScreenCall.run, scrSetBgcol, background]
  | useBgcol on =>
      refine ⟨twins.sets (DebugScr.withFlag · flagScrUseBgcol on) (fun _ _ _ => rfl)
        fun _ => rfl, ?_⟩
      simp [ScreenCall.run, scrUseBgcol, flags]
  | useClearline on =>
      refine ⟨twins.sets (DebugScr.withFlag · flagScrUseClearline on) (fun _ _ _ => rfl)
        fun _ => rfl, ?_⟩
      simp [ScreenCall.run, scrUseClearline, flags]
  | setx x => exact ⟨twins.setx x, by simp [ScreenCall.run, scrSetx, column]⟩
  | sety y => exact ⟨twins.sety y, by simp [ScreenCall.run, scrSety, line]⟩
  | setxy x y => exact ⟨twins.setxy x y, rfl⟩
  | putchar x y fgcol ch =>
      obtain ⟨left, right, top, bottom⟩ := inside
      simp only [vramWidth, scrHeight] at right bottom
      refine ⟨twins.putchar left top ?_ fgcol ch, rfl⟩
      simp only [vramWidth]
      omega
  | clear => exact ⟨twins.clear.1, rfl⟩
  | clearline y => exact ⟨twins.clearline y y, rfl⟩
  | printdata buf => exact twins.printdata buf
  | puts str => exact twins.printdata _
  | putsl str =>
      have first : Alike build₁ build₂ s (scrPuts build₁ s str).1 t (scrPuts build₂ t str).1
          ∧ (scrPuts build₁ s str).2 = (scrPuts build₂ t str).2 := twins.printdata _
      obtain ⟨second, same⟩ := @Twins.printdata build₁ build₂ _ _ first.1.twins [0x0A]
      exact ⟨first.1.trans second, congrArg₂ (· + ·) first.2 same⟩
  | printf len buf =>
      simp only [ScreenCall.run, scrPrintf, sameBuffer]
      split
      · exact ⟨twins.refl, rfl⟩
      split
      · exact ⟨twins.refl, rfl⟩
      · exact twins.printdata _

/-- So do whole sequences of calls; by induction on them. -/
theorem Twins.runs (sameBuffer : build₁.scrPrintfBufsz = build₂.scrPrintfBufsz)
    (twins : Twins s t) {calls : List ScreenCall} (inside : ∀ call ∈ calls, call.Inside)
    : Alike build₁ build₂ s (runScreen build₁ s calls).1 t (runScreen build₂ t calls).1
      ∧ (runScreen build₁ s calls).2 = (runScreen build₂ t calls).2 := by
  induction calls generalizing s t with
  | nil => exact ⟨twins.refl, rfl⟩
  | cons call rest ih =>
      obtain ⟨first, result⟩ := twins.run sameBuffer (inside call List.mem_cons_self)
      obtain ⟨later, results⟩ := ih first.twins fun other member =>
        inside other (List.mem_cons_of_mem call member)
      exact ⟨first.trans later, congrArg₂ List.cons result results⟩

/-- After a sequence of calls with scr_clear all pixels show the same colour; by induction on the
calls before it.
-/
theorem Twins.cleared (sameBuffer : build₁.scrPrintfBufsz = build₂.scrPrintfBufsz)
    (twins : Twins s t) {calls : List ScreenCall} (inside : ∀ call ∈ calls, call.Inside)
    (clears : .clear ∈ calls) {i : Nat} (pixel : i < vramPixels)
    : SameColor build₁ build₂ (runScreen build₁ s calls).1 (runScreen build₂ t calls).1 i := by
  induction calls generalizing s t with
  | nil => contradiction
  | cons call rest ih =>
      have first := (twins.run sameBuffer (inside call List.mem_cons_self)).1
      have others : ∀ other ∈ rest, other.Inside := fun other member =>
        inside other (List.mem_cons_of_mem call member)
      rcases List.mem_cons.mp clears with rfl | later
      · exact (first.twins.runs sameBuffer others).1.agree pixel (twins.clear.2 i pixel)
      · exact ih first.twins others later

/-- The same calls show the same picture in every pixel format. On two screens that differ in the
build, the mode and the place of the frame buffer, they return the same and move the cursor alike;
a pixel keeps its bytes on both screens or shows the same colour on both, each in its own format;
and after scr_clear all pixels do.
-/
theorem modes_agree (sameBuffer : build₁.scrPrintfBufsz = build₂.scrPrintfBufsz)
    (twins : Twins s t) {calls : List ScreenCall} (inside : ∀ call ∈ calls, call.Inside)
    : let first := runScreen build₁ s calls
      let second := runScreen build₂ t calls
      first.2 = second.2
        ∧ Twins first.1 second.1
        ∧ ∀ i < vramPixels,
            ((s.SamePixel build₁ first.1 i ∧ t.SamePixel build₂ second.1 i)
                ∨ SameColor build₁ build₂ first.1 second.1 i)
              ∧ (.clear ∈ calls → SameColor build₁ build₂ first.1 second.1 i) := by
  obtain ⟨alike, results⟩ := twins.runs sameBuffer inside
  exact ⟨results, alike.twins, fun i pixel => ⟨alike.shown pixel, fun clears =>
    twins.cleared sameBuffer inside clears pixel⟩⟩

end Steps

/-- Screens are twins after scr_initex with the same flags, whatever the base and the mode. -/
theorem scrInitex_twins (build₁ build₂ : ScrBuild) {display₁ display₂ : Display} (s t : Screen)
    (base₁ base₂ : U32) (mode₁ mode₂ : Int) {flags : U32}
    (succeeds : (scrInitex build₁ display₁ s base₁ mode₁ flags).2 = 0)
    (succeeds' : (scrInitex build₂ display₂ t base₂ mode₂ flags).2 = 0)
    : Twins (scrInitex build₁ display₁ s base₁ mode₁ flags).1
        (scrInitex build₂ display₂ t base₂ mode₂ flags).1 := by
  rcases scrInitex_cases build₁ display₁ s base₁ mode₁ flags with ⟨fails, same⟩ | ⟨_, first⟩
  · rw [same] at succeeds
    exact absurd succeeds fails.ne
  rcases scrInitex_cases build₂ display₂ t base₂ mode₂ flags with ⟨fails, same⟩ | ⟨_, second⟩
  · rw [same] at succeeds'
    exact absurd succeeds' fails.ne
  rw [first, second]
  exact ⟨⟨rfl, rfl⟩, ⟨_, _, rfl⟩, rfl⟩

/-- Witness: a text with a tab, in 32-bit colours and in RGB 5:6:5. -/
theorem modes_agree_565
    : let display : Display := ⟨0x04000000, 0, 0, 480, 272, 0, 0⟩
      let vram : ByteMemory 32 := ⟨fun _ => 0xAA, fun _ => false⟩
      let wide := (scrInitex ⟨false, 512⟩ display (Screen.boot vram) 0 3 flagScrDefault).1
      let narrow := (scrInitex ⟨true, 512⟩ display (Screen.boot vram) 0 0 flagScrDefault).1
      let calls : List ScreenCall := [.setBgcol 0x00FF8040, .clear, .printdata [0x41, 0x09, 0x42]]
      ∀ i < vramPixels,
        SameColor ⟨false, 512⟩ ⟨true, 512⟩ (runScreen ⟨false, 512⟩ wide calls).1
          (runScreen ⟨true, 512⟩ narrow calls).1 i := by
  intro display vram wide narrow calls i pixel
  have twins : Twins wide narrow := scrInitex_twins _ _ _ _ _ _ _ _ rfl rfl
  have inside : ∀ call ∈ calls, call.Inside := by simp [calls, ScreenCall.Inside]
  have sameBuffer : (⟨false, 512⟩ : ScrBuild).scrPrintfBufsz
      = (⟨true, 512⟩ : ScrBuild).scrPrintfBufsz := rfl
  exact ((modes_agree sameBuffer twins inside).2.2 i pixel).2 (by simp [calls])

end LibKprintf
