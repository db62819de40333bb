import LibKprintf.Model.Screen

/-! The cursor of the debug screen: where it can be after every byte and every call, and where
the characters are drawn.
-/

namespace LibKprintf

open Foundation

/-- The calls that draw text or move the cursor. -/
inductive ScrCall
  | initex (display : Display) (vramBase : U32) (mode : Int) (flags : U32)
  | setx (x : U16)
  | sety (y : U16)
  | setxy (x y : U16)
  | clear
  | clearline (y : Int)
  | printdata (buf : List Byte)
  | puts (str : Option (List Byte))
  | putsl (str : Option (List Byte))
  | printf (len : Int) (buf : List Byte)

/-- The state after a call. -/
def ScrCall.run (build : ScrBuild) (s : Screen) : ScrCall → Screen
  | .initex display vramBase mode flags => (scrInitex build display s vramBase mode flags).1
  | .setx x => (scrSetx s x).1
  | .sety y => (scrSety s y).1
  | .setxy x y => scrSetxy s x y
  | .clear => scrClear build s
  | .clearline y => scrClearline build s y
  | .printdata buf => (scrPrintdata build s buf).1
  | .puts str => (scrPuts build s str).1
  | .putsl str => (scrPutsl build s str).1
  | .printf len buf => (scrPrintf build s len buf).1

/-- The bytes that a call passes to scr_printdata. -/
def ScrCall.text (build : ScrBuild) : ScrCall → List Byte
  | .printdata buf => buf
  | .puts str => (str.getD []).takeWhile (· ≠ 0)
  | .putsl str => (str.getD []).takeWhile (· ≠ 0) ++ [0x0A]
  | .printf len buf =>
      if len < 0 ∨ len.toNat ≥ build.scrPrintfBufsz then [] else buf.take len.toNat
  | _ => []

/-- The bytes of a text, each with the state in which the loop of scr_printdata meets it. -/
def printMoves (build : ScrBuild) (s : Screen) : List Byte → List (Screen × Byte)
  | [] => []
  | c :: rest => (s, c) :: printMoves build (scrPrintByte build s c) rest

/-- The bytes that a call prints. Before the initialisation it prints none. -/
def ScrCall.moves (build : ScrBuild) (s : Screen) (call : ScrCall) : List (Screen × Byte) :=
  if s.gInit = false then [] else printMoves build s (call.text build)

/-- The bytes that a sequence of calls prints. -/
def runMoves (build : ScrBuild) (s : Screen) : List ScrCall → List (Screen × Byte)
  | [] => []
  | call :: rest => call.moves build s ++ runMoves build (call.run build s) rest

/-- The states after every byte and after every call of a sequence of calls. -/
def runVisits (build : ScrBuild) (s : Screen) : List ScrCall → List Screen
  | [] => []
  | call :: rest =>
      (call.moves build s).map (fun move => scrPrintByte build move.1 move.2)
        ++ call.run build s :: runVisits build (call.run build s) rest

/-- The cursor is on one of the 68 times 34 cells. -/
def Screen.InGrid (s : Screen) : Prop := s.gScr.x.toNat < mx ∧ s.gScr.y.toNat < my

/-- A character was drawn at a cell. -/
def Drawn.OnGrid (drawn : Drawn) : Prop :=
  ∃ cx < mx, ∃ cy < my, drawn.x = 7 * cx ∧ drawn.y = 8 * cy

/-- The block of 8 times 8 pixels of a character is inside the visible area. -/
def Drawn.Visible (drawn : Drawn) : Prop :=
  0 ≤ drawn.x ∧ drawn.x + 8 ≤ scrWidth ∧ 0 ≤ drawn.y ∧ drawn.y + 8 ≤ scrHeight

/-- A character at a cell is inside the visible area. -/
theorem Drawn.OnGrid.visible {drawn : Drawn} (onGrid : drawn.OnGrid) : drawn.Visible := by
  obtain ⟨cx, column, cy, line, x, y⟩ := onGrid
  simp only [mx, my, scrWidth, scrHeight, fontcharWidthPx, fontcharHeightPx] at column line
  refine ⟨?_, ?_, ?_, ?_⟩ <;> simp only [x, y, scrWidth, scrHeight] <;> omega

/-- The cursor is on the grid, and all characters were drawn on it. -/
structure Screen.Tidy (s : Screen) : Prop where
  cursor : s.InGrid
  drawn : ∀ d ∈ s.drawn, d.OnGrid

/-- Drawing a character changes the pixels only. -/
theorem scrPutchar_frame (build : ScrBuild) (s : Screen) (x y : Int) (fgcol : U32) (ch : Byte)
    : (scrPutchar build s x y fgcol ch).gScr = s.gScr
      ∧ (scrPutchar build s x y fgcol ch).gInit = s.gInit
      ∧ ∀ d ∈ (scrPutchar build s x y fgcol ch).drawn, d ∈ s.drawn ∨ d = ⟨x, y, ch⟩ := by
  have one (shift size : Nat) (fgcol bgcol : U32)
      : (drawcharWith shift size s x y fgcol bgcol ch).gScr = s.gScr
        ∧ (drawcharWith shift size s x y fgcol bgcol ch).gInit = s.gInit
        ∧ ∀ d ∈ (drawcharWith shift size s x y fgcol bgcol ch).drawn,
            d ∈ s.drawn ∨ d = ⟨x, y, ch⟩ := by
    unfold drawcharWith
    split
    · exact ⟨rfl, rfl, fun d member => Or.inl member⟩
    · exact ⟨rfl, rfl, fun d member => by simpa using member⟩
  unfold scrPutchar
  split
  · split
    · exact one 2 4 _ _
    · exact one 1 2 _ _
  · exact one 2 4 _ _

/-- So does clearing the line of the cursor, and it draws on the grid. -/
theorem scrClearline_frame (build : ScrBuild) (s : Screen) (y : Int)
    : (scrClearline build s y).gScr = s.gScr ∧ (scrClearline build s y).gInit = s.gInit
      ∧ (s.gScr.y.toNat < my → ∀ d ∈ (scrClearline build s y).drawn, d ∈ s.drawn ∨ d.OnGrid) := by
  unfold scrClearline
  split
  · exact ⟨rfl, rfl, fun _ d member => Or.inl member⟩
  · split
    · exact ⟨rfl, rfl, fun _ d member => Or.inl member⟩
    · refine List.foldlRecOn (motive := fun t : Screen => t.gScr = s.gScr ∧ t.gInit = s.gInit
        ∧ (s.gScr.y.toNat < my → ∀ d ∈ t.drawn, d ∈ s.drawn ∨ d.OnGrid)) (List.range mx) _
        ⟨rfl, rfl, fun _ d member => Or.inl member⟩ ?_
      intro t ⟨scr, init, onGrid⟩ i column
      obtain ⟨scr', init', one⟩ :=
        scrPutchar_frame build t (i * 7) (t.gScr.y.toNat * 8) t.gScr.bgcol 219
      refine ⟨scr'.trans scr, init'.trans init, fun line d member => ?_⟩
      rcases one d member with before | rfl
      · exact onGrid line d before
      · refine Or.inr ⟨i, List.mem_range.mp column, s.gScr.y.toNat, line, ?_, ?_⟩
        · exact Int.mul_comm _ _
        · rw [scr]
          exact Int.mul_comm _ _

/-- What drawing at the cursor does. -/
theorem putNext_frame (build : ScrBuild) (s : Screen) (ch : Byte)
    : (putNext build s ch).gScr = { s.gScr with x := s.gScr.x + 1 }
      ∧ (putNext build s ch).gInit = s.gInit
      ∧ (s.Tidy → ∀ d ∈ (putNext build s ch).drawn, d.OnGrid) := by
  obtain ⟨scr, init, one⟩ :=
    scrPutchar_frame build s (s.gScr.x.toNat * 7) (s.gScr.y.toNat * 8) s.gScr.fgcol ch
  refine ⟨by simp only [putNext, scr], init, fun tidy d member => ?_⟩
  rcases one d member with before | rfl
  · exact tidy.drawn d before
  · exact ⟨s.gScr.x.toNat, tidy.cursor.1, s.gScr.y.toNat, tidy.cursor.2, Int.mul_comm _ _,
      Int.mul_comm _ _⟩

/-- The next line is a line of the grid. -/
theorem nextLine_inGrid {scr : DebugScr} (line : scr.y.toNat < my)
    : scr.nextLine.x.toNat < mx ∧ scr.nextLine.y.toNat < my := by
  have next : (scr.y + 1).toNat = scr.y.toNat + 1 := by
    simp only [my, scrHeight, fontcharHeightPx] at line
    bv_omega
  have first : (0 : U16).toNat < mx := by decide
  refine ⟨first, ?_⟩
  simp only [DebugScr.nextLine]
  split
  · decide
  · omega

/-- What a line advance does. -/
theorem advanceLine_frame (build : ScrBuild) (s : Screen)
    : (advanceLine build s).gScr = s.gScr.nextLine ∧ (advanceLine build s).gInit = s.gInit
      ∧ (s.gScr.y.toNat < my → ∀ d ∈ (advanceLine build s).drawn, d ∈ s.drawn ∨ d.OnGrid) := by
  obtain ⟨scr, init, onGrid⟩ :=
    scrClearline_frame build { s with gScr := s.gScr.nextLine } s.gScr.nextLine.y.toNat
  exact ⟨scr, init, fun line => onGrid (nextLine_inGrid line).2⟩

/-- Advancing the line keeps the screen tidy, wherever in its line the cursor is. -/
theorem advanceLine_tidy {build : ScrBuild} {s : Screen} (line : s.gScr.y.toNat < my)
    (drawn : ∀ d ∈ s.drawn, d.OnGrid)
    : (advanceLine build s).Tidy := by
  obtain ⟨scr, _, onGrid⟩ := advanceLine_frame build s
  refine ⟨?_, fun d member => (onGrid line d member).elim (drawn d) id⟩
  rw [Screen.InGrid, scr]
  exact nextLine_inGrid line

/-- The cursor stays on the grid if there is a cell to its right. -/
theorem Screen.Tidy.putNext (build : ScrBuild) {s : Screen} (tidy : s.Tidy) (ch : Byte)
    (room : s.gScr.x.toNat + 1 < mx)
    : (putNext build s ch).Tidy
      ∧ (LibKprintf.putNext build s ch).gScr.x.toNat = s.gScr.x.toNat + 1 := by
  obtain ⟨scr, _, onGrid⟩ := putNext_frame build s ch
  have next : (s.gScr.x + 1).toNat = s.gScr.x.toNat + 1 := by
    simp only [mx, scrWidth, fontcharWidthPx] at room
    bv_omega
  refine ⟨⟨?_, onGrid tidy⟩, by rw [scr]; exact next⟩
  rw [Screen.InGrid, scr]
  exact ⟨by rw [next]; exact room, tidy.cursor.2⟩

/-- A tab moves the cursor by four cells. -/
theorem tab_x (build : ScrBuild) (s : Screen)
    : (scrPrintByte build s 0x09).gScr.x = s.gScr.x + 4 := by
  have four : scrPrintByte build s 0x09
      = putNext build (putNext build (putNext build (putNext build s 0x20) 0x20) 0x20) 0x20 := rfl
  rw [four]
  simp only [(putNext_frame build _ _).1, BitVec.add_assoc]
  rfl

/-- Every byte keeps the screen tidy, except a tab that passes the end of the line. -/
theorem Screen.Tidy.printByte {build : ScrBuild} {s : Screen} (tidy : s.Tidy) (c : Byte)
    (fits : c = 0x09 → s.gScr.x.toNat + 4 < mx)
    : (scrPrintByte build s c).Tidy := by
  by_cases return' : c = 0x0D
  · rw [scrPrintByte, if_pos return']
    have first : (0 : U16).toNat < mx := by decide
    exact ⟨⟨first, tidy.cursor.2⟩, tidy.drawn⟩
  by_cases newline : c = 0x0A
  · rw [scrPrintByte, if_neg return', if_pos newline]
    exact advanceLine_tidy tidy.cursor.2 tidy.drawn
  by_cases tab : c = 0x09
  · have room := fits tab
    rw [scrPrintByte, if_neg return', if_neg newline, if_pos tab]
    obtain ⟨one, x₁⟩ := tidy.putNext build 0x20 (by omega)
    obtain ⟨two, x₂⟩ := one.putNext build 0x20 (by omega)
    obtain ⟨three, x₃⟩ := two.putNext build 0x20 (by omega)
    exact (three.putNext build 0x20 (by omega)).1
  · rw [scrPrintByte, if_neg return', if_neg newline, if_neg tab]
    obtain ⟨scr, _, onGrid⟩ := putNext_frame build s c
    have column := tidy.cursor.1
    have next : (s.gScr.x + 1).toNat = s.gScr.x.toNat + 1 := by
      simp only [mx, scrWidth, fontcharWidthPx] at column
      bv_omega
    by_cases last : (LibKprintf.putNext build s c).gScr.x.toNat = mx
    · rw [if_pos last]
      have line : (LibKprintf.putNext build s c).gScr.y.toNat < my := by
        rw [scr]
        exact tidy.cursor.2
      exact advanceLine_tidy line (onGrid tidy)
    · rw [if_neg last]
      refine ⟨?_, onGrid tidy⟩
      rw [Screen.InGrid, scr]
      rw [scr] at last
      simp only [next] at last ⊢
      exact ⟨by omega, tidy.cursor.2⟩

/-- A byte keeps the screen tidy exactly if it is not a tab near the end of the line. -/
theorem Screen.Tidy.printByte_iff {build : ScrBuild} {s : Screen} (tidy : s.Tidy) (c : Byte)
    : (scrPrintByte build s c).Tidy ↔ (c = 0x09 → s.gScr.x.toNat + 4 < mx) := by
  refine ⟨fun after tab => ?_, tidy.printByte c⟩
  subst tab
  have column := tidy.cursor.1
  have reached := after.cursor.1
  rw [tab_x] at reached
  have next : (s.gScr.x + 4).toNat = s.gScr.x.toNat + 4 := by
    simp only [mx, scrWidth, fontcharWidthPx] at column
    bv_omega
  omega

/-- A byte does not undo the initialisation. -/
theorem scrPrintByte_gInit (build : ScrBuild) (s : Screen) (c : Byte)
    : (scrPrintByte build s c).gInit = s.gInit := by
  have next (s : Screen) (ch : Byte) : (putNext build s ch).gInit = s.gInit :=
    (putNext_frame build s ch).2.1
  have advance (s : Screen) : (advanceLine build s).gInit = s.gInit :=
    (advanceLine_frame build s).2.1
  unfold scrPrintByte
  split
  · rfl
  split
  · exact advance s
  split
  · exact List.foldlRecOn (motive := fun t : Screen => t.gInit = s.gInit) (List.range 4) _ rfl
      fun t same _ _ => (next t 0x20).trans same
  · show (if _ then _ else _ : Screen).gInit = _
    split
    · exact (advance _).trans (next s c)
    · exact next s c

/-- A text of several bytes does not undo it either. -/
theorem foldl_printByte_gInit (build : ScrBuild) (s : Screen) (text : List Byte)
    : (text.foldl (scrPrintByte build) s).gInit = s.gInit :=
  List.foldlRecOn (motive := fun t : Screen => t.gInit = s.gInit) text _ rfl
    fun t same c _ => (scrPrintByte_gInit build t c).trans same

/-- A text keeps the screen tidy byte by byte exactly if all its tabs fit, and is tidy then at
the end; by induction on the text.
-/
theorem Screen.Tidy.printMoves_iff {build : ScrBuild} {s : Screen} (tidy : s.Tidy)
    (text : List Byte)
    : ((∀ move ∈ printMoves build s text, (scrPrintByte build move.1 move.2).Tidy)
        ↔ ∀ move ∈ printMoves build s text, move.2 = 0x09 → move.1.gScr.x.toNat + 4 < mx)
      ∧ ((∀ move ∈ printMoves build s text, (scrPrintByte build move.1 move.2).Tidy) →
          (text.foldl (scrPrintByte build) s).Tidy) := by
  induction text generalizing s with
  | nil => exact ⟨by simp [printMoves], fun _ => tidy⟩
  | cons c rest ih =>
      simp only [printMoves, List.forall_mem_cons, List.foldl_cons]
      constructor
      · rw [tidy.printByte_iff c]
        exact and_congr_right fun fits => (ih (tidy.printByte c fits)).1
      · exact fun ⟨after, later⟩ => (ih after).2 later

/-- Whether a call prints. -/
def ScrCall.prints : ScrCall → Bool
  | .printdata _ | .puts _ | .putsl _ | .printf .. => true
  | _ => false

/-- A printing call passes its text to the loop of scr_printdata. -/
theorem ScrCall.run_prints (build : ScrBuild) (s : Screen) {call : ScrCall}
    (prints : call.prints = true)
    : call.run build s
      = if s.gInit = false then s else (call.text build).foldl (scrPrintByte build) s := by
  have data (s : Screen) (text : List Byte) : (scrPrintdata build s text).1
      = if s.gInit = false then s else text.foldl (scrPrintByte build) s := by
    unfold scrPrintdata
    split <;> rfl
  cases call with
  | printdata buf => exact data s buf
  | puts str => exact data s _
  | putsl str =>
      simp only [ScrCall.run, scrPutsl, scrPuts, ScrCall.text, data]
      by_cases before : s.gInit = false
      · simp [before]
      · simp [before, foldl_printByte_gInit, List.foldl_append]
  | printf len buf =>
      simp only [ScrCall.run, scrPrintf, ScrCall.text]
      by_cases error : len < 0
      · simp [error]
      by_cases long : len.toNat ≥ build.scrPrintfBufsz
      · simp [error, long]
      · simp only [data, error, long, or_self, if_false]
  | _ => contradiction

/-- Clearing the screen changes the pixels only. -/
theorem clearScreen_frame (build : ScrBuild) (s : Screen) (color : U32)
    : ∃ vram, clearScreen build s color = { s with vram := vram } := by
  unfold clearScreen
  split
  · split <;> exact ⟨_, rfl⟩
  · exact ⟨_, rfl⟩

/-- Which screen is cleared depends on the variables and the memory only. -/
theorem clearScreen_vram (build : ScrBuild) (s : Screen) (calls : List DisplayCall) (color : U32)
    : (clearScreen build { s with displayCalls := calls } color).vram
      = (clearScreen build s color).vram := by
  unfold clearScreen
  split
  · split <;> rfl
  · rfl

/-- The two ways out of scr_initex. -/
theorem scrInitex_cases (build : ScrBuild) (display : Display) (s : Screen) (vramBase : U32)
    (mode : Int) (flags : U32)
    : let scr := newDebugScr display vramBase mode flags
      let answer := displayAnswer display scr flags
      let calls := s.displayCalls ++ answer.2
      (answer.1 < 0 ∧ scrInitex build display s vramBase mode flags
          = ({ s with displayCalls := calls }, answer.1))
        ∨ (0 ≤ answer.1 ∧ scrInitex build display s vramBase mode flags
          = ({
              s with
              gInit := true
              gScr := scr
              displayCalls := calls
              vram := if flags &&& flagScrClear ≠ 0 then (clearScreen build s scr.bgcol).vram
                else s.vram
            }, 0)) := by
  intro scr answer calls
  by_cases fails : answer.1 < 0
  · exact Or.inl ⟨fails, if_pos fails⟩
  · refine Or.inr ⟨not_lt.mp fails, (if_neg fails).trans ?_⟩
    by_cases clears : flags &&& flagScrClear ≠ 0
    · obtain ⟨vram, cleared⟩ :=
        clearScreen_frame build { s with displayCalls := calls } scr.bgcol
      have same := clearScreen_vram build s calls scr.bgcol
      rw [cleared] at same
      simp only [if_pos clears, ← same]
      exact congrArg (fun t : Screen => ({ t with gInit := true, gScr := scr }, (0 : Int))) cleared
    · simp only [if_neg clears]
      rfl

/-- So it keeps the screen tidy. -/
theorem Screen.Tidy.clearScreen {build : ScrBuild} {s : Screen} (tidy : s.Tidy) (color : U32)
    : (clearScreen build s color).Tidy := by
  obtain ⟨vram, cleared⟩ := clearScreen_frame build s color
  rw [cleared]
  exact ⟨tidy.cursor, tidy.drawn⟩

/-- Clearing the line of the cursor keeps it tidy. -/
theorem Screen.Tidy.clearline {build : ScrBuild} {s : Screen} (tidy : s.Tidy) (y : Int)
    : (scrClearline build s y).Tidy := by
  obtain ⟨scr, _, onGrid⟩ := scrClearline_frame build s y
  refine ⟨?_, fun d member => (onGrid tidy.cursor.2 d member).elim (tidy.drawn d) id⟩
  rw [Screen.InGrid, scr]
  exact tidy.cursor

/-- Positioning the cursor keeps it on the grid. -/
theorem Screen.Tidy.setxy {s : Screen} (tidy : s.Tidy) (x y : U16)
    : (scrSetx s x).1.Tidy ∧ (scrSety s y).1.Tidy := by
  simp only [scrSetx, scrSety]
  constructor
  · split
    · rename_i column
      exact ⟨⟨column, tidy.cursor.2⟩, tidy.drawn⟩
    · exact tidy
  · split
    · rename_i line
      exact ⟨⟨tidy.cursor.1, line⟩, tidy.drawn⟩
    · exact tidy

/-- A call that does not print keeps the screen tidy. -/
theorem Screen.Tidy.run {build : ScrBuild} {s : Screen} (tidy : s.Tidy) {call : ScrCall}
    (silent : call.prints = false)
    : (call.run build s).Tidy := by
  cases call with
  | setx x => exact (tidy.setxy x 0).1
  | sety y => exact (tidy.setxy 0 y).2
  | setxy x y => exact ((tidy.setxy x y).1.setxy x y).2
  | clearline y => exact tidy.clearline y
  | clear =>
      simp only [ScrCall.run, scrClear]
      split
      · exact tidy
      · have lines : (clearLines build s).Tidy :=
          List.foldlRecOn (motive := Screen.Tidy) (List.range my) _ tidy
            fun t tidy y _ => tidy.clearline y
        have home : (scrSetxy (clearLines build s) 0 0).Tidy :=
          ((lines.setxy 0 0).1.setxy 0 0).2
        exact home.clearScreen _
  | initex display vramBase mode flags =>
      have first : (0 : U16).toNat < mx ∧ (0 : U16).toNat < my := by decide
      simp only [ScrCall.run]
      obtain ⟨_, result⟩ | ⟨_, result⟩ := scrInitex_cases build display s vramBase mode flags
      · rw [result]
        exact ⟨tidy.cursor, tidy.drawn⟩
      · rw [result]
        exact ⟨first, tidy.drawn⟩
  | _ => contradiction

/-- A sequence of calls keeps the screen tidy after every byte and every call exactly if all the
tabs that it prints fit; by induction on the calls.
-/
theorem Screen.Tidy.run_iff {build : ScrBuild} {s : Screen} (tidy : s.Tidy) (calls : List ScrCall)
    : (∀ t ∈ runVisits build s calls, t.Tidy)
      ↔ ∀ move ∈ runMoves build s calls, move.2 = 0x09 → move.1.gScr.x.toNat + 4 < mx := by
  induction calls generalizing s with
  | nil => simp [runVisits, runMoves]
  | cons call rest ih =>
      have one : ((∀ move ∈ call.moves build s, (scrPrintByte build move.1 move.2).Tidy)
            ↔ ∀ move ∈ call.moves build s, move.2 = 0x09 → move.1.gScr.x.toNat + 4 < mx)
          ∧ ((∀ move ∈ call.moves build s, (scrPrintByte build move.1 move.2).Tidy) →
              (call.run build s).Tidy) := by
        unfold ScrCall.moves
        by_cases before : s.gInit = false
        · rw [if_pos before]
          refine ⟨by simp, fun _ => ?_⟩
          cases prints : call.prints with
          | false => exact tidy.run prints
          | true =>
              rw [call.run_prints build s prints, if_pos before]
              exact tidy
        · rw [if_neg before]
          refine ⟨(tidy.printMoves_iff _).1, fun after => ?_⟩
          cases prints : call.prints with
          | false => exact tidy.run prints
          | true =>
              rw [call.run_prints build s prints, if_neg before]
              exact (tidy.printMoves_iff _).2 after
      obtain ⟨moves, ends⟩ := one
      simp only [runVisits, runMoves, List.forall_mem_append, List.forall_mem_cons,
        List.forall_mem_map]
      rw [← moves]
      refine and_congr_right fun after => ?_
      rw [ih (ends after)]
      exact and_iff_right (ends after)

/-- The freshly loaded screen is tidy. -/
theorem boot_tidy (vram : ByteMemory 32) : (Screen.boot vram).Tidy := by
  have first : (0 : U16).toNat < mx ∧ (0 : U16).toNat < my := by decide
  exact ⟨first, fun d member => absurd member List.not_mem_nil⟩

/-- In every sequence of calls the cursor is on the grid after every byte and every call, and every
character is drawn at a cell and inside the visible area, exactly if every tab that is printed
finds the cursor at least five cells before the end of its line.
-/
theorem cursor_in_grid (build : ScrBuild) (vram : ByteMemory 32) (calls : List ScrCall)
    : (∀ t ∈ runVisits build (.boot vram) calls,
          t.InGrid ∧ ∀ d ∈ t.drawn, d.OnGrid ∧ d.Visible)
      ↔ ∀ move ∈ runMoves build (.boot vram) calls,
          move.2 = 0x09 → move.1.gScr.x.toNat + 4 < mx := by
  rw [← (boot_tidy vram).run_iff calls]
  refine forall₂_congr fun t _ => ⟨fun ⟨cursor, drawn⟩ => ⟨cursor, fun d member => ?_⟩, ?_⟩
  · exact (drawn d member).1
  · exact fun ⟨cursor, drawn⟩ => ⟨cursor, fun d member => ⟨drawn d member, (drawn d member).visible⟩⟩

/-- A display whose calls all succeed. -/
def lcd : Display := ⟨0x04000000, 0, 0, 480, 272, 0, 0⟩

/-- The initialisation with the default flags, the cursor in column 65, and a tab. -/
def tabAtEnd : List ScrCall :=
  [.initex lcd 0 3 flagScrDefault, .setx 65, .printdata [0x09]]

/-- Counterexample: after the tab the cursor is in column 69. -/
theorem not_cursor_in_grid
    : ¬ ∀ (build : ScrBuild) (vram : ByteMemory 32) (calls : List ScrCall),
        ∀ t ∈ runVisits build (.boot vram) calls,
          t.InGrid ∧ ∀ d ∈ t.drawn, d.OnGrid ∧ d.Visible := by
  intro always
  have after := (always ⟨false, 512⟩ ⟨fun _ => 0, fun _ => false⟩ tabAtEnd _
    (List.mem_of_getElem? (i := 2) rfl)).1.1
  revert after
  decide

end LibKprintf
