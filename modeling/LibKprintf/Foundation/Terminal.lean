import Mathlib.Data.Nat.ModEq
import Mathlib.Data.Fin.Basic

/-! A text terminal that does not scroll: behind its last line comes its first one, and a line is
cleared when it is entered. What it shows of a text are its last lines, as on a ring.
-/

namespace LibKprintf.Foundation

/-- A terminal of cells that are empty or have an ink in them. From the cursor on its line is empty.
-/
@[ext] structure Terminal (Ink : Type*) (columns lines : Nat) where
  column : Fin columns
  line : Fin lines
  cell : Fin columns → Fin lines → Option Ink
  ahead : ∀ c, column.val ≤ c.val → cell c line = none

/-- What may be typed. -/
inductive Key (Ink : Type*)
  | ink (i : Ink)
  | newline

/-- A text as it has been typed: its full lines, and the one that the cursor is on. -/
structure Written (Ink : Type*) where
  full : List (List Ink)
  last : List Ink

variable {Ink : Type*} {columns lines : Nat}

namespace Written

/-- Nothing has been typed. -/
def empty : Written Ink := ⟨[], []⟩

/-- All lines. -/
def all (w : Written Ink) : List (List Ink) := w.full ++ [w.last]

/-- One more key; a line ends with a newline, or when it is full. -/
def feed (columns : Nat) (w : Written Ink) : Key Ink → Written Ink
  | .ink i =>
      if w.last.length + 1 < columns then
        ⟨w.full, w.last ++ [i]⟩
      else
        ⟨w.full ++ [w.last ++ [i]], []⟩
  | .newline => ⟨w.full ++ [w.last], []⟩

/-- The lines of a text. -/
def type (columns : Nat) (keys : List (Key Ink)) : Written Ink := keys.foldl (feed columns) empty

/-- Line `k` is there, and none has come `lines` lines after it. -/
def Recent (lines : Nat) (w : Written Ink) (k : Nat) : Prop :=
  k ≤ w.full.length ∧ w.full.length < k + lines

end Written

namespace Terminal

/-- Nothing is on the terminal. -/
def blank [NeZero columns] [NeZero lines] : Terminal Ink columns lines where
  column := 0
  line := 0
  cell := fun _ _ => none
  ahead := fun _ _ => rfl

/-- The line after a line. -/
def lineAfter (l : Fin lines) : Fin lines :=
  ⟨(l + 1) % lines, Nat.mod_lt _ l.pos⟩

/-- Enter the line after a line. -/
def enter [NeZero columns] (l : Fin lines) (cell : Fin columns → Fin lines → Option Ink)
    : Terminal Ink columns lines where
  column := 0
  line := lineAfter l
  cell := fun c l' => if l' = lineAfter l then none else cell c l'
  ahead := fun _ _ => if_pos rfl

/-- The cells with an ink put at the cursor. -/
def inked (t : Terminal Ink columns lines) (i : Ink) (c : Fin columns) (l : Fin lines)
    : Option Ink :=
  if l = t.line ∧ c = t.column then some i else t.cell c l

/-- Put an ink, and move on. -/
def put [NeZero columns] (t : Terminal Ink columns lines) (i : Ink) : Terminal Ink columns lines :=
  if room : t.column.val + 1 < columns then
    {
      column := ⟨t.column + 1, room⟩
      line := t.line
      cell := t.inked i
      ahead := by
        intro c behind
        have after : t.column.val < c.val := Nat.lt_of_succ_le behind
        rw [inked, if_neg fun both => after.ne' (congrArg Fin.val both.2)]
        exact t.ahead c after.le
    }
  else
    enter t.line (t.inked i)

/-- One key. -/
def feed [NeZero columns] (t : Terminal Ink columns lines) : Key Ink → Terminal Ink columns lines
  | .ink i => t.put i
  | .newline => enter t.line t.cell

/-- A text. -/
def type [NeZero columns] (t : Terminal Ink columns lines) (keys : List (Key Ink))
    : Terminal Ink columns lines :=
  keys.foldl feed t

/-- The terminal shows the last lines of a text. -/
structure Shows (t : Terminal Ink columns lines) (w : Written Ink) : Prop where
  column : t.column.val = w.last.length
  line : t.line.val = w.full.length % lines
  recent
    : ∀ k, w.Recent lines k → ∀ c (l : Fin lines), l.val = k % lines →
        t.cell c l = w.all[k]?.bind (·[c.val]?)
  unused : ∀ l : Fin lines, w.full.length < l → ∀ c, t.cell c l = none

section Shows

variable {t : Terminal Ink columns lines} {w : Written Ink}

/-- Two of the last lines are at different places of the ring. -/
theorem mod_ne {j k n : Nat} (before : j < k) (near : k < j + n) : j % n ≠ k % n := by
  intro same
  have distance : k - j < n := by omega
  have divides := (Nat.modEq_iff_dvd' before.le).mp same
  exact absurd (Nat.le_of_dvd (by omega) divides) (by omega)

/-- Putting an ink on the line of the cursor puts it behind the last line. -/
theorem Shows.inked (shows : t.Shows w) (i : Ink) {k : Nat} (recent : w.Recent lines k)
    (c : Fin columns) {l : Fin lines} (place : l.val = k % lines)
    : t.inked i c l = (w.full ++ [w.last ++ [i]])[k]?.bind (·[c.val]?) := by
  obtain ⟨reached, near⟩ := recent
  have old := shows.recent k ⟨reached, near⟩ c l place
  rw [Terminal.inked]
  rcases Nat.lt_or_eq_of_le reached with before | rfl
  · have other : l ≠ t.line := fun same => mod_ne before near
      (by rw [← place, ← shows.line, same])
    rw [if_neg fun both => other both.1, old, Written.all, List.getElem?_append_left before,
      List.getElem?_append_left before]
  · have here : l = t.line := Fin.ext (place.trans shows.line.symm)
    simp only [Written.all, List.getElem?_concat_length, Option.bind_some] at old ⊢
    rw [old]
    by_cases cursor : c = t.column
    · subst cursor
      rw [if_pos ⟨here, rfl⟩, shows.column, List.getElem?_concat_length]
    · rw [if_neg fun both => cursor both.2]
      have apart : c.val ≠ w.last.length := fun same =>
        cursor (Fin.ext (same.trans shows.column.symm))
      rcases Nat.lt_or_gt_of_ne apart with left | right
      · rw [List.getElem?_append_left left]
      · rw [List.getElem?_eq_none (by omega), List.getElem?_eq_none (by simp; omega)]

/-- Entering the next line starts a new last line, where the last `lines` ones are as they should be
and the line of the cursor has become a full one.
-/
theorem Shows.enter [NeZero columns] {cell : Fin columns → Fin lines → Option Ink}
    {line : List Ink} (at_line : t.line.val = w.full.length % lines)
    (recent
      : ∀ k, w.Recent lines k → ∀ c (l : Fin lines), l.val = k % lines →
          cell c l = (w.full ++ [line])[k]?.bind (·[c.val]?))
    (unused : ∀ l : Fin lines, w.full.length < l → ∀ c, cell c l = none)
    : (Terminal.enter t.line cell).Shows ⟨w.full ++ [line], []⟩ where
  column := rfl
  line := by
    simp only [Terminal.enter, lineAfter, at_line, List.length_append, List.length_singleton]
    exact Nat.mod_add_mod _ _ _
  recent := by
    intro k later c l place
    have next : (lineAfter t.line).val = (w.full.length + 1) % lines := by
      simp only [lineAfter, at_line]
      exact Nat.mod_add_mod _ _ _
    obtain ⟨reached, near⟩ := later
    simp only [List.length_append, List.length_singleton] at reached near
    simp only [Terminal.enter, Written.all]
    rcases Nat.lt_or_eq_of_le reached with before | rfl
    · have other : l ≠ lineAfter t.line := fun same =>
        mod_ne before near (by rw [← place, ← next, same])
      have kept : (w.full ++ [line] ++ [[]])[k]? = (w.full ++ [line])[k]? :=
        List.getElem?_append_left (by simpa using before)
      rw [if_neg other, recent k ⟨by omega, by omega⟩ c l place, kept]
    · have new : (w.full ++ [line] ++ [[]])[w.full.length + 1]? = some [] := by simp
      rw [if_pos (Fin.ext (place.trans next.symm)), new]
      rfl
  unused := by
    intro l behind c
    simp only [Terminal.enter]
    split
    · rfl
    · exact unused l (by simp at behind; omega) c

/-- One key keeps the terminal and the text in step. -/
theorem Shows.feed [NeZero columns] (shows : t.Shows w) (key : Key Ink)
    : (t.feed key).Shows (w.feed columns key) := by
  cases key with
  | newline =>
      exact Shows.enter shows.line (fun k recent c l place => shows.recent k recent c l place)
        shows.unused
  | ink i =>
      have unused (l : Fin lines) (behind : w.full.length < l) (c : Fin columns)
          : t.inked i c l = none := by
        have other : l ≠ t.line := by
          rintro rfl
          have inside := t.line.isLt
          rw [shows.line] at behind inside
          exact absurd (Nat.mod_le _ _) (not_le.mpr behind)
        rw [Terminal.inked, if_neg fun both => other both.1]
        exact shows.unused l behind c
      simp only [Terminal.feed, Terminal.put, Written.feed, ← shows.column]
      split
      · refine ⟨by simp [shows.column], shows.line, ?_, unused⟩
        exact fun k recent c l place => shows.inked i recent c place
      · exact Shows.enter shows.line (fun k recent c l place => shows.inked i recent c place) unused

/-- A text on a blank terminal shows its last lines; by induction on the text. -/
theorem type_shows [NeZero columns] [NeZero lines] (keys : List (Key Ink))
    : (blank.type keys : Terminal Ink columns lines).Shows (Written.type columns keys) := by
  have fed (t : Terminal Ink columns lines) (w : Written Ink) (shows : t.Shows w)
      : (t.type keys).Shows (keys.foldl (Written.feed columns) w) := by
    induction keys generalizing t w with
    | nil => exact shows
    | cons key rest ih => exact ih _ _ (shows.feed key)
  refine fed blank .empty ⟨rfl, by simp [blank, Written.empty], ?_, fun _ _ _ => rfl⟩
  intro k recent c l place
  have first : k = 0 := Nat.le_zero.mp recent.1
  subst first
  rfl

end Shows

end Terminal

end LibKprintf.Foundation
