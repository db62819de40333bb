import Mathlib.Data.Finset.Card
import Mathlib.Data.Finset.Range
import Mathlib.Logic.Function.Basic

/-! Partial maps on a bounded range of slots, with at most one marked entry. New entries go
to the lowest free slot.
-/

namespace LibKprintf.Foundation

/-- A partial map from the slots below `bound`, each entry with a mark that at most one has. -/
structure SlotMap (bound : Nat) (α : Type*) where
  slot : Nat → Option (α × Bool)
  inside : ∀ i, bound ≤ i → slot i = none
  unique : ∀ i j a b, slot i = some (a, true) → slot j = some (b, true) → i = j

namespace SlotMap

variable {bound : Nat} {α : Type*}

/-- The map without entries. -/
def empty : SlotMap bound α where
  slot := fun _ => none
  inside := fun _ _ => rfl
  unique := by simp

variable (m : SlotMap bound α)

/-- The entry of a slot is the marked one. -/
def Marked (i : Nat) : Prop := ∃ a, m.slot i = some (a, true)

/-- Every slot has an entry. -/
def Full : Prop := ∀ i < bound, m.slot i ≠ none

/-- The lowest slot without an entry. -/
def lowestFree : Option Nat := (List.range bound).find? (fun i => (m.slot i).isNone)

/-- The slot of the marked entry. -/
def marked : Option Nat := (List.range bound).find? (fun i => (m.slot i).any Prod.snd)

/-- The number of entries. -/
def card : Nat := ((Finset.range bound).filter (fun i => (m.slot i).isSome)).card

variable {m} {i j : Nat} {a : α} {mark : Bool}

/-- A slot with an entry is below the bound. -/
theorem lt_of_used (used : m.slot i ≠ none) : i < bound := by
  by_contra beyond
  exact used (m.inside i (not_lt.mp beyond))

/-- The lowest free slot is free, and every slot below it is used. -/
theorem lowestFree_eq_some
    : m.lowestFree = some i ↔ i < bound ∧ m.slot i = none ∧ ∀ j < i, m.slot j ≠ none := by
  simp only [lowestFree, List.find?_range_eq_some, List.mem_range, Option.isNone_iff_eq_none,
    Bool.not_eq_true', Option.isNone_eq_false_iff, Option.isSome_iff_ne_none]
  exact ⟨fun ⟨free, within, lower⟩ => ⟨within, free, lower⟩,
    fun ⟨within, free, lower⟩ => ⟨free, within, lower⟩⟩

/-- A full map is one without a free slot. -/
theorem lowestFree_eq_none : m.lowestFree = none ↔ m.Full := by
  simp [lowestFree, Full]

/-- Whether an entry is marked can be read off it. -/
theorem any_snd_iff : (m.slot i).any Prod.snd = true ↔ m.Marked i := by
  rw [Option.any_eq_true]
  constructor
  · rintro ⟨⟨a, mark⟩, held, rfl⟩
    exact ⟨a, held⟩
  · intro ⟨a, held⟩
    exact ⟨(a, true), held, rfl⟩

/-- The search finds the marked entry, because there is no other. -/
theorem marked_eq_some : m.marked = some i ↔ m.Marked i := by
  simp only [marked, List.find?_range_eq_some, List.mem_range, any_snd_iff, Bool.not_eq_true']
  constructor
  · exact fun found => found.1
  · intro ⟨a, held⟩
    have used : m.slot i ≠ none := by simp [held]
    refine ⟨⟨a, held⟩, lt_of_used used, fun j lower => ?_⟩
    by_contra other
    obtain ⟨b, held'⟩ := any_snd_iff.mp (by simpa using other)
    exact Nat.ne_of_lt lower (m.unique j i b a held' held)

/-- Without a marked entry the search finds nothing. -/
theorem marked_eq_none : m.marked = none ↔ ∀ i, ¬ m.Marked i := by
  constructor
  · intro none i marks
    simp [marked_eq_some.mpr marks] at none
  · intro nobody
    cases found : m.marked with
    | none => rfl
    | some i => exact absurd (marked_eq_some.mp found) (nobody i)

/-- There are at most as many entries as slots. -/
theorem card_le : m.card ≤ bound := by
  simpa [card] using Finset.card_filter_le (Finset.range bound) (fun i => (m.slot i).isSome)

/-- A map is full exactly when it has an entry for every slot. -/
theorem card_eq_bound : m.card = bound ↔ m.Full := by
  have all := Finset.card_filter_eq_iff (s := Finset.range bound) (p := fun i => (m.slot i).isSome)
  simpa [card, Full, Option.isSome_iff_ne_none] using all

/-- Put an entry into a slot; it may be marked if no other is. -/
def put (m : SlotMap bound α) (i : Nat) (a : α) (mark : Bool) (within : i < bound)
    (single : mark = true → m.marked = none)
    : SlotMap bound α where
  slot := Function.update m.slot i (some (a, mark))
  inside := fun j beyond => by
    rw [Function.update_of_ne (Nat.ne_of_gt (Nat.lt_of_lt_of_le within beyond))]
    exact m.inside j beyond
  unique := by
    intro j k b c first second
    have nobody (set : mark = true) (l : Nat) (d : α) : m.slot l ≠ some (d, true) := by
      intro held
      exact marked_eq_none.mp (single set) l ⟨d, held⟩
    by_cases here : j = i <;> by_cases there : k = i
    · rw [here, there]
    · subst here
      simp only [Function.update_self, Option.some.injEq, Prod.mk.injEq] at first
      rw [Function.update_of_ne there] at second
      exact absurd second (nobody first.2 k c)
    · subst there
      simp only [Function.update_self, Option.some.injEq, Prod.mk.injEq] at second
      rw [Function.update_of_ne here] at first
      exact absurd first (nobody second.2 j b)
    · rw [Function.update_of_ne here] at first
      rw [Function.update_of_ne there] at second
      exact m.unique j k b c first second

/-- Remove the entry of a slot. -/
def erase (m : SlotMap bound α) (i : Nat) : SlotMap bound α where
  slot := Function.update m.slot i none
  inside := fun j beyond => by
    by_cases same : j = i
    · simp [same]
    · simpa [same] using m.inside j beyond
  unique := by
    intro j k b c first second
    have kept (l : Nat) (d : α) (held : Function.update m.slot i none l = some (d, true)) :
        m.slot l = some (d, true) := by
      by_cases same : l = i
      · simp [same] at held
      · simpa [same] using held
    exact m.unique j k b c (kept j b first) (kept k c second)

variable {within : i < bound} {single : mark = true → m.marked = none}

/-- An entry that is put stands in its slot, and the others stay. -/
theorem put_slot (j : Nat)
    : (m.put i a mark within single).slot j = if j = i then some (a, mark) else m.slot j := by
  simp [put, Function.update_apply]

/-- An erased slot is free, and the others stay. -/
theorem erase_slot (j : Nat) : (m.erase i).slot j = if j = i then none else m.slot j := by
  simp [erase, Function.update_apply]

/-- Putting an entry into a free slot adds one. -/
theorem card_put (free : m.slot i = none) : (m.put i a mark within single).card = m.card + 1 := by
  have grown : (Finset.range bound).filter
        (fun j => ((m.put i a mark within single).slot j).isSome)
      = insert i ((Finset.range bound).filter (fun j => (m.slot j).isSome)) := by
    ext j
    by_cases same : j = i
    · subst same
      simp [put_slot, within]
    · simp [put_slot, same]
  rw [card, grown, Finset.card_insert_of_notMem (by simp [free])]
  rfl

/-- Removing an entry takes one away. -/
theorem card_erase (used : m.slot i ≠ none) : (m.erase i).card + 1 = m.card := by
  have shrunk : (Finset.range bound).filter (fun j => ((m.erase i).slot j).isSome)
      = ((Finset.range bound).filter (fun j => (m.slot j).isSome)).erase i := by
    ext j
    by_cases same : j = i
    · subst same
      simp [erase_slot]
    · simp [erase_slot, same]
  rw [card, shrunk]
  refine Finset.card_erase_add_one ?_
  simpa [Option.isSome_iff_ne_none, used] using lt_of_used used

/-- The entry that is put is the marked one, if it is marked. -/
theorem marked_put_mark (set : mark = true) : (m.put i a mark within single).marked = some i := by
  refine marked_eq_some.mpr ⟨a, ?_⟩
  simp [put_slot, set]

/-- An entry without a mark that is put into a free slot leaves the marked one. -/
theorem marked_put_plain (unset : mark = false) (free : m.slot i = none)
    : (m.put i a mark within single).marked = m.marked := by
  refine Option.ext fun j => ?_
  rw [marked_eq_some, marked_eq_some]
  by_cases same : j = i
  · subst same
    simp [Marked, put_slot, unset, free]
  · simp [Marked, put_slot, same]

/-- Removing the marked entry leaves none, and removing another one leaves it. -/
theorem marked_erase : (m.erase i).marked = if m.marked = some i then none else m.marked := by
  split
  · rename_i found
    obtain ⟨a, held⟩ := marked_eq_some.mp found
    refine marked_eq_none.mpr fun j => ?_
    intro ⟨b, held'⟩
    rw [erase_slot] at held'
    split at held'
    · contradiction
    · rename_i other
      exact other (m.unique j i b a held' held)
  · rename_i missed
    refine Option.ext fun j => ?_
    rw [marked_eq_some, marked_eq_some]
    by_cases same : j = i
    · subst same
      rw [marked_eq_some] at missed
      simp [Marked, erase_slot] at missed ⊢
      exact missed
    · simp [Marked, erase_slot, same]

end SlotMap

end LibKprintf.Foundation
