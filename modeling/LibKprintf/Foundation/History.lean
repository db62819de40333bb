import Mathlib.Data.List.Infix

/-! Past-time properties of a growing history of events.
A property says, for every event of the history, what the events before it must look like.
-/

namespace LibKprintf.Foundation

variable {Event : Type*}

/-- Every event of the history stands in relation `Φ` to the events before it. -/
def Always (Φ : List Event → Event → Prop) (history : List Event) : Prop :=
  ∀ past event, past ++ [event] <+: history → Φ past event

/-- The empty history satisfies every past-time property. -/
theorem Always.nil {Φ : List Event → Event → Prop} : Always Φ [] := by
  intro past event prefixed
  have := List.prefix_nil.mp prefixed
  simp at this

/-- A prefix of a history inherits its past-time properties. -/
theorem Always.of_prefix {Φ : List Event → Event → Prop} {early late : List Event}
    (always : Always Φ late) (prefixed : early <+: late)
    : Always Φ early :=
  fun past event inner => always past event (inner.trans prefixed)

/-- One more event keeps a past-time property exactly when the event satisfies it.
This is the step rule of every history invariant below.
-/
theorem always_concat {Φ : List Event → Event → Prop} {history : List Event} {event : Event}
    : Always Φ (history ++ [event]) ↔ Always Φ history ∧ Φ history event := by
  constructor
  · intro always
    exact ⟨always.of_prefix (List.prefix_append _ _), always _ _ (List.prefix_refl _)⟩
  · intro ⟨always, last⟩ past event' prefixed
    rcases List.prefix_concat_iff.mp prefixed with same | inner
    · obtain ⟨rfl, rfl⟩ : past = history ∧ event' = event := by simpa using same
      exact last
    · exact always past event' inner

/-- Events that satisfy a property whatever was before them keep it. -/
theorem Always.append {Φ : List Event → Event → Prop} {history later : List Event}
    (always : Always Φ history) (harmless : ∀ past, ∀ event ∈ later, Φ past event)
    : Always Φ (history ++ later) := by
  induction later using List.reverseRecOn with
  | nil => simpa using always
  | append_singleton later event ih =>
      rw [← List.append_assoc, always_concat]
      refine ⟨ih fun past other member => ?_, harmless _ event (by simp)⟩
      exact harmless past other (List.mem_append_left _ member)

section Latest

variable {α : Type*} {tells : Event → Option α} {history later : List Event} {event : Event}
variable {a : α}

/-- The value told by the last event of the history that tells one. -/
def latest (tells : Event → Option α) (history : List Event) : Option α :=
  (history.filterMap tells).getLast?

/-- Silent events do not change the last value. -/
theorem latest_append_of_silent (silent : ∀ event ∈ later, tells event = none)
    : latest tells (history ++ later) = latest tells history := by
  have none : later.filterMap tells = [] := List.filterMap_eq_nil_iff.mpr silent
  simp [latest, List.filterMap_append, none]

/-- An event that tells a value makes it the last one. -/
theorem latest_concat (told : tells event = some a)
    : latest tells (history ++ [event]) = some a := by
  simp [latest, List.filterMap_append, told]

/-- The last value is told by some event, and every later one is silent; by induction from
the end of the history.
-/
theorem latest_split (last : latest tells history = some a)
    : ∃ early event late, history = early ++ event :: late ∧ tells event = some a
        ∧ ∀ other ∈ late, tells other = none := by
  induction history using List.reverseRecOn with
  | nil => simp [latest] at last
  | append_singleton history event ih =>
      cases told : tells event with
      | none =>
          rw [latest_append_of_silent (List.forall_mem_singleton.mpr told)] at last
          obtain ⟨early, teller, late, rfl, tellsIt, silent⟩ := ih last
          refine ⟨early, teller, late ++ [event], by simp, tellsIt, fun other member => ?_⟩
          rcases List.mem_append.mp member with before | now
          · exact silent other before
          · rw [List.mem_singleton.mp now, told]
      | some b =>
          rw [latest_concat told] at last
          cases last
          exact ⟨history, event, [], rfl, told, by simp⟩

/-- An empty history has no last value. -/
theorem latest_nil (tells : Event → Option α) : latest tells [] = none := rfl

/-- The first event tells the last value if no later one tells any. -/
theorem latest_cons (tells : Event → Option α) (event : Event) (later : List Event)
    : latest tells (event :: later) = (latest tells later).or (tells event) := by
  cases told : tells event <;> simp [latest, told, List.getLast?_cons]

/-- No event tells a value. -/
theorem latest_eq_none : latest tells history = none ↔ ∀ event ∈ history, tells event = none := by
  rw [latest, List.getLast?_eq_none_iff, List.filterMap_eq_nil_iff]

/-- Events that tell the same in two ways have the same last value. -/
theorem latest_congr {tells' : Event → Option α}
    (same : ∀ event ∈ history, tells event = tells' event)
    : latest tells history = latest tells' history :=
  congrArg List.getLast? (List.filterMap_congr same)

/-- The last value of a function of the values. -/
theorem latest_map {β : Type*} (value : α → β) (tells : Event → Option α) (history : List Event)
    : latest (fun event => (tells event).map value) history
      = (latest tells history).map value := by
  rw [latest, latest, ← List.map_filterMap, List.getLast?_map]

/-- If the last value is among those that a function keeps, it is the last one of these. -/
theorem latest_of_bind {β : Type*} {keep : α → Option β} {b : β}
    (last : latest tells history = some a) (kept : keep a = some b)
    : latest (fun event => (tells event).bind keep) history = some b := by
  obtain ⟨early, event, late, rfl, told, silent⟩ := latest_split last
  have later : ∀ other ∈ late, (tells other).bind keep = none := fun other member => by
    rw [silent other member]
    rfl
  rw [List.append_cons, latest_append_of_silent later]
  exact latest_concat (by rw [told]; exact kept)

end Latest

end LibKprintf.Foundation
