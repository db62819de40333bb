import LibKprintf.Handlers.Calls
import LibKprintf.Queue.Delivery

/-! What the history records of the handlers: the pair registered in each slot, what the
registry functions have answered, and the callbacks that each message was passed to.
-/

namespace LibKprintf

open Foundation

/-- What an event says of the content of a slot. -/
def Event.tellsSlot (slot : Nat) : Event → Option (Option (Callback × U32))
  | .stored _ i cb arg => if i = slot then some (some (cb, arg)) else none
  | .cleared _ i => if i = slot then some none else none
  | _ => none

/-- The pair that the last registration stored in a slot, unless it was cleared since. -/
def registered (history : List Event) (slot : Nat) : Option (Callback × U32) :=
  (latest (Event.tellsSlot slot) history).join

/-- Only the events of the table say something of a slot. -/
theorem Event.tellsSlot_none {event : Event} (silent : event.ofTable = false) (slot : Nat)
    : event.tellsSlot slot = none := by
  cases event <;> first | rfl | contradiction

/-- Other events leave the registered pairs alone. -/
theorem registered_append {events : List Event} (history : List Event)
    (silent : ∀ event ∈ events, event.ofTable = false) (slot : Nat)
    : registered (history ++ events) slot = registered history slot := by
  rw [registered, latest_append_of_silent fun event member =>
    Event.tellsSlot_none (silent event member) slot]
  rfl

/-- A stored pair is registered in its slot. -/
theorem registered_stored (history : List Event) (thread : ThreadRef) (slot : Nat)
    (cb : Callback) (arg : U32)
    : registered (history ++ [.stored thread slot cb arg]) slot = some (cb, arg) := by
  rw [registered, latest_concat (a := some (cb, arg)) (by simp [Event.tellsSlot])]
  rfl

/-- A cleared slot has no pair. -/
theorem registered_cleared (history : List Event) (thread : ThreadRef) (slot : Nat)
    : registered (history ++ [.cleared thread slot]) slot = none := by
  rw [registered, latest_concat (a := none) (by simp [Event.tellsSlot])]
  rfl

/-- An event that is about another slot leaves the pair alone. -/
theorem registered_concat_of_silent {event : Event} (history : List Event) {slot : Nat}
    (silent : event.tellsSlot slot = none)
    : registered (history ++ [event]) slot = registered history slot := by
  rw [registered, latest_append_of_silent (List.forall_mem_singleton.mpr silent)]
  rfl

/-- The pair that a call registers. -/
def ApiCall.Registers (call : ApiCall) (cb : Callback) (arg : U32) : Prop :=
  match call with
  | .registerHandler cb' arg' => cb' = some cb ∧ arg' = arg
  | .registerDefaultHandler => cb = .defaultFileHandler
  | _ => False

/-- What a call of a registry function may answer: an index only if it has stored its pair
there, and 0 for an unregistration only if it has cleared its slot.
-/
structure Answers (history : List Event) (thread : ThreadRef) (call : ApiCall) (ret : Int)
    : Prop where
  stored
    : ∀ cb arg, call = .registerHandler (some cb) arg → 0 ≤ ret →
        ∃ slot : Nat, ret = slot ∧ Noted history thread call (.stored thread slot cb arg)
  cleared
    : ∀ index, call = .unregisterHandler index → ret = 0 →
        ∃ slot : Nat, index = slot ∧ Noted history thread call (.cleared thread slot)

/-- What a call may answer it may answer until the thread calls or returns. -/
theorem Answers.append {history history' events : List Event} {thread : ThreadRef}
    {call : ApiCall} {ret : Int} (answers : Answers history thread call ret)
    (grown : history' = history ++ events) (apart : ∀ event ∈ events, event.callOf ≠ some thread)
    : Answers history' thread call ret := by
  rw [grown]
  constructor
  · intro cb arg same index
    obtain ⟨slot, equal, noted⟩ := answers.stored cb arg same index
    exact ⟨slot, equal, noted.append apart⟩
  · intro index same zero
    obtain ⟨slot, equal, noted⟩ := answers.cleared index same zero
    exact ⟨slot, equal, noted.append apart⟩

/-- An error is an answer of every call. -/
theorem Answers.error {history : List Event} {thread : ThreadRef} {call : ApiCall} {ret : Int}
    (negative : ret < 0)
    : Answers history thread call ret :=
  ⟨fun _ _ _ index => absurd index (not_le.mpr negative),
    fun _ _ zero => absurd zero (Int.ne_of_lt negative)⟩

/-- A call that neither registers a client's pair nor unregisters may answer anything. -/
theorem Answers.other {history : List Event} {thread : ThreadRef} {call : ApiCall} {ret : Int}
    (other : call.ofRegistry = false ∨ call = .registerDefaultHandler)
    : Answers history thread call ret := by
  constructor
  · rintro cb arg rfl
    simp [ApiCall.ofRegistry] at other
  · rintro index rfl
    simp [ApiCall.ofRegistry] at other

/-- A registration may answer the slot it has stored its pair in. -/
theorem Answers.slot {history : List Event} {thread : ThreadRef} {call : ApiCall}
    {cb : Callback} {arg : U32} {slot : Nat} (registers : call.Registers cb arg)
    (noted : Noted history thread call (.stored thread slot cb arg))
    : Answers history thread call slot := by
  constructor
  · rintro cb' arg' rfl _
    obtain ⟨same, rfl⟩ := registers
    cases same
    exact ⟨slot, rfl, noted⟩
  · rintro index rfl
    exact registers.elim

/-- An unregistration may answer 0 once it has cleared its slot. -/
theorem Answers.unregistered {history : List Event} {thread : ThreadRef} {slot : Nat}
    (noted : Noted history thread (.unregisterHandler slot) (.cleared thread slot))
    : Answers history thread (.unregisterHandler slot) 0 := by
  refine ⟨by simp, ?_⟩
  rintro _ ⟨⟩ _
  exact ⟨slot, rfl, noted⟩

/-- What the history must look like before an event of the registry: a pair is stored by a
registration into a free slot, a slot is cleared by its unregistration, and a call answers
what it has done.
-/
def Event.Recorded (past : List Event) : Event → Prop
  | .stored thread slot cb arg =>
      registered past slot = none
        ∧ ∃ call, underWay past thread = some call ∧ call.Registers cb arg
  | .cleared thread slot => underWay past thread = some (.unregisterHandler slot)
  | .answered thread call ret => Answers past thread call ret
  | _ => True

/-- Of other events there is nothing to record. -/
theorem Event.Recorded.of_silent {event : Event}
    (silent : event.callOf = none ∧ event.ofTable = false) (past : List Event)
    : event.Recorded past := by
  obtain ⟨noCall, noTable⟩ := silent
  cases event <;> trivial

/-- Whether an event is the call of a slot's callback for a message. -/
def Event.invokedAt (stamp slot : Nat) : Event → Bool
  | .invoked other i _ _ => other = stamp && i = slot
  | _ => false

/-- The calls of a slot's callback for a message, in order. -/
def invocations (history : List Event) (stamp slot : Nat) : List Event :=
  history.filter (Event.invokedAt stamp slot)

/-- Other events are no calls of callbacks. -/
theorem invocations_append {events : List Event} (history : List Event) {stamp slot : Nat}
    (silent : ∀ event ∈ events, event.invokedAt stamp slot = false)
    : invocations (history ++ events) stamp slot = invocations history stamp slot := by
  have none : events.filter (Event.invokedAt stamp slot) = [] := by
    simpa [List.filter_eq_nil_iff] using silent
  simp [invocations, List.filter_append, none]

/-- A message has been passed to the pair registered in a slot, once, if there is one. -/
def PassedTo (history : List Event) (stamp slot : Nat) : Prop :=
  invocations history stamp slot
    = ((registered history slot).map (fun pair => .invoked stamp slot pair.1 pair.2)).toList

/-- A message has been passed to every slot, up to the first one that stopped it. -/
def PassedOn (history : List Event) (stamp : Nat) : Prop :=
  ∀ slot, PassedTo history stamp slot
    ∨ ∃ lower < slot, .returned stamp lower kprintfMsgStop ∈ history

/-- What the history must look like before an event of the dispatch: a callback is that of
the pair registered in its slot, and is called before the delivery ends; a delivery ends
when the message has been passed on.
-/
def Event.Dispatched (past : List Event) : Event → Prop
  | .invoked stamp slot cb arg =>
      registered past slot = some (cb, arg) ∧ .deliveryEnds stamp ∉ past
  | .deliveryEnds stamp => PassedOn past stamp
  | _ => True

end LibKprintf
