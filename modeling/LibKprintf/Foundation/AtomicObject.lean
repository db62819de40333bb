import Mathlib.Data.List.Infix
import Mathlib.Logic.Function.Basic

/-! Objects that many callers use at the same time. A sequential object says what its calls mean
one after the other. Its atomic runs let every call take effect at one moment between its
invocation and its response, and the order of these moments linearizes the calls.
-/

namespace LibKprintf.Foundation

/-- An object for one caller: its first value, how a call may go and what it then makes of a value,
and what it answers.
-/
structure SequentialObject (Value Call Outcome Ret : Type*) where
  init : Value
  may : Value → Call → Outcome → Value → Prop
  answer : Outcome → Ret

/-- A call begins, or it returns with a result. -/
inductive CallEvent (Caller Call Ret : Type*)
  | invoke (caller : Caller) (call : Call)
  | respond (caller : Caller) (call : Call) (ret : Ret)
  deriving DecidableEq

/-- Where a caller is: in no call, in a call that has not taken effect, or in one that has. -/
inductive Phase (Call Ret : Type*)
  | idle
  | waiting (call : Call)
  | decided (call : Call) (ret : Ret)

variable {Caller Value Call Outcome Ret : Type*}

-----------------------------------------------------------------------------------------
-- Linearizations
-----------------------------------------------------------------------------------------

/-- Calls with their outcomes, one after the other, from the first value to a last one. -/
inductive SequentialObject.Serves (obj : SequentialObject Value Call Outcome Ret)
    : List (Caller × Call × Outcome) → Value → Prop
  | nil : obj.Serves [] obj.init
  | concat {order value value' caller call outcome} (earlier : obj.Serves order value)
    (may : obj.may value call outcome value')
    : obj.Serves (order ++ [(caller, call, outcome)]) value'

/-- The calls with their answers. -/
def SequentialObject.answers (obj : SequentialObject Value Call Outcome Ret)
    (order : List (Caller × Call × Outcome))
    : List (Caller × Call × Ret) :=
  order.map fun (caller, call, outcome) => (caller, call, obj.answer outcome)

/-- An invariant of the values: what the first one has and every call keeps, the last one has; by
induction on the calls.
-/
theorem SequentialObject.Serves.invariant {obj : SequentialObject Value Call Outcome Ret}
    {P : Value → Prop} {order : List (Caller × Call × Outcome)} {value : Value}
    (serves : obj.Serves order value) (start : P obj.init)
    (step
      : ∀ caller call outcome value value', (caller, call, outcome) ∈ order → P value →
          obj.may value call outcome value' → P value')
    : P value := by
  induction serves with
  | nil => exact start
  | concat _ may ih =>
      refine step _ _ _ _ _ (List.mem_append_right _ List.mem_cons_self) (ih ?_) may
      exact fun caller call outcome value value' member =>
        step caller call outcome value value' (List.mem_append_left _ member)

section Projections

variable [DecidableEq Caller]

/-- The calls of a caller in an order of calls. -/
def callsOf (caller : Caller) (order : List (Caller × Call × Ret)) : List (Call × Ret) :=
  order.filterMap fun (other, done) => if other = caller then some done else none

/-- The calls that a caller has begun. -/
def begun (caller : Caller) (trace : List (CallEvent Caller Call Ret)) : List Call :=
  trace.filterMap fun
    | .invoke other call => if other = caller then some call else none
    | .respond .. => none

/-- The calls that have returned to a caller, with their results. -/
def returned (caller : Caller) (trace : List (CallEvent Caller Call Ret)) : List (Call × Ret) :=
  trace.filterMap fun
    | .invoke .. => none
    | .respond other call ret => if other = caller then some (call, ret) else none

/-- The order linearizes the calls of a trace: at every moment the calls of a first part of it have
taken effect, among them all that have returned, with their results, and only such that have begun.
-/
def Linearizes (order : List (Caller × Call × Ret)) (trace : List (CallEvent Caller Call Ret))
    : Prop :=
  ∀ past, past <+: trace → ∃ done, done <+: order
    ∧ ∀ caller, returned caller past <+: callsOf caller done
        ∧ (callsOf caller done).map Prod.fst <+: begun caller past

end Projections

-----------------------------------------------------------------------------------------
-- Atomic runs
-----------------------------------------------------------------------------------------

section Runs

variable [DecidableEq Caller]

/-- A run of an atomic object: what has happened, in which order the calls have taken effect, where
the callers are, and the value.
-/
inductive SequentialObject.AtomicRun (obj : SequentialObject Value Call Outcome Ret)
    : List (CallEvent Caller Call Ret) → List (Caller × Call × Outcome) →
        (Caller → Phase Call Ret) → Value → Prop
  | init : obj.AtomicRun [] [] (fun _ => .idle) obj.init
  | invoke {trace order phase value caller call}
    (earlier : obj.AtomicRun trace order phase value) (idle : phase caller = .idle)
    : obj.AtomicRun (trace ++ [.invoke caller call]) order
        (Function.update phase caller (.waiting call)) value
  | effect {trace order phase value value' caller call outcome}
    (earlier : obj.AtomicRun trace order phase value) (waits : phase caller = .waiting call)
    (may : obj.may value call outcome value')
    : obj.AtomicRun trace (order ++ [(caller, call, outcome)])
        (Function.update phase caller (.decided call (obj.answer outcome))) value'
  | respond {trace order phase value caller call ret}
    (earlier : obj.AtomicRun trace order phase value) (decided : phase caller = .decided call ret)
    : obj.AtomicRun (trace ++ [.respond caller call ret]) order
        (Function.update phase caller .idle) value

variable {obj : SequentialObject Value Call Outcome Ret}
variable {trace : List (CallEvent Caller Call Ret)} {order : List (Caller × Call × Outcome)}
variable {phase : Caller → Phase Call Ret} {value : Value}

/-- The calls take effect as the object serves them. -/
theorem SequentialObject.AtomicRun.serves (run : obj.AtomicRun trace order phase value)
    : obj.Serves order value := by
  induction run with
  | init => exact .nil
  | invoke _ _ ih | respond _ _ ih => exact ih
  | effect _ _ may ih => exact ih.concat may

/-- The calls of a caller are in agreement with where it is: the last one that has begun may not
have taken effect yet, and the last one that has may not have returned.
-/
def Phase.Agrees (phase : Phase Call Ret) (begun : List Call) (done returned : List (Call × Ret))
    : Prop :=
  match phase with
  | .idle => done = returned ∧ begun = done.map Prod.fst
  | .waiting call => done = returned ∧ begun = done.map Prod.fst ++ [call]
  | .decided call ret => done = returned ++ [(call, ret)] ∧ begun = done.map Prod.fst

/-- Each caller is where its calls say; by induction on the run. -/
theorem SequentialObject.AtomicRun.agrees (run : obj.AtomicRun trace order phase value)
    (caller : Caller)
    : (phase caller).Agrees (begun caller trace) (callsOf caller (obj.answers order))
        (returned caller trace) := by
  induction run with
  | init => exact ⟨rfl, rfl⟩
  | @invoke _ _ _ _ other call _ idle ih =>
      by_cases same : other = caller
      · subst same
        rw [idle] at ih
        simpa [Phase.Agrees, begun, returned] using ih
      · simpa [Function.update_of_ne (Ne.symm same), begun, returned, same] using ih
  | @effect _ _ _ _ _ other call outcome _ waits _ ih =>
      by_cases same : other = caller
      · subst same
        rw [waits] at ih
        simpa [Phase.Agrees, callsOf, answers] using ih
      · simpa [Function.update_of_ne (Ne.symm same), callsOf, answers, same] using ih
  | @respond _ _ _ _ other call ret _ decided ih =>
      by_cases same : other = caller
      · subst same
        rw [decided] at ih
        simpa [Phase.Agrees, begun, returned] using ih
      · simpa [Function.update_of_ne (Ne.symm same), begun, returned, same] using ih

/-- Wherever a caller is, what has returned has taken effect, and what has taken effect has begun. -/
theorem Phase.Agrees.between {phase : Phase Call Ret} {begun : List Call}
    {done returned : List (Call × Ret)} (agrees : phase.Agrees begun done returned)
    : returned <+: done ∧ done.map Prod.fst <+: begun := by
  cases phase with
  | idle =>
      obtain ⟨rfl, rfl⟩ := agrees
      exact ⟨List.prefix_rfl, List.prefix_rfl⟩
  | waiting call =>
      obtain ⟨rfl, rfl⟩ := agrees
      exact ⟨List.prefix_rfl, List.prefix_append _ _⟩
  | decided call ret =>
      obtain ⟨rfl, rfl⟩ := agrees
      exact ⟨List.prefix_append _ _, List.prefix_rfl⟩

/-- At the moment of a run the whole order has taken effect. -/
theorem SequentialObject.AtomicRun.now (run : obj.AtomicRun trace order phase value)
    : ∀ caller, returned caller trace <+: callsOf caller (obj.answers order)
        ∧ (callsOf caller (obj.answers order)).map Prod.fst <+: begun caller trace :=
  fun caller => (run.agrees caller).between

/-- The order of the effects linearizes the calls; by induction on the run. -/
theorem SequentialObject.AtomicRun.linearizes (run : obj.AtomicRun trace order phase value)
    : Linearizes (obj.answers order) trace := by
  have grown {trace : List (CallEvent Caller Call Ret)} {event : CallEvent Caller Call Ret}
      {order : List (Caller × Call × Ret)} (earlier : Linearizes order trace)
      (now : ∀ caller, returned caller (trace ++ [event]) <+: callsOf caller order
        ∧ (callsOf caller order).map Prod.fst <+: begun caller (trace ++ [event]))
      : Linearizes order (trace ++ [event]) := by
    intro past before
    rcases List.prefix_concat_iff.mp before with rfl | inner
    · exact ⟨order, List.prefix_rfl, now⟩
    · exact earlier past inner
  induction run with
  | init =>
      intro past before
      obtain rfl := List.prefix_nil.mp before
      exact ⟨[], List.prefix_rfl, fun _ => ⟨List.prefix_rfl, List.prefix_rfl⟩⟩
  | invoke earlier idle ih => exact grown ih (earlier.invoke idle).now
  | respond earlier decided ih => exact grown ih (earlier.respond decided).now
  | effect earlier waits may ih =>
      intro past before
      obtain ⟨done, part, between⟩ := ih past before
      refine ⟨done, part.trans ?_, between⟩
      rw [answers, answers, List.map_append]
      exact List.prefix_append _ _

end Runs

end LibKprintf.Foundation
