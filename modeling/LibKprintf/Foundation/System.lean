import Mathlib.Logic.Relation

/-! Guarded runs of a machine whose environment picks every action.
The step is a partial function, so a concrete run is evaluated and an arbitrary one is
reasoned about through its reflexive-transitive closure.
-/

namespace LibKprintf.Foundation

/-- A machine: where it starts, and what one action of the environment does to a state.
The step answers `none` when the action is not enabled.
-/
structure System (State Action : Type*) where
  init : State
  step : State → Action → Option State

namespace System

variable {State Action : Type*} (sys : System State Action)
variable (guard : State → Action → Prop)

/-- One enabled step whose action the guard allows in the state before it. -/
def Step (s t : State) : Prop :=
  ∃ a, guard s a ∧ sys.step s a = some t

/-- Finitely many guarded steps. -/
abbrev Path : State → State → Prop :=
  Relation.ReflTransGen (sys.Step guard)

/-- A state that some guarded run reaches from the initial one. -/
def Reachable (s : State) : Prop :=
  sys.Path guard sys.init s

/-- Execute a list of actions; `none` once an action is disabled or the guard refuses it. -/
def run [∀ s a, Decidable (guard s a)] : State → List Action → Option State
  | s, [] => some s
  | s, a :: rest => if guard s a then (sys.step s a).bind (run · rest) else none

variable {sys guard}

/-- A single guarded step is a path. -/
theorem Path.single {s t : State} {a : Action} (allowed : guard s a)
    (stepped : sys.step s a = some t)
    : sys.Path guard s t :=
  Relation.ReflTransGen.single ⟨a, allowed, stepped⟩

/-- A path may be extended at its front by one step. -/
theorem Path.cons {s t u : State} {a : Action} (allowed : guard s a)
    (stepped : sys.step s a = some t) (rest : sys.Path guard t u)
    : sys.Path guard s u :=
  Relation.ReflTransGen.head ⟨a, allowed, stepped⟩ rest

/-- A path under a stronger guard is a path under a weaker one. -/
theorem Path.mono {strict : State → Action → Prop} {s t : State}
    (weaker : ∀ s a, strict s a → guard s a) (path : sys.Path strict s t)
    : sys.Path guard s t :=
  Relation.ReflTransGen.mono
    (fun s _ ⟨a, allowed, stepped⟩ => ⟨a, weaker s a allowed, stepped⟩) _ _ path

/-- Reachability is monotone in the guard. -/
theorem Reachable.mono {strict : State → Action → Prop} {s : State}
    (weaker : ∀ s a, strict s a → guard s a) (reach : sys.Reachable strict s)
    : sys.Reachable guard s :=
  Path.mono weaker reach

/-- The initial state is reachable. -/
theorem Reachable.init : sys.Reachable guard sys.init :=
  Relation.ReflTransGen.refl

/-- Reachable states are closed under guarded paths. -/
theorem Reachable.path {s t : State} (reach : sys.Reachable guard s)
    (path : sys.Path guard s t)
    : sys.Reachable guard t :=
  reach.trans path

/-- Reachable states are closed under guarded steps. -/
theorem Reachable.step {s t : State} {a : Action} (reach : sys.Reachable guard s)
    (allowed : guard s a) (stepped : sys.step s a = some t)
    : sys.Reachable guard t :=
  reach.path (Path.single allowed stepped)

/-- What every guarded step preserves, a whole path preserves; by induction on the path. -/
theorem Path.preserves {P : State → Prop} {s t : State} (path : sys.Path guard s t)
    (start : P s)
    (step : ∀ s a t, P s → guard s a → sys.step s a = some t → P t)
    : P t := by
  induction path with
  | refl => exact start
  | tail _ last ih =>
      obtain ⟨a, allowed, stepped⟩ := last
      exact step _ a _ ih allowed stepped

/-- The invariant rule: a property of the initial state that every guarded step from a
reachable state preserves holds in every reachable state. Reachability is available in
the step so that invariants can be layered.
-/
theorem Reachable.invariant {P : State → Prop} {s : State} (reach : sys.Reachable guard s)
    (start : P sys.init)
    (step
      : ∀ s a t, sys.Reachable guard s → P s → guard s a → sys.step s a = some t → P t)
    : P s := by
  have both : sys.Reachable guard s ∧ P s := by
    refine Path.preserves (P := fun s => sys.Reachable guard s ∧ P s) reach ⟨.init, start⟩ ?_
    intro s a t ⟨earlier, holds⟩ allowed stepped
    exact ⟨earlier.step allowed stepped, step s a t earlier holds allowed stepped⟩
  exact both.2

/-- The progress rule: where every state short of the goal has an allowed step that lowers
the rank and keeps the invariant, a path leads to the goal; by induction on the rank.
-/
theorem exists_path_of_rank {P Q : State → Prop} (rank : State → Nat)
    (progress
      : ∀ s, P s → ¬ Q s →
          ∃ a t, guard s a ∧ sys.step s a = some t ∧ P t ∧ rank t < rank s)
    {s : State} (start : P s)
    : ∃ t, sys.Path guard s t ∧ P t ∧ Q t := by
  induction bound : rank s using Nat.strongRecOn generalizing s with
  | ind n ih =>
      by_cases goal : Q s
      · exact ⟨s, .refl, start, goal⟩
      · obtain ⟨a, t, allowed, stepped, holds, lower⟩ := progress s start goal
        obtain ⟨u, rest, done⟩ := ih (rank t) (bound ▸ lower) holds rfl
        exact ⟨u, Path.cons allowed stepped rest, done⟩

/-- An executed list of actions is a guarded path; by induction on the list. -/
theorem path_of_run [∀ s a, Decidable (guard s a)] {s t : State} {actions : List Action}
    (done : sys.run guard s actions = some t)
    : sys.Path guard s t := by
  induction actions generalizing s with
  | nil =>
      cases done
      exact .refl
  | cons a rest ih =>
      rw [run] at done
      split at done
      · rename_i allowed
        obtain ⟨middle, stepped, later⟩ := Option.bind_eq_some_iff.mp done
        exact Path.cons allowed stepped (ih later)
      · contradiction

/-- A property that an executed list of actions ends with is that of a state on a path. -/
theorem exists_path_of_run [∀ s a, Decidable (guard s a)] {actions : List Action}
    {P : State → Bool} {s : State} (done : (sys.run guard s actions).any P = true)
    : ∃ t, sys.Path guard s t ∧ P t = true := by
  cases ran : sys.run guard s actions with
  | none => simp [ran] at done
  | some t => exact ⟨t, path_of_run ran, by simpa [ran] using done⟩

/-- A property that an executed run ends with is that of a reachable state. -/
theorem exists_of_run [∀ s a, Decidable (guard s a)] {actions : List Action} {P : State → Bool}
    (done : (sys.run guard sys.init actions).any P = true)
    : ∃ s, sys.Reachable guard s ∧ P s = true :=
  exists_path_of_run done

end System

end LibKprintf.Foundation
