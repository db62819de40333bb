import LibKprintf.Foundation.System

/-! What an observer sees of the runs of a machine. An action shows him a list of observations,
which depends on the state it is taken in, and a run shows those of its actions one after the other.
-/

namespace LibKprintf.Foundation.System

variable {State Action Obs : Type*} (sys : System State Action)
variable (guard : State → Action → Prop) (output : State → Action → List Obs)

/-- A guarded run leads from the initial state to a state, and has shown the observations. -/
inductive Observed : State → List Obs → Prop
  | init : Observed sys.init []
  | step {s t action seen} (earlier : Observed s seen) (allowed : guard s action)
    (stepped : sys.step s action = some t)
    : Observed t (seen ++ output s action)

/-- Execute a list of actions and collect what they show. -/
def runObserving [∀ s a, Decidable (guard s a)] : State → List Action → Option (State × List Obs)
  | s, [] => some (s, [])
  | s, a :: rest =>
      if guard s a then
        (sys.step s a).bind fun t =>
          (runObserving t rest).map fun (last, seen) => (last, output s a ++ seen)
      else
        none

variable {sys guard output}

/-- What a run leads to is reachable. -/
theorem Observed.reachable {s : State} {seen : List Obs} (observed : sys.Observed guard output s seen)
    : sys.Reachable guard s := by
  induction observed with
  | init => exact .init
  | step _ allowed stepped ih => exact ih.step allowed stepped

/-- The run that leads to a reachable state shows something. -/
theorem Reachable.observed (output : State → Action → List Obs) {s : State}
    (reach : sys.Reachable guard s)
    : ∃ seen, sys.Observed guard output s seen := by
  refine Reachable.invariant (P := fun s => ∃ seen, sys.Observed guard output s seen) reach
    ⟨[], .init⟩ ?_
  intro s a t _ ⟨seen, observed⟩ allowed stepped
  exact ⟨_, observed.step allowed stepped⟩

/-- The invariant rule: what holds of the initial state and no observation, and what every guarded
step from a reachable state keeps, holds of every run; by induction on the run.
-/
theorem Observed.invariant {P : State → List Obs → Prop} {s : State} {seen : List Obs}
    (observed : sys.Observed guard output s seen) (start : P sys.init [])
    (step
      : ∀ s a t seen, sys.Reachable guard s → P s seen → guard s a → sys.step s a = some t →
          P t (seen ++ output s a))
    : P s seen := by
  induction observed with
  | init => exact start
  | step earlier allowed stepped ih => exact step _ _ _ _ earlier.reachable ih allowed stepped

/-- A run may be continued by an executed list of actions; by induction on the list. -/
theorem Observed.run [∀ s a, Decidable (guard s a)] {s t : State} {past seen : List Obs}
    {actions : List Action} (observed : sys.Observed guard output s past)
    (done : sys.runObserving guard output s actions = some (t, seen))
    : sys.Observed guard output t (past ++ seen) := by
  induction actions generalizing s past seen with
  | nil =>
      cases done
      simpa using observed
  | cons a rest ih =>
      rw [runObserving] at done
      split at done
      · rename_i allowed
        obtain ⟨middle, stepped, later⟩ := Option.bind_eq_some_iff.mp done
        obtain ⟨⟨last, shown⟩, ran, same⟩ := Option.map_eq_some_iff.mp later
        cases same
        rw [← List.append_assoc]
        exact ih (observed.step allowed stepped) ran
      · contradiction

/-- A property that an executed run ends with is that of an observed run. -/
theorem exists_of_runObserving [∀ s a, Decidable (guard s a)] {actions : List Action}
    {P : State × List Obs → Bool}
    (done : (sys.runObserving guard output sys.init actions).any P = true)
    : ∃ s seen, sys.Observed guard output s seen ∧ P (s, seen) = true := by
  cases ran : sys.runObserving guard output sys.init actions with
  | none => simp [ran] at done
  | some last =>
      obtain ⟨s, seen⟩ := last
      exact ⟨s, seen, by simpa using Observed.init.run ran, by simpa [ran] using done⟩

end LibKprintf.Foundation.System
