import LibKprintf.Foundation.System
import Mathlib.Order.Filter.AtTopBot.Basic

/-! Infinite runs of a machine, and what fairness makes of them: a rank that no step raises, and
that falls again and again, leads to the goal.
-/

namespace LibKprintf.Foundation.System

open Filter

variable {State Action : Type*}

/-- A run that never ends: its states, and the actions between them. -/
structure InfiniteRun (sys : System State Action) (guard : State → Action → Prop) where
  state : Nat → State
  action : Nat → Action
  allowed : ∀ n, guard (state n) (action n)
  stepped : ∀ n, sys.step (state n) (action n) = some (state (n + 1))

namespace InfiniteRun

variable {sys : System State Action} {guard : State → Action → Prop}
variable (run : sys.InfiniteRun guard)

/-- A path leads from each state to every later one. -/
theorem path {m n : Nat} (later : m ≤ n)
    : sys.Path guard (run.state m) (run.state n) := by
  induction n, later using Nat.le_induction with
  | base => exact .refl
  | succ n _ ih => exact ih.tail ⟨_, run.allowed n, run.stepped n⟩

/-- What is enabled from some point on is taken again and again. -/
def WeaklyFair (enabled : State → Prop) (taken : State → Action → Prop) : Prop :=
  (∀ᶠ n in atTop, enabled (run.state n)) → ∃ᶠ n in atTop, taken (run.state n) (run.action n)

/-- What is enabled again and again is taken again and again. -/
def StronglyFair (enabled : State → Prop) (taken : State → Action → Prop) : Prop :=
  (∃ᶠ n in atTop, enabled (run.state n)) → ∃ᶠ n in atTop, taken (run.state n) (run.action n)

variable {run} {enabled : State → Prop} {taken : State → Action → Prop} {m n : Nat}

/-- An action that stays enabled as long as it is not taken is taken. -/
theorem WeaklyFair.exists_taken (fair : run.WeaklyFair enabled taken)
    (enables
      : (∀ k ≥ m, ¬ taken (run.state k) (run.action k)) → ∀ k ≥ m, enabled (run.state k))
    : ∃ k ≥ m, taken (run.state k) (run.action k) := by
  by_contra never
  push Not at never
  have again := frequently_atTop.mp (fair (eventually_atTop.mpr ⟨m, enables never⟩))
  obtain ⟨k, later, takes⟩ := again m
  exact never k later takes

/-- An action that becomes enabled again and again as long as it is not taken is taken. -/
theorem StronglyFair.exists_taken (fair : run.StronglyFair enabled taken)
    (enables
      : (∀ k ≥ m, ¬ taken (run.state k) (run.action k)) →
          ∀ j ≥ m, ∃ k ≥ j, enabled (run.state k))
    : ∃ k ≥ m, taken (run.state k) (run.action k) := by
  by_contra never
  push Not at never
  have often : ∃ᶠ n in atTop, enabled (run.state n) := by
    refine frequently_atTop.mpr fun j => ?_
    obtain ⟨k, later, holds⟩ := enables never (max m j) (le_max_left m j)
    exact ⟨k, (le_max_right m j).trans later, holds⟩
  obtain ⟨k, later, takes⟩ := frequently_atTop.mp (fair often) m
  exact never k later takes

/-- Strong fairness is also weak fairness, for any condition that enables the action. -/
theorem StronglyFair.weaklyFair (fair : run.StronglyFair enabled taken) {holds : State → Prop}
    (enables : ∀ n, holds (run.state n) → enabled (run.state n))
    : run.WeaklyFair holds taken :=
  fun always => fair (always.mono fun n => enables n).frequently

/-- What holds at some later point holds at a first one. -/
theorem exists_first {Q : Nat → Prop} (holds : ∃ k ≥ m, Q k)
    : ∃ k ≥ m, Q k ∧ ∀ j, m ≤ j → j < k → ¬ Q j := by
  classical
  obtain ⟨later, first⟩ := Nat.find_spec holds
  exact ⟨Nat.find holds, later, first, fun j after before other =>
    Nat.find_min holds before ⟨after, other⟩⟩

/-- What does not hold yet, and holds later, begins to hold with one step. -/
theorem exists_crossing {Q : Nat → Prop} (before : ¬ Q m) (holds : ∃ k ≥ m, Q k)
    : ∃ k ≥ m, ¬ Q k ∧ Q (k + 1) := by
  obtain ⟨k, later, first, earlier⟩ := exists_first holds
  obtain rfl | less := Nat.eq_or_lt_of_le later
  · exact absurd first before
  · obtain ⟨j, rfl⟩ := Nat.exists_eq_add_of_lt less
    have after : m ≤ m + j := Nat.le_add_right m j
    exact ⟨m + j, after, earlier _ after (m + j).lt_succ_self, first⟩

/-- What only the action changes stays as it is until the action is taken. -/
theorem unchanged {β : Type*} (taken : State → Action → Prop) (f : State → β)
    (kept
      : ∀ k ≥ m, ¬ taken (run.state k) (run.action k) → f (run.state (k + 1)) = f (run.state k))
    {k : Nat} (later : m ≤ k) (idle : ∀ j, m ≤ j → j < k → ¬ taken (run.state j) (run.action j))
    : f (run.state k) = f (run.state m) := by
  induction k, later using Nat.le_induction with
  | base => rfl
  | succ k later ih =>
      rw [kept k later (idle k later k.lt_succ_self)]
      exact ih fun j after before => idle j after (before.trans k.lt_succ_self)

/-- What no step raises is at no point higher than before. -/
theorem rank_le {α : Type*} [Preorder α] (rank : State → α)
    (stays : ∀ k ≥ m, rank (run.state (k + 1)) ≤ rank (run.state k)) {k : Nat} (later : k ≥ m)
    : rank (run.state k) ≤ rank (run.state m) := by
  induction k, later using Nat.le_induction with
  | base => exact le_rfl
  | succ k later ih => exact (stays k later).trans ih

/-- The rank rule: while the goal is not reached, the rank at some later point is below the present
one. By well-founded induction on the rank.
-/
theorem eventually_of_falls {α : Type*} [Preorder α] [WellFoundedLT α] (Goal : State → Prop)
    (rank : State → α)
    (falls
      : (∀ k ≥ n, ¬ Goal (run.state k)) →
          ∀ m ≥ n, ∃ k ≥ m, rank (run.state k) < rank (run.state m))
    : ∃ m ≥ n, Goal (run.state m) := by
  by_contra never
  push Not at never
  have impossible (a : α) : ∀ m ≥ n, rank (run.state m) ≠ a := by
    induction a using WellFoundedLT.induction with
    | ind a ih =>
        rintro m after rfl
        obtain ⟨k, later, less⟩ := falls never m after
        exact ih _ less k (after.trans later) rfl
  exact impossible _ n le_rfl rfl

/-- It is enough that no step raises the rank, and that again and again some step lowers it. -/
theorem eventually_of_rank {α : Type*} [Preorder α] [WellFoundedLT α] (Goal : State → Prop)
    (rank : State → α)
    (stays
      : ∀ k ≥ n, ¬ Goal (run.state k) → ¬ Goal (run.state (k + 1)) →
          rank (run.state (k + 1)) ≤ rank (run.state k))
    (falls
      : (∀ k ≥ n, ¬ Goal (run.state k)) →
          ∀ m ≥ n, ∃ k ≥ m, rank (run.state (k + 1)) < rank (run.state k))
    : ∃ m ≥ n, Goal (run.state m) := by
  refine eventually_of_falls Goal rank fun never m after => ?_
  obtain ⟨k, later, less⟩ := falls never m after
  have lowers := rank_le rank (fun k (beyond : k ≥ m) =>
    stays k (after.trans beyond) (never k (after.trans beyond))
      (never _ ((after.trans beyond).trans k.le_succ))) later
  exact ⟨k + 1, later.trans k.le_succ, less.trans_le lowers⟩

-----------------------------------------------------------------------------------------
-- How infinite runs come about
-----------------------------------------------------------------------------------------

/-- The run that takes one step first. -/
def cons (run : sys.InfiniteRun guard) {s : State} {a : Action} (allowed : guard s a)
    (stepped : sys.step s a = some (run.state 0))
    : sys.InfiniteRun guard where
  state
    | 0 => s
    | n + 1 => run.state n
  action
    | 0 => a
    | n + 1 => run.action n
  allowed
    | 0 => allowed
    | n + 1 => run.allowed n
  stepped
    | 0 => stepped
    | n + 1 => run.stepped n

/-- The run that takes one action for ever. -/
def loop {t : State} {a : Action} (allowed : guard t a) (stepped : sys.step t a = some t)
    : sys.InfiniteRun guard where
  state _ := t
  action _ := a
  allowed _ := allowed
  stepped _ := stepped

end InfiniteRun

/-- A path to a state with a loop is the beginning of a run that ends there; by induction on the
path, from its end.
-/
theorem Path.exists_infiniteRun {sys : System State Action} {guard : State → Action → Prop}
    {s t : State} {a : Action} (path : sys.Path guard s t) (allowed : guard t a)
    (loop : sys.step t a = some t)
    : ∃ run : sys.InfiniteRun guard, run.state 0 = s ∧ ∀ᶠ n in atTop, run.state n = t := by
  induction path using Relation.ReflTransGen.head_induction_on with
  | refl => exact ⟨.loop allowed loop, rfl, .of_forall fun _ => rfl⟩
  | head step _ ih =>
      obtain ⟨b, allows, stepped⟩ := step
      obtain ⟨run, rfl, ends⟩ := ih
      obtain ⟨bound, ends⟩ := eventually_atTop.mp ends
      refine ⟨run.cons allows stepped, rfl, eventually_atTop.mpr ⟨bound + 1, fun n later => ?_⟩⟩
      obtain ⟨k, rfl⟩ := Nat.exists_eq_add_of_le' (Nat.one_le_of_lt later)
      exact ends k (by omega)

/-- Where each state of a kind has an allowed step that leads to such a state again, an infinite run
goes on like that.
-/
theorem exists_infiniteRun {sys : System State Action} {guard : State → Action → Prop}
    {P : State → Prop} {Moves : State → Action → State → Prop}
    (progress
      : ∀ s, P s → ∃ a t, guard s a ∧ sys.step s a = some t ∧ P t ∧ Moves s a t)
    {s : State} (start : P s)
    : ∃ run : sys.InfiniteRun guard, run.state 0 = s
        ∧ ∀ n, P (run.state n) ∧ Moves (run.state n) (run.action n) (run.state (n + 1)) := by
  choose action next allowed stepped keeps moves using progress
  let path (n : Nat) : Subtype P :=
    Nat.rec ⟨s, start⟩ (fun _ t => ⟨next t.1 t.2, keeps t.1 t.2⟩) n
  let run : sys.InfiniteRun guard :=
    { state := fun n => (path n).1
      action := fun n => action (path n).1 (path n).2
      allowed := fun n => allowed (path n).1 (path n).2
      stepped := fun n => stepped (path n).1 (path n).2 }
  exact ⟨run, rfl, fun n => ⟨(path n).2, moves (path n).1 (path n).2⟩⟩

end LibKprintf.Foundation.System
