import LibKprintf.Model.Handler

/-! The handler table slot by slot: what each of its stores does to the pairs in it.
-/

namespace LibKprintf

variable {cfg : Config}

namespace Globals

/-- The pair in a slot of the table, if its callback is set. -/
def pairAt (g : Globals cfg) (i : Nat) : Option (Callback × U32) :=
  g.gHandlers[i]?.bind (fun handler => handler.cb.map (·, handler.arg))

/-- A slot has a pair exactly when its callback is set. -/
theorem callbackAt_eq (g : Globals cfg) (i : Nat) : g.callbackAt i = (g.pairAt i).map Prod.fst := by
  unfold callbackAt pairAt
  cases g.gHandlers[i]? with
  | none => rfl
  | some handler => cases set : handler.cb <;> simp [set]

/-- A slot without a callback has no pair. -/
theorem pairAt_eq_none {g : Globals cfg} {i : Nat} : g.pairAt i = none ↔ g.callbackAt i = none := by
  simp [callbackAt_eq]

/-- There is no pair outside the table. -/
theorem pairAt_out {g : Globals cfg} {i : Nat} (out : cfg.kprintfMaxHandlers ≤ i)
    : g.pairAt i = none := by
  simp [pairAt, Vector.getElem?_eq_none out]

/-- Storing a callback leaves the argument that was there. -/
theorem pairAt_setCb (g : Globals cfg) (i j : Nat) (cb : Option Callback)
    : (g.setCb i cb).pairAt j
      = if i = j then g.gHandlers[i]?.bind (fun handler => cb.map (·, handler.arg))
        else g.pairAt j := by
  by_cases same : i = j
  · subst same
    by_cases bound : i < cfg.kprintfMaxHandlers <;> simp [setCb, pairAt, bound]
  · simp [setCb, pairAt, same]

/-- Storing an argument leaves the callback that was there. -/
theorem pairAt_setArg (g : Globals cfg) (i j : Nat) (arg : U32)
    : (g.setArg i arg).pairAt j
      = if i = j then (g.pairAt i).map (fun pair => (pair.1, arg)) else g.pairAt j := by
  by_cases same : i = j
  · subst same
    by_cases bound : i < cfg.kprintfMaxHandlers
    · simp [setArg, pairAt, bound, Option.map_map, Function.comp_def]
    · simp [setArg, pairAt, bound]
  · simp [setArg, pairAt, same]

/-- A slot of the table has the callback that was stored last. -/
theorem callbackAt_setCb {g : Globals cfg} {i : Nat} (bound : i < cfg.kprintfMaxHandlers)
    (cb : Callback)
    : (g.setCb i (some cb)).callbackAt i = some cb := by
  simp [callbackAt_eq, pairAt_setCb, bound]

/-- A callback in the table after a store is the stored one, or was there before. -/
theorem callbackAt_setCb_cases {g : Globals cfg} {i j : Nat} {stored : Option Callback}
    {cb : Callback} (held : (g.setCb i stored).callbackAt j = some cb)
    : stored = some cb ∨ g.callbackAt j = some cb := by
  by_cases same : i = j
  · subst same
    rw [callbackAt_eq, pairAt_setCb, if_pos rfl] at held
    cases stored <;> cases place : g.gHandlers[i]? <;> simp_all
  · rw [callbackAt_eq, pairAt_setCb, if_neg same, ← callbackAt_eq] at held
    exact Or.inr held

/-- Storing an argument changes no callback. -/
theorem callbackAt_setArg (g : Globals cfg) (i j : Nat) (arg : U32)
    : (g.setArg i arg).callbackAt j = g.callbackAt j := by
  by_cases same : i = j
  · subst same
    simp [callbackAt_eq, pairAt_setArg, Option.map_map, Function.comp_def]
  · simp [callbackAt_eq, pairAt_setArg, same]

end Globals

end LibKprintf
