import LibKprintf.Log.Registry

/-! Whether log_flush flushes the registered handlers. Its loop takes the number of handlers for the
end of the slots, and an unregistered handler leaves its flush function behind.
-/

namespace LibKprintf.Log

variable {cfg : LogConfig}

/-- After a sequence of calls log_flush calls the flush functions of the handlers that are
registered then, each once and with its own argument, in the order of the slots, and no other.
-/
structure FlushesRegistered (cfg : LogConfig) (calls : List LogCall) : Prop where
  ascending : (logFlush (runLog cfg calls)).Pairwise (fun a b => a.slot < b.slot)
  registered
    : ∀ i handler, (Registry.run cfg calls).handler i = some handler → handler.flush ≠ 0 →
        ⟨i, handler.flush, handler.arg⟩ ∈ logFlush (runLog cfg calls)
  only
    : ∀ call ∈ logFlush (runLog cfg calls),
        ∃ handler, (Registry.run cfg calls).handler call.slot = some handler
          ∧ call.flush = handler.flush ∧ call.flush ≠ 0 ∧ call.arg = handler.arg

/-- The slots with a flush function are, as far as the count goes, those with a callback. -/
def Globals.Flushable (g : Globals cfg) : Prop :=
  ∀ i handler, g.handlerAt i = some handler → handler.flush ≠ 0 →
    (i < g.gHandlerCount.toNat ↔ handler.cb ≠ 0)

/-- The calls of log_flush: the flush functions in the slots below the count. -/
theorem mem_logFlush {g : Globals cfg} {call : FlushCall}
    : call ∈ logFlush g
      ↔ call.slot < g.gHandlerCount.toNat
        ∧ ∃ handler, g.handlerAt call.slot = some handler ∧ handler.flush ≠ 0
          ∧ call = ⟨call.slot, handler.flush, handler.arg⟩ := by
  rw [logFlush, List.mem_filterMap]
  constructor
  · intro ⟨i, below, made⟩
    split at made
    · rename_i handler held
      split_ifs at made with set
      cases made
      exact ⟨List.mem_range.mp below, handler, held, set, rfl⟩
    · contradiction
  · intro ⟨below, handler, held, set, same⟩
    refine ⟨call.slot, List.mem_range.mpr below, ?_⟩
    rw [held, same]
    exact if_pos set

/-- The calls of log_flush are in the order of the slots. -/
theorem logFlush_ascending (g : Globals cfg)
    : (logFlush g).Pairwise (fun a b => a.slot < b.slot) := by
  refine filterMap_ascending (fun i call made => ?_) _
  split at made
  · split_ifs at made with set
    cases made
    rfl
  · contradiction

/-- After a sequence of calls log_flush flushes exactly the registered handlers if and only if every
slot with a flush function has a callback exactly if it is below the number of handlers.
-/
theorem log_flush_iff (cfg : LogConfig) (calls : List LogCall)
    : FlushesRegistered cfg calls ↔ (runLog cfg calls).Flushable := by
  have represents := runLog_represents cfg calls
  constructor
  · intro flushes i handler held set
    constructor
    · intro below
      have made : ⟨i, handler.flush, handler.arg⟩ ∈ logFlush (runLog cfg calls) :=
        mem_logFlush.mpr ⟨below, handler, held, set, rfl⟩
      obtain ⟨other, registered, _⟩ := flushes.only _ made
      obtain ⟨held', used⟩ := represents.handler_iff.mp registered
      obtain rfl : handler = other := Option.some.inj (held.symm.trans held')
      exact used
    · intro used
      have made := flushes.registered i handler (represents.handler_iff.mpr ⟨held, used⟩) set
      exact (mem_logFlush.mp made).1
  · intro flushable
    refine ⟨logFlush_ascending _, fun i handler registered set => ?_, fun call made => ?_⟩
    · obtain ⟨held, used⟩ := represents.handler_iff.mp registered
      exact mem_logFlush.mpr ⟨(flushable i handler held set).mpr used, handler, held, set, rfl⟩
    · obtain ⟨below, handler, held, set, same⟩ := mem_logFlush.mp made
      have used := (flushable call.slot handler held set).mp below
      rw [same]
      exact ⟨handler, represents.handler_iff.mpr ⟨held, used⟩, rfl, set, rfl⟩

/-- Two handlers are registered, and the first one is unregistered again. -/
def leaveHole : List LogCall := [.register 0x100 0x200 1, .register 0x110 0x210 2, .unregister 0]

/-- Counterexample: log_flush calls the function of the handler that is gone, and not that of the
one that is left.
-/
theorem not_log_flush
    : logFlush (runLog .default leaveHole) = [⟨0, 0x200, 0⟩]
      ∧ (Registry.run .default leaveHole).handler 1 = some ⟨0x110, 0x210, 2⟩
      ∧ ¬ FlushesRegistered .default leaveHole := by
  have calls : logFlush (runLog .default leaveHole) = [⟨0, 0x200, 0⟩] := by decide
  have second : (Registry.run .default leaveHole).handler 1 = some ⟨0x110, 0x210, 2⟩ := by
    refine (runLog_represents .default leaveHole).handler_iff.mpr ⟨?_, by decide⟩
    decide
  refine ⟨calls, second, fun flushes => ?_⟩
  have missed := flushes.registered 1 _ second (by decide)
  rw [calls] at missed
  simp at missed

end LibKprintf.Log
