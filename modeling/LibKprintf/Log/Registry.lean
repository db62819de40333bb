import LibKprintf.Foundation.SlotMap
import LibKprintf.Model.Log

/-! The handlers of the log as a partial map from slots to handlers: what the calls mean for the
map, that the table and its count follow it, and that log_printf calls the handlers in it.
-/

namespace LibKprintf.Log

open Foundation

variable {cfg : LogConfig}

/-- The registered handlers by slot. No handler has a mark. -/
abbrev Registry (cfg : LogConfig) := SlotMap cfg.logMaxHandlers LogHandler

namespace Registry

/-- What a call means: a handler is added at the lowest free slot, or removed. -/
def call (m : Registry cfg) : LogCall → Registry cfg × Int
  | .register cb flush arg =>
      if cb = 0 then
        (m, -1)
      else
        match found : m.lowestFree with
        | none => (m, -2)
        | some i =>
            (m.put i ⟨cb, flush, arg⟩ false (SlotMap.lowestFree_eq_some.mp found).1 (by simp), i)
  | .unregister index =>
      if index < 0 ∨ index ≥ cfg.logMaxHandlers then
        (m, -1)
      else if m.slot index.toNat = none then
        (m, -2)
      else
        (m.erase index.toNat, 0)

/-- What a sequence of calls means, from the empty map on. -/
def run (cfg : LogConfig) (calls : List LogCall) : Registry cfg :=
  calls.foldl (fun m call => (m.call call).1) .empty

/-- The handler that is registered in a slot. -/
def handler (m : Registry cfg) (i : Nat) : Option LogHandler := (m.slot i).map Prod.fst

/-- A full map takes no handler. -/
theorem call_full {m : Registry cfg} {cb flush arg : U32} (set : cb ≠ 0)
    (full : m.lowestFree = none)
    : m.call (.register cb flush arg) = (m, -2) := by
  rw [call, if_neg set]
  split <;> simp_all

/-- Else the handler goes to the lowest free slot. -/
theorem call_place {m : Registry cfg} {cb flush arg : U32} {i : Nat} (set : cb ≠ 0)
    (found : m.lowestFree = some i)
    : m.call (.register cb flush arg)
      = (m.put i ⟨cb, flush, arg⟩ false (SlotMap.lowestFree_eq_some.mp found).1 (by simp),
        (i : Int)) := by
  rw [call, if_neg set]
  split
  · simp_all
  · rename_i j found'
    obtain rfl : i = j := by simpa [found] using found'
    rfl

end Registry

/-- The variables hold the map: the slots with a callback are its entries, and are counted. -/
structure Represents (g : Globals cfg) (m : Registry cfg) : Prop where
  slots : ∀ i, m.handler i = (g.handlerAt i).filter (fun handler => handler.cb ≠ 0)
  count : g.gHandlerCount.toNat = m.card

section Simulation

variable {g : Globals cfg} {m : Registry cfg} {i : Nat}

/-- A slot without a callback has no entry. -/
theorem Represents.free_iff (represents : Represents g m) (i : Nat)
    : g.free i = true ↔ m.slot i = none := by
  have slot := represents.slots i
  rw [← Option.map_eq_none_iff (f := Prod.fst)]
  change _ ↔ m.handler i = none
  rw [slot, Option.filter_eq_none_iff, Globals.free, Option.all_eq_true]
  simp

/-- The search for a free slot finds the lowest one. -/
theorem Represents.findFree (represents : Represents g m)
    : findFreeHandlerIndex g = m.lowestFree.elim (-1) (fun i => (i : Int)) := by
  have same : (List.range cfg.logMaxHandlers).find? g.free = m.lowestFree := by
    unfold SlotMap.lowestFree
    congr 1
    funext i
    rw [Bool.eq_iff_iff, represents.free_iff i, Option.isNone_iff_eq_none]
  rw [findFreeHandlerIndex, same]
  cases m.lowestFree <;> rfl

/-- The count tells whether there is a free slot. -/
theorem Represents.full_iff (represents : Represents g m)
    : g.gHandlerCount.toNat ≥ cfg.logMaxHandlers ↔ m.lowestFree = none := by
  rw [represents.count, SlotMap.lowestFree_eq_none, ← SlotMap.card_eq_bound]
  exact ⟨fun many => le_antisymm SlotMap.card_le many, fun all => all.ge⟩

/-- The handlers after a store to a slot of the table. -/
theorem handlerAt_setHandler (within : i < cfg.logMaxHandlers) (handler : LogHandler) (j : Nat)
    : (g.setHandler i handler).handlerAt j = if j = i then some handler else g.handlerAt j := by
  by_cases same : j = i
  · subst same
    simp [Globals.setHandler, Globals.handlerAt, within]
  · simp [Globals.setHandler, Globals.handlerAt, same, Ne.symm same]

/-- Storing a handler in a free slot and counting it puts it into the map. -/
theorem Represents.put (represents : Represents g m) {handler : LogHandler} (set : handler.cb ≠ 0)
    (within : i < cfg.logMaxHandlers) (free : m.slot i = none)
    : Represents { g.setHandler i handler with gHandlerCount := g.gHandlerCount + 1 }
        (m.put i handler false within (by simp)) where
  slots := by
    intro j
    have kept := represents.slots j
    rw [Registry.handler] at kept
    change (SlotMap.slot _ j).map Prod.fst = ((g.setHandler i handler).handlerAt j).filter _
    rw [SlotMap.put_slot, handlerAt_setHandler within]
    split
    · simpa [Option.filter] using set
    · exact kept
  count := by
    have small := cfg.maxHandlers_fits
    have most := SlotMap.card_le (m := m.put i handler false within (by simp))
    have one : (1 : U32).toNat = 1 := rfl
    rw [SlotMap.card_put free] at most ⊢
    rw [BitVec.toNat_add, represents.count, one]
    omega

/-- Clearing a used slot and uncounting it erases its entry. -/
theorem Represents.erase (represents : Represents g m) (used : m.slot i ≠ none) (flush : U32)
    : Represents { g.setHandler i ⟨0, flush, 0⟩ with gHandlerCount := g.gHandlerCount - 1 }
        (m.erase i) where
  slots := by
    intro j
    have kept := represents.slots j
    rw [Registry.handler] at kept
    change (SlotMap.slot _ j).map Prod.fst
      = ((g.setHandler i ⟨0, flush, 0⟩).handlerAt j).filter _
    rw [SlotMap.erase_slot, handlerAt_setHandler (SlotMap.lt_of_used used)]
    split
    · simp [Option.filter]
    · exact kept
  count := by
    have card := SlotMap.card_erase used
    have one : (1 : U32).toNat ≤ g.gHandlerCount.toNat := by
      rw [represents.count, ← card]
      simp
    rw [BitVec.toNat_sub_of_le one, represents.count, ← card]
    simp

/-- Every call does to the table what it means for the map, and returns its result. -/
theorem Represents.step (represents : Represents g m) (call : LogCall)
    : Represents (call.run g).1 (m.call call).1 ∧ (call.run g).2 = (m.call call).2 := by
  cases call with
  | register cb flush arg =>
      rw [LogCall.run, logRegisterHandler]
      by_cases null : cb = 0
      · rw [if_pos null, Registry.call, if_pos null]
        exact ⟨represents, rfl⟩
      rw [if_neg null]
      cases found : m.lowestFree with
      | none =>
          rw [if_pos (represents.full_iff.mpr found), Registry.call_full null found]
          exact ⟨represents, rfl⟩
      | some i =>
          obtain ⟨within, free, _⟩ := SlotMap.lowestFree_eq_some.mp found
          have room : ¬ g.gHandlerCount.toNat ≥ cfg.logMaxHandlers := fun full => by
            simp [represents.full_iff.mp full] at found
          have index : findFreeHandlerIndex g = (i : Int) := by
            rw [represents.findFree, found]
            rfl
          have found' : ¬ (i : Int) < 0 := by omega
          rw [if_neg room, Registry.call_place null found]
          simp only [index, if_neg found', Int.toNat_natCast]
          exact ⟨represents.put null within free, trivial⟩
  | unregister index =>
      rw [LogCall.run, logUnregisterHandler, Registry.call]
      by_cases outside : index < 0 ∨ index ≥ cfg.logMaxHandlers
      · rw [if_pos outside, if_pos outside]
        exact ⟨represents, rfl⟩
      rw [if_neg outside, if_neg outside]
      by_cases free : m.slot index.toNat = none
      · rw [if_pos ((represents.free_iff _).mpr free), if_pos free]
        exact ⟨represents, rfl⟩
      · rw [if_neg (mt (represents.free_iff _).mp free), if_neg free]
        exact ⟨represents.erase free _, rfl⟩

end Simulation

/-- The variables as they are loaded hold the empty map. -/
theorem loaded_represents (cfg : LogConfig) : Represents (.loaded cfg) (.empty : Registry cfg) where
  slots := by
    intro i
    by_cases within : i < cfg.logMaxHandlers <;>
      simp [Registry.handler, SlotMap.empty, Globals.handlerAt, Globals.loaded, within,
        Option.filter]
  count := by simp [Globals.loaded, SlotMap.card, SlotMap.empty]

/-- After every sequence of calls the variables hold the map that the calls mean; by induction on
the sequence.
-/
theorem runLog_represents (cfg : LogConfig) (calls : List LogCall)
    : Represents (runLog cfg calls) (Registry.run cfg calls) := by
  have all (g : Globals cfg) (m : Registry cfg) (represents : Represents g m)
      : Represents (calls.foldl (fun g call => (call.run g).1) g)
          (calls.foldl (fun m call => (m.call call).1) m) := by
    induction calls generalizing g m with
    | nil => exact represents
    | cons call rest ih => exact ih _ _ (represents.step call).1
  exact all _ _ (loaded_represents cfg)

/-- A slot of the table has a callback. -/
def Globals.Occupied (g : Globals cfg) (i : Nat) : Prop :=
  ∃ handler, g.handlerAt i = some handler ∧ handler.cb ≠ 0

instance (g : Globals cfg) : DecidablePred g.Occupied := fun i =>
  decidable_of_iff (∃ handler ∈ g.handlerAt i, handler.cb ≠ 0) Iff.rfl

/-- What a successful registration does: the handler is in the lowest free slot, whose number is the
result, and the other slots are as before.
-/
structure FillsLowest (g t : Globals cfg) (ret : Int) (handler : LogHandler) (i : Nat) : Prop where
  index : ret = i
  within : i < cfg.logMaxHandlers
  free : ¬ g.Occupied i
  lowest : ∀ j < i, g.Occupied j
  stored : t.handlerAt i = some handler
  others : ∀ j ≠ i, t.handlerAt j = g.handlerAt j

/-- log_printf passes a text to every registered handler once, in the order of the slots, together
with its length and the handler's own argument, and to nothing else.
-/
structure PassesOn (m : Registry cfg) (text : List Byte) (run : PrintfRun) : Prop where
  ascending : run.calls.Pairwise (fun a b => a.slot < b.slot)
  registered : ∀ i handler, m.handler i = some handler → ∃ call ∈ run.calls, call.slot = i
  own
    : ∀ call ∈ run.calls, ∃ handler, m.handler call.slot = some handler
        ∧ call.cb = handler.cb ∧ call.cb ≠ 0 ∧ call.arg = handler.arg
        ∧ call.msg = text ++ [0] ∧ call.msglen.toNat = text.length
  answer : run.ret = if run.formats then (text.length : Int) else 0

/-- The count, the slots and the functions agree on which handlers are registered. -/
structure Agrees (g : Globals cfg) (m : Registry cfg) : Prop where
  slots
    : ∀ i handler, m.handler i = some handler ↔ g.handlerAt i = some handler ∧ handler.cb ≠ 0
  count
    : g.gHandlerCount.toNat = ((Finset.range cfg.logMaxHandlers).filter g.Occupied).card
  registered : g.gHandlerCount.toNat = m.card
  answers : ∀ call : LogCall, (call.run g).2 = (m.call call).2
  refused
    : ∀ cb flush arg, cb ≠ 0 →
        ((logRegisterHandler g cb flush arg).2 < 0 ↔ ∀ i < cfg.logMaxHandlers, g.Occupied i)
  found : ∀ cb flush arg, (logRegisterHandler g cb flush arg).2 ≠ -3
  fills
    : ∀ cb flush arg, cb ≠ 0 →
        let (t, ret) := logRegisterHandler g cb flush arg
        0 ≤ ret → ∃ i, FillsLowest g t ret ⟨cb, flush, arg⟩ i
  unchanged : ∀ call : LogCall, (call.run g).2 < 0 → (call.run g).1 = g
  passesOn
    : ∀ text : List Byte, 0 < text.length → text.length < cfg.logVsnprintfBufsz →
        PassesOn m text (logPrintf g (.ok text))
  early : ∀ formatted, (logPrintf g formatted).formats = false ↔ ∀ i, m.handler i = none

/-- A loop over the slots that does something for some of them goes from lower to higher slots. -/
theorem filterMap_ascending {α : Type*} {slot : α → Nat} {f : Nat → Option α}
    (own : ∀ i a, f i = some a → slot a = i) (count : Nat)
    : ((List.range count).filterMap f).Pairwise (fun a b => slot a < slot b) := by
  refine List.pairwise_filterMap.mpr (List.pairwise_lt_range.imp ?_)
  intro i j less a first b second
  rw [own i a first, own j b second]
  exact less

/-- vsnprintf writes a text that fits completely. -/
theorem vsnprintf_fits {text : List Byte} (fits : text.length < cfg.logVsnprintfBufsz)
    : vsnprintf cfg.logVsnprintfBufsz (.ok text) = ((text.length : Int), text ++ [0]) := by
  have bound := cfg.bufsz_fits
  have whole : text.take (cfg.logVsnprintfBufsz - 1) = text := List.take_of_length_le (by omega)
  have room : (text ++ [0]).length ≤ cfg.logVsnprintfBufsz := by
    rw [List.length_append]
    exact fits
  rw [vsnprintf, if_pos (by omega), whole, List.take_of_length_le room]

section Agreement

variable {g : Globals cfg} {m : Registry cfg}

/-- A slot with a callback is one with an entry. -/
theorem Represents.occupied_iff (represents : Represents g m) (i : Nat)
    : g.Occupied i ↔ m.slot i ≠ none := by
  rw [ne_eq, ← represents.free_iff i, Globals.free, Option.all_eq_true, Globals.Occupied]
  simp

/-- A handler of the map is one of the table that has a callback. -/
theorem Represents.handler_iff (represents : Represents g m) {i : Nat} {handler : LogHandler}
    : m.handler i = some handler ↔ g.handlerAt i = some handler ∧ handler.cb ≠ 0 := by
  rw [represents.slots i, Option.filter_eq_some_iff]
  simp

/-- A slot outside the table has no callback. -/
theorem Globals.Occupied.within {i : Nat} (occupied : g.Occupied i) : i < cfg.logMaxHandlers := by
  obtain ⟨handler, held, _⟩ := occupied
  by_contra beyond
  rw [Globals.handlerAt, Vector.getElem?_eq_none (not_lt.mp beyond)] at held
  contradiction

/-- The count is the number of slots with a callback. -/
theorem Represents.count_occupied (represents : Represents g m)
    : g.gHandlerCount.toNat = ((Finset.range cfg.logMaxHandlers).filter g.Occupied).card := by
  rw [represents.count, SlotMap.card]
  congr 1
  refine Finset.filter_congr fun i _ => ?_
  rw [represents.occupied_iff i, Option.isSome_iff_ne_none]

/-- It is zero exactly if no handler is registered. -/
theorem Represents.count_zero (represents : Represents g m)
    : g.gHandlerCount = 0 ↔ ∀ i, m.handler i = none := by
  have zero : g.gHandlerCount = 0 ↔ g.gHandlerCount.toNat = 0 := by
    rw [← BitVec.toNat_inj]
    rfl
  have unused (i : Nat) : m.handler i = none ↔ ¬ g.Occupied i := by
    rw [Registry.handler, Option.map_eq_none_iff, represents.occupied_iff i, not_not]
  simp only [zero, represents.count_occupied, Finset.card_eq_zero, Finset.filter_eq_empty_iff,
    unused]
  refine ⟨fun none i occupied => ?_, fun none i _ => none i⟩
  exact none (Finset.mem_range.mpr occupied.within) occupied

/-- What log_register_handler answers to a callback: the lowest free slot, or that there is none. -/
theorem Represents.register (represents : Represents g m) {cb : U32} (set : cb ≠ 0)
    (flush arg : U32)
    : (∃ i, m.lowestFree = some i ∧ (logRegisterHandler g cb flush arg).2 = i)
      ∨ (m.lowestFree = none ∧ (logRegisterHandler g cb flush arg).2 = -2) := by
  have result := (represents.step (.register cb flush arg)).2
  change (logRegisterHandler g cb flush arg).2 = _ at result
  cases found : m.lowestFree with
  | none =>
      rw [Registry.call_full set found] at result
      exact Or.inr ⟨rfl, result⟩
  | some i =>
      rw [Registry.call_place set found] at result
      exact Or.inl ⟨i, rfl, result⟩

/-- A call that fails leaves the variables alone. -/
theorem LogCall.run_unchanged {call : LogCall} (fails : (call.run g).2 < 0)
    : (call.run g).1 = g := by
  cases call with
  | register cb flush arg =>
      unfold LogCall.run logRegisterHandler at *
      simp only at *
      split_ifs at * with null full none
      · rfl
      · rfl
      · rfl
      · exact absurd fails none
  | unregister index =>
      unfold LogCall.run logUnregisterHandler at *
      simp only at *
      split_ifs at * with outside free
      · rfl
      · rfl
      · exact absurd fails (lt_irrefl 0)

/-- A registration that succeeds fills the lowest free slot and no other. -/
theorem Represents.fills (represents : Represents g m) {cb flush arg : U32} (set : cb ≠ 0)
    (success : 0 ≤ (logRegisterHandler g cb flush arg).2)
    : ∃ i, FillsLowest g (logRegisterHandler g cb flush arg).1
        (logRegisterHandler g cb flush arg).2 ⟨cb, flush, arg⟩ i := by
  rcases represents.register set flush arg with ⟨i, found, result⟩ | ⟨_, result⟩
  · obtain ⟨within, free, lowest⟩ := SlotMap.lowestFree_eq_some.mp found
    have room : ¬ g.gHandlerCount.toNat ≥ cfg.logMaxHandlers := fun full => by
      simp [represents.full_iff.mp full] at found
    have index : findFreeHandlerIndex g = (i : Int) := by
      rw [represents.findFree, found]
      rfl
    have found' : ¬ (i : Int) < 0 := by omega
    have new : (logRegisterHandler g cb flush arg).1.gHandlers
        = (g.setHandler i ⟨cb, flush, arg⟩).gHandlers := by
      rw [logRegisterHandler, if_neg set, if_neg room]
      simp only [index, if_neg found', Int.toNat_natCast]
    have slot (j : Nat)
        : (logRegisterHandler g cb flush arg).1.handlerAt j
          = if j = i then some ⟨cb, flush, arg⟩ else g.handlerAt j := by
      rw [← handlerAt_setHandler within, Globals.handlerAt, new]
      rfl
    refine ⟨i, result, within, ?_, fun j lower => ?_, ?_, fun j other => ?_⟩
    · exact fun occupied => (represents.occupied_iff i).mp occupied free
    · exact (represents.occupied_iff j).mpr (lowest j lower)
    · rw [slot, if_pos rfl]
    · rw [slot, if_neg other]
  · rw [result] at success
    contradiction

/-- log_printf passes a text that fits on to the registered handlers. -/
theorem Represents.passesOn (represents : Represents g m) {text : List Byte}
    (some : 0 < text.length) (fits : text.length < cfg.logVsnprintfBufsz)
    : PassesOn m text (logPrintf g (.ok text)) := by
  have bound := cfg.bufsz_fits
  by_cases none : g.gHandlerCount = 0
  · rw [logPrintf, if_pos none]
    refine ⟨.nil, fun i handler registered => ?_, fun call member => ?_, rfl⟩
    · rw [represents.count_zero.mp none i] at registered
      contradiction
    · contradiction
  · have usual : ¬ ((text.length : Int) ≤ 0 ∨ (text.length : Int) ≥ cfg.logVsnprintfBufsz) := by
      omega
    rw [logPrintf, if_neg none, vsnprintf_fits fits]
    simp only [if_neg usual]
    refine ⟨filterMap_ascending (fun i call made => ?_) _, fun i handler registered => ?_,
      fun call member => ?_, rfl⟩
    · split at made
      · split_ifs at made with set
        cases made
        rfl
      · contradiction
    · obtain ⟨held, set⟩ := represents.handler_iff.mp registered
      refine ⟨⟨i, handler.cb, text ++ [0], BitVec.ofInt 32 text.length, handler.arg⟩, ?_, rfl⟩
      have within := Globals.Occupied.within ⟨handler, held, set⟩
      refine List.mem_filterMap.mpr ⟨i, List.mem_range.mpr within, ?_⟩
      rw [held]
      exact if_pos set
    · obtain ⟨i, _, made⟩ := List.mem_filterMap.mp member
      split at made
      · rename_i handler held
        split_ifs at made with set
        cases made
        refine ⟨handler, represents.handler_iff.mpr ⟨held, set⟩, rfl, set, rfl, rfl, ?_⟩
        rw [BitVec.ofInt_natCast, BitVec.toNat_ofNat]
        exact Nat.mod_eq_of_lt (by omega)
      · contradiction

/-- log_printf returns before it formats exactly if no handler is registered. -/
theorem Represents.early (represents : Represents g m) (formatted : Except Int (List Byte))
    : (logPrintf g formatted).formats = false ↔ ∀ i, m.handler i = none := by
  rw [← represents.count_zero, logPrintf]
  split_ifs with none
  · exact iff_of_true rfl none
  · refine iff_of_false ?_ none
    simp only
    split_ifs <;> exact not_false

end Agreement

/-- After every sequence of registrations and unregistrations the count, the slots and the functions
agree on which handlers are registered: those that the calls have left in the map.
-/
theorem log_agrees (cfg : LogConfig) (calls : List LogCall)
    : Agrees (runLog cfg calls) (Registry.run cfg calls) := by
  have represents := runLog_represents cfg calls
  refine ⟨fun i handler => represents.handler_iff, represents.count_occupied, represents.count,
    fun call => (represents.step call).2, fun cb flush arg set => ?_, fun cb flush arg => ?_,
    fun cb flush arg set => represents.fills set, fun call => LogCall.run_unchanged,
    fun text => represents.passesOn, represents.early⟩
  · have full := SlotMap.lowestFree_eq_none (m := Registry.run cfg calls)
    have occupied : (∀ i < cfg.logMaxHandlers, (runLog cfg calls).Occupied i)
        ↔ (Registry.run cfg calls).Full :=
      forall₂_congr fun i _ => represents.occupied_iff i
    rw [occupied, ← full]
    rcases represents.register set flush arg with ⟨i, found, result⟩ | ⟨found, result⟩
    · rw [result, found]
      exact iff_of_false (by omega) nofun
    · rw [result]
      exact iff_of_true (by omega) found
  · by_cases null : cb = 0
    · rw [logRegisterHandler, if_pos null]
      show (-1 : Int) ≠ -3
      decide
    · rcases represents.register null flush arg with ⟨i, _, result⟩ | ⟨_, result⟩ <;>
        rw [result] <;> omega

end LibKprintf.Log
