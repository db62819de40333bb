import LibKprintf.Foundation.SlotMap
import LibKprintf.Handlers.Table

/-! The handler table as a partial map from slots to pairs, with at most one default entry:
what each call of the registry means for the map, and that the table follows it.
-/

namespace LibKprintf

open Foundation

variable {cfg : Config}

/-- A call of one of the functions that change the table. -/
inductive TableCall
  | registerHandler (cb : Option Callback) (arg : U32)
  | registerDefaultHandler
  | unregisterHandler (index : Int)
  deriving DecidableEq, Repr

/-- A call with what the kernel answers to it: sceKernelWaitSema may fail with any negative
code, and sceKernelSignalSema by the holder succeeds.
-/
structure TableStep where
  call : TableCall
  wait : Int
  signal : Int
  signals : 0 ≤ signal

/-- The call as the code runs it: the new globals and what it returns. -/
def TableStep.run (step : TableStep) (g : Globals cfg) : Globals cfg × Int :=
  match step.call with
  | .registerHandler cb arg => registerHandler g step.wait step.signal cb arg false
  | .registerDefaultHandler => registerDefaultHandler g step.wait step.signal
  | .unregisterHandler index => unregisterHandler g step.wait step.signal index

/-- A sequence of calls, one after the other. -/
def runTable (g : Globals cfg) (steps : List TableStep) : Globals cfg :=
  steps.foldl (fun g step => (step.run g).1) g

-----------------------------------------------------------------------------------------
-- What the calls mean
-----------------------------------------------------------------------------------------

/-- The registered pairs by slot; the marked entry is that of a default registration. -/
abbrev HandlerMap (cfg : Config) := SlotMap cfg.kprintfMaxHandlers (Callback × U32)

namespace HandlerMap

section Register

/-- A pair is added at the lowest free slot, which is the result. -/
def register (m : HandlerMap cfg) (pair : Callback × U32) (mark : Bool)
    (single : mark = true → m.marked = none)
    : HandlerMap cfg × Int :=
  match found : m.lowestFree with
  | none => (m, kprintfErrMaxHandlers)
  | some i => (m.put i pair mark (SlotMap.lowestFree_eq_some.mp found).1 single, i)

variable {m : HandlerMap cfg} {pair : Callback × U32} {mark : Bool}
variable {single : mark = true → m.marked = none}

/-- A full map takes no pair. -/
theorem register_full (full : m.lowestFree = none)
    : m.register pair mark single = (m, kprintfErrMaxHandlers) := by
  unfold register
  split <;> simp_all

/-- The pair goes to the lowest free slot. -/
theorem register_place {i : Nat} (found : m.lowestFree = some i)
    : m.register pair mark single
      = (m.put i pair mark (SlotMap.lowestFree_eq_some.mp found).1 single, (i : Int)) := by
  unfold register
  split
  · simp_all
  · rename_i j found'
    obtain rfl : i = j := by simpa [found] using found'
    rfl

end Register

/-- What a call means, with `stdout` as the argument of the default handler. -/
def call (stdout : Uid) (m : HandlerMap cfg) (step : TableStep) : HandlerMap cfg × Int :=
  match step.call with
  | .registerHandler none _ => (m, kprintfErrInvalidArgument)
  | .registerHandler (some cb) arg =>
      if step.wait < 0 then (m, step.wait) else m.register (cb, arg) false (by simp)
  | .registerDefaultHandler =>
      if step.wait < 0 then
        (m, step.wait)
      else
        match found : m.marked with
        | some i => (m, i)
        | none =>
            m.register (.defaultFileHandler, BitVec.ofInt 32 stdout) true (fun _ => found)
  | .unregisterHandler index =>
      if step.wait < 0 then
        (m, step.wait)
      else if index < 0 ∨ index ≥ cfg.kprintfMaxHandlers then
        (m, kprintfErrInvalidIndex)
      else if m.slot index.toNat = none then
        (m, kprintfErrNoHandler)
      else
        (m.erase index.toNat, 0)

/-- What a sequence of calls means, from the empty map on. -/
def run (cfg : Config) (stdout : Uid) (steps : List TableStep) : HandlerMap cfg :=
  steps.foldl (fun m step => (m.call stdout step).1) .empty

end HandlerMap

-----------------------------------------------------------------------------------------
-- The simulation
-----------------------------------------------------------------------------------------

/-- The default index as the code keeps it. -/
def defaultIndex (marked : Option Nat) : Int := marked.elim (-1) (fun i => i)

/-- A slot is the default index exactly when its entry is the marked one. -/
theorem defaultIndex_eq {marked : Option Nat} {i : Nat}
    : (i : Int) = defaultIndex marked ↔ marked = some i := by
  cases marked with
  | none => simp [defaultIndex]
  | some j =>
      simp only [defaultIndex, Option.elim_some, Option.some.injEq, Int.natCast_inj]
      exact eq_comm

/-- The globals of a started module hold the map. -/
structure Represents (g : Globals cfg) (m : HandlerMap cfg) : Prop where
  started : g.gState = .started
  slots : ∀ i, g.pairAt i = (m.slot i).map Prod.fst
  count : g.gHandlerCount.toNat = m.card
  default : g.gDefaultHandlerIndex = defaultIndex m.marked

/-- Storing both members of a slot replaces it. -/
theorem Globals.setCb_setArg (g : Globals cfg) (i : Nat) (cb : Option Callback) (arg : U32)
    : (g.setCb i cb).setArg i arg
      = { g with gHandlers := g.gHandlers.setIfInBounds i ⟨cb, arg⟩ } := by
  by_cases bound : i < cfg.kprintfMaxHandlers
  · simp [setCb, setArg, bound]
  · simp [setCb, setArg, Vector.setIfInBounds_eq_of_size_le (not_lt.mp bound)]

section Simulation

variable {g : Globals cfg} {m : HandlerMap cfg}

/-- A slot of the table is free exactly when the map has no entry there. -/
theorem Represents.free_iff (represents : Represents g m) (i : Nat)
    : g.callbackAt i = none ↔ m.slot i = none := by
  rw [← Globals.pairAt_eq_none, represents.slots i, Option.map_eq_none_iff]

/-- find_free_handler_index finds the lowest free slot. -/
theorem Represents.findFree (represents : Represents g m)
    : findFreeHandlerIndex g = m.lowestFree := by
  unfold findFreeHandlerIndex SlotMap.lowestFree
  congr 1
  funext i
  rw [Bool.eq_iff_iff, decide_eq_true_iff, Option.isNone_iff_eq_none, represents.free_iff i]

/-- The two tests of a full table agree. -/
theorem Represents.full_iff (represents : Represents g m)
    : g.gHandlerCount.toNat ≥ cfg.kprintfMaxHandlers ↔ m.lowestFree = none := by
  rw [represents.count, SlotMap.lowestFree_eq_none, ← SlotMap.card_eq_bound]
  exact ⟨fun many => le_antisymm SlotMap.card_le many, fun all => all.ge⟩

/-- There is a default index exactly when an entry is marked. -/
theorem Represents.default_iff (represents : Represents g m)
    : g.gDefaultHandlerIndex ≥ 0 ↔ m.marked ≠ none := by
  rw [represents.default]
  cases m.marked <;> simp [defaultIndex]

/-- Storing a pair in a free slot and counting it puts it into the map. -/
theorem Represents.put {i : Nat} {cb : Callback} {arg : U32} {mark : Bool} {default : Int}
    {within : i < cfg.kprintfMaxHandlers} {single : mark = true → m.marked = none}
    (represents : Represents g m) (free : m.slot i = none)
    (marks : default = defaultIndex (m.put i (cb, arg) mark within single).marked)
    : Represents
        { g with
          gHandlers := g.gHandlers.setIfInBounds i ⟨some cb, arg⟩
          gHandlerCount := g.gHandlerCount + 1
          gDefaultHandlerIndex := default }
        (m.put i (cb, arg) mark within single) where
  started := represents.started
  slots := by
    intro j
    rw [SlotMap.put_slot]
    by_cases same : j = i
    · subst same
      simp [Globals.pairAt, within]
    · have kept := represents.slots j
      simpa [Globals.pairAt, same, Ne.symm same] using kept
  count := by
    have small := cfg.maxHandlers_fits
    have card : (m.put i (cb, arg) mark within single).card = m.card + 1 := SlotMap.card_put free
    have most := SlotMap.card_le (m := m.put i (cb, arg) mark within single)
    have before := represents.count
    rw [card, BitVec.toNat_add, before, Nat.mod_eq_of_lt]
    · rfl
    · simp
      omega
  default := marks

/-- Clearing a used slot and uncounting it erases its entry. -/
theorem Represents.erase {i : Nat} {default : Int} (represents : Represents g m)
    (used : m.slot i ≠ none) (marks : default = defaultIndex (m.erase i).marked)
    : Represents
        { g with
          gHandlers := g.gHandlers.setIfInBounds i .empty
          gHandlerCount := g.gHandlerCount - 1
          gDefaultHandlerIndex := default }
        (m.erase i) where
  started := represents.started
  slots := by
    intro j
    have within := SlotMap.lt_of_used used
    rw [SlotMap.erase_slot]
    by_cases same : j = i
    · subst same
      simp [Globals.pairAt, within, RegHandler.empty]
    · have kept := represents.slots j
      simpa [Globals.pairAt, same, Ne.symm same] using kept
  count := by
    have card := SlotMap.card_erase used
    have before := represents.count
    have one : (1 : U32).toNat ≤ g.gHandlerCount.toNat := by
      rw [before, ← card]
      simp
    rw [BitVec.toNat_sub_of_le one, before, ← card]
    simp
  default := marks

/-- register_handler under the semaphore adds the pair, unless it finds a default entry. -/
theorem Represents.registerLocked (represents : Represents g m) (cb : Callback) (arg : U32)
    {isDefaultHandler : Bool} (single : isDefaultHandler = true → m.marked = none)
    : Represents (registerLocked g cb arg isDefaultHandler).1
        (m.register (cb, arg) isDefaultHandler single).1
      ∧ (LibKprintf.registerLocked g cb arg isDefaultHandler).2
        = (m.register (cb, arg) isDefaultHandler single).2 := by
  have noDefault : ¬ (isDefaultHandler ∧ g.gDefaultHandlerIndex ≥ 0) := fun both =>
    represents.default_iff.mp both.2 (single both.1)
  unfold LibKprintf.registerLocked
  rw [if_neg noDefault]
  cases found : m.lowestFree with
  | none =>
      rw [if_pos (represents.full_iff.mpr found), HandlerMap.register_full found]
      exact ⟨represents, rfl⟩
  | some i =>
      obtain ⟨within, free, _⟩ := SlotMap.lowestFree_eq_some.mp found
      have room : ¬ g.gHandlerCount.toNat ≥ cfg.kprintfMaxHandlers := fun full => by
        simp [represents.full_iff.mp full] at found
      rw [if_neg room, represents.findFree.trans found, HandlerMap.register_place found]
      refine ⟨?_, rfl⟩
      cases isDefaultHandler with
      | true =>
          simp only [if_true, Globals.setCb_setArg]
          exact represents.put free (by simp [SlotMap.marked_put_mark, defaultIndex])
      | false =>
          simp only [Bool.false_eq_true, if_false, Globals.setCb_setArg]
          refine represents.put free ?_
          rw [SlotMap.marked_put_plain rfl free]
          exact represents.default

/-- unregister_handler under the semaphore erases an entry, if there is one. -/
theorem Represents.unregisterLocked (represents : Represents g m) {i : Nat}
    (used : m.slot i ≠ none)
    : Represents (unregisterLocked g i).1 (m.erase i) ∧ (LibKprintf.unregisterLocked g i).2 = 0 := by
  have within : i < cfg.kprintfMaxHandlers := SlotMap.lt_of_used used
  have inside : ¬ ((i : Int) < 0 ∨ (i : Int) ≥ cfg.kprintfMaxHandlers) := by omega
  have occupied : ¬ g.callbackAt i = none := fun free => used ((represents.free_iff i).mp free)
  unfold LibKprintf.unregisterLocked
  rw [if_neg inside, Int.toNat_natCast, if_neg occupied]
  refine ⟨?_, rfl⟩
  by_cases same : (i : Int) = g.gDefaultHandlerIndex
  · have found : m.marked = some i := defaultIndex_eq.mp (same.trans represents.default)
    simp only [same, if_true, Globals.setCb_setArg]
    exact represents.erase used (by simp [SlotMap.marked_erase, found, defaultIndex])
  · have missed : m.marked ≠ some i := fun found =>
      same ((defaultIndex_eq.mpr found).trans represents.default.symm)
    simp only [same, if_false, Globals.setCb_setArg]
    exact represents.erase used (by simp [SlotMap.marked_erase, missed, represents.default])

/-- Every call does to the table what it means for the map, and returns its result. -/
theorem Represents.step (represents : Represents g m) (step : TableStep)
    : Represents (step.run g).1 (m.call g.gStdout step).1
      ∧ (step.run g).2 = (m.call g.gStdout step).2 := by
  obtain ⟨call, wait, signal, signals⟩ := step
  have started := represents.started
  have signalled (ret : Int) : (if signal < 0 then signal else ret) = ret :=
    if_neg (not_lt.mpr signals)
  cases call with
  | registerHandler cb arg =>
      cases cb with
      | none => simpa [TableStep.run, registerHandler, started, HandlerMap.call] using represents
      | some cb =>
          simp only [TableStep.run, registerHandler, started, ne_eq, not_true_eq_false, if_false,
            HandlerMap.call, signalled]
          split
          · exact ⟨represents, rfl⟩
          · exact represents.registerLocked cb arg _
  | registerDefaultHandler =>
      simp only [TableStep.run, registerDefaultHandler, registerHandler, started, ne_eq,
        not_true_eq_false, if_false, HandlerMap.call, signalled]
      split
      · exact ⟨represents, rfl⟩
      · split
        · rename_i i found
          have default : g.gDefaultHandlerIndex = i := by
            rw [represents.default, found]
            rfl
          have known : g.gDefaultHandlerIndex ≥ 0 := by omega
          simp only [LibKprintf.registerLocked, known, and_self, if_true]
          exact ⟨represents, default⟩
        · exact represents.registerLocked _ _ _
  | unregisterHandler index =>
      simp only [TableStep.run, unregisterHandler, started, ne_eq, not_true_eq_false, if_false,
        HandlerMap.call, signalled]
      split
      · exact ⟨represents, rfl⟩
      · split
        · rename_i outside
          simp only [LibKprintf.unregisterLocked, outside, if_true]
          exact ⟨represents, trivial⟩
        · rename_i inside
          obtain ⟨i, rfl⟩ := Int.eq_ofNat_of_zero_le (by omega : 0 ≤ index)
          simp only [Int.toNat_natCast]
          split
          · rename_i free
            have unused : g.callbackAt i = none := (represents.free_iff i).mpr free
            simp only [LibKprintf.unregisterLocked, inside, if_false, Int.toNat_natCast, unused,
              if_true]
            exact ⟨represents, trivial⟩
          · rename_i used
            exact represents.unregisterLocked used

end Simulation

-----------------------------------------------------------------------------------------
-- Sequences of calls
-----------------------------------------------------------------------------------------

/-- The globals of a started module in which nothing has been registered. -/
structure FreshTable (g : Globals cfg) : Prop where
  started : g.gState = .started
  handlers : g.gHandlers = Vector.replicate _ .empty
  count : g.gHandlerCount = 0
  default : g.gDefaultHandlerIndex = -1

/-- They hold the empty map. -/
theorem FreshTable.represents {g : Globals cfg} (fresh : FreshTable g)
    : Represents g (.empty : HandlerMap cfg) where
  started := fresh.started
  slots := by
    intro i
    by_cases bound : i < cfg.kprintfMaxHandlers <;>
      simp [Globals.pairAt, fresh.handlers, bound, RegHandler.empty, SlotMap.empty]
  count := by simp [fresh.count, SlotMap.card, SlotMap.empty]
  default := by
    have nobody : (SlotMap.empty : HandlerMap cfg).marked = none :=
      SlotMap.marked_eq_none.mpr fun i marks => by simp [SlotMap.Marked, SlotMap.empty] at marks
    rw [fresh.default, nobody]
    rfl

/-- No call changes `g_stdout`. -/
theorem TableStep.run_gStdout (step : TableStep) (g : Globals cfg)
    : (step.run g).1.gStdout = g.gStdout := by
  have register (cb : Callback) (arg : U32) (isDefaultHandler : Bool) :
      (registerLocked g cb arg isDefaultHandler).1.gStdout = g.gStdout := by
    unfold registerLocked
    split
    · rfl
    · split
      · rfl
      · split
        · rfl
        · cases isDefaultHandler <;> rfl
  obtain ⟨call, wait, signal, signals⟩ := step
  cases call with
  | registerHandler cb arg =>
      simp only [run, registerHandler]
      split
      · rfl
      · split
        · rfl
        · split
          · rfl
          · exact register _ _ _
  | registerDefaultHandler =>
      simp only [run, registerDefaultHandler, registerHandler]
      split
      · rfl
      · split
        · rfl
        · exact register _ _ _
  | unregisterHandler index =>
      simp only [run, unregisterHandler, unregisterLocked]
      split
      · rfl
      · split
        · rfl
        · split
          · rfl
          · split
            · rfl
            · split <;> rfl

/-- After every sequence of calls the table holds the map that the calls mean; by induction
on the sequence.
-/
theorem Represents.run {g : Globals cfg} {m : HandlerMap cfg} (represents : Represents g m)
    (steps : List TableStep)
    : Represents (runTable g steps) (steps.foldl (fun m step => (m.call g.gStdout step).1) m)
      ∧ (runTable g steps).gStdout = g.gStdout := by
  induction steps generalizing g m with
  | nil => exact ⟨represents, rfl⟩
  | cons step rest ih =>
      have after := ih (represents.step step).1
      rw [step.run_gStdout g] at after
      exact after

/-- The three pieces of the table agree: the count is the number of used slots, and the default
index is that of the one slot that a default registration filled.
-/
structure TableRefined (g : Globals cfg) (m : HandlerMap cfg) : Prop where
  count
    : g.gHandlerCount.toNat
      = ((Finset.range cfg.kprintfMaxHandlers).filter (fun i => (g.callbackAt i).isSome)).card
  most : g.gHandlerCount.toNat ≤ cfg.kprintfMaxHandlers
  default
    : (g.gDefaultHandlerIndex = -1 ∧ ∀ i, ¬ m.Marked i)
      ∨ ∃ i : Nat, g.gDefaultHandlerIndex = i ∧ g.callbackAt i ≠ none ∧ ∀ j, m.Marked j ↔ j = i

/-- The later table differs in one slot at most. -/
def OnlySlot (g g' : Globals cfg) (i : Nat) (handler : RegHandler) : Prop :=
  g'.gHandlers[i]? = some handler ∧ ∀ j, j ≠ i → g'.gHandlers[j]? = g.gHandlers[j]?

/-- What a call does to the table. -/
structure CallRefined (g : Globals cfg) (m : HandlerMap cfg) (step : TableStep) : Prop where
  registered
    : ∀ cb arg, step.call = .registerHandler cb arg → 0 ≤ (step.run g).2 →
        ∃ i : Nat, (step.run g).2 = i ∧ cb ≠ none ∧ g.callbackAt i = none
          ∧ (∀ j < i, g.callbackAt j ≠ none) ∧ OnlySlot g (step.run g).1 i ⟨cb, arg⟩
  maxHandlers
    : ∀ cb arg, step.call = .registerHandler (some cb) arg → 0 ≤ step.wait →
        ((step.run g).2 = kprintfErrMaxHandlers
          ↔ ∀ i < cfg.kprintfMaxHandlers, g.callbackAt i ≠ none)
  default
    : step.call = .registerDefaultHandler → 0 ≤ step.wait →
        ∀ i, m.Marked i → (step.run g).2 = i ∧ (step.run g).1 = g
  unregistered
    : ∀ index, step.call = .unregisterHandler index → 0 ≤ (step.run g).2 →
        ∃ i : Nat, index = i ∧ g.callbackAt i ≠ none ∧ OnlySlot g (step.run g).1 i .empty
  refused : (step.run g).2 < 0 → (step.run g).1 = g

/-- A table that holds a map has three pieces that agree. -/
theorem Represents.refined {g : Globals cfg} {m : HandlerMap cfg} (represents : Represents g m)
    : TableRefined g m where
  count := by
    have same (i : Nat) : (m.slot i).isSome = (g.callbackAt i).isSome := by
      rw [Bool.eq_iff_iff, Option.isSome_iff_ne_none, Option.isSome_iff_ne_none, ne_eq, ne_eq,
        represents.free_iff i]
    rw [represents.count, SlotMap.card]
    simp only [same]
  most := represents.count ▸ SlotMap.card_le
  default := by
    have default := represents.default
    cases found : m.marked with
    | none =>
        rw [found] at default
        exact Or.inl ⟨default, SlotMap.marked_eq_none.mp found⟩
    | some i =>
        rw [found] at default
        have marks := SlotMap.marked_eq_some.mp found
        refine Or.inr ⟨i, default, ?_, fun j => ?_⟩
        · obtain ⟨pair, held⟩ := marks
          rw [ne_eq, represents.free_iff i, held]
          simp
        · rw [← SlotMap.marked_eq_some, found]
          exact ⟨fun same => (Option.some.inj same).symm, fun same => congrArg some same.symm⟩

/-- Replacing a slot changes only that slot. -/
theorem onlySlot_set {g g' : Globals cfg} {i : Nat} {handler : RegHandler}
    (within : i < cfg.kprintfMaxHandlers)
    (set : g'.gHandlers = g.gHandlers.setIfInBounds i handler)
    : OnlySlot g g' i handler := by
  refine ⟨by simp [set, within], fun j other => ?_⟩
  rw [set, Vector.getElem?_setIfInBounds_ne (Ne.symm other)]

/-- What register_handler can do under the semaphore: find the default entry, fail, or store
the pair in the lowest free slot.
-/
theorem registerLocked_cases (g : Globals cfg) (cb : Callback) (arg : U32) (isDefaultHandler : Bool)
    : (registerLocked g cb arg isDefaultHandler = (g, g.gDefaultHandlerIndex)
          ∧ isDefaultHandler = true ∧ 0 ≤ g.gDefaultHandlerIndex)
      ∨ registerLocked g cb arg isDefaultHandler = (g, kprintfErrMaxHandlers)
      ∨ ∃ i : Nat, (registerLocked g cb arg isDefaultHandler).2 = i ∧ i < cfg.kprintfMaxHandlers
          ∧ g.callbackAt i = none ∧ (∀ j < i, g.callbackAt j ≠ none)
          ∧ (registerLocked g cb arg isDefaultHandler).1.gHandlers
            = g.gHandlers.setIfInBounds i ⟨some cb, arg⟩ := by
  unfold registerLocked
  split
  · rename_i known
    exact Or.inl ⟨rfl, known⟩
  · split
    · exact Or.inr (Or.inl rfl)
    · split
      · exact Or.inr (Or.inl rfl)
      · rename_i i found
        simp only [findFreeHandlerIndex, List.find?_range_eq_some, List.mem_range,
          decide_eq_true_eq, Bool.not_eq_true', decide_eq_false_iff_not] at found
        refine Or.inr (Or.inr ⟨i, rfl, found.2.1, found.1, found.2.2, ?_⟩)
        cases isDefaultHandler <;> simp [Globals.setCb_setArg]

/-- What unregister_handler can do under the semaphore: fail, or empty its slot. -/
theorem unregisterLocked_cases (g : Globals cfg) (index : Int)
    : (∃ code < 0, unregisterLocked g index = (g, code))
      ∨ ∃ i : Nat, index = i ∧ i < cfg.kprintfMaxHandlers ∧ g.callbackAt i ≠ none
          ∧ (unregisterLocked g index).2 = 0
          ∧ (unregisterLocked g index).1.gHandlers = g.gHandlers.setIfInBounds i .empty := by
  unfold unregisterLocked
  split
  · exact Or.inl ⟨kprintfErrInvalidIndex, by decide, rfl⟩
  · rename_i inside
    split
    · exact Or.inl ⟨kprintfErrNoHandler, by decide, rfl⟩
    · rename_i used
      obtain ⟨i, rfl⟩ := Int.eq_ofNat_of_zero_le (by omega : 0 ≤ index)
      refine Or.inr ⟨i, rfl, by omega, used, rfl, ?_⟩
      split <;> simp [Globals.setCb_setArg, RegHandler.empty]

section Calls

variable {g : Globals cfg} {wait signal : Int}

/-- register_handler in a started module, with a signal that succeeds. -/
theorem registerHandler_started (started : g.gState = .started) (signals : 0 ≤ signal)
    (cb : Callback) (arg : U32) (isDefaultHandler : Bool)
    : registerHandler g wait signal (some cb) arg isDefaultHandler
      = if wait < 0 then (g, wait) else registerLocked g cb arg isDefaultHandler := by
  simp [registerHandler, started, not_lt.mpr signals]

/-- unregister_handler in a started module, with a signal that succeeds. -/
theorem unregisterHandler_started (started : g.gState = .started) (signals : 0 ≤ signal)
    (index : Int)
    : unregisterHandler g wait signal index
      = if wait < 0 then (g, wait) else unregisterLocked g index := by
  simp [unregisterHandler, started, not_lt.mpr signals]

/-- A registration that fails changes nothing. -/
theorem registerHandler_refused (started : g.gState = .started) (signals : 0 ≤ signal)
    {cb : Callback} {arg : U32} {isDefaultHandler : Bool}
    (refused : (registerHandler g wait signal (some cb) arg isDefaultHandler).2 < 0)
    : (registerHandler g wait signal (some cb) arg isDefaultHandler).1 = g := by
  rw [registerHandler_started started signals] at refused ⊢
  by_cases failed : wait < 0
  · rw [if_pos failed]
  · rw [if_neg failed] at refused ⊢
    rcases registerLocked_cases g cb arg isDefaultHandler with ⟨same, _⟩ | same | ⟨i, index, _⟩
    · rw [same]
    · rw [same]
    · rw [index] at refused
      omega

end Calls

/-- Every call on a table that holds a map does what its caller may expect. -/
theorem Represents.callRefined {g : Globals cfg} {m : HandlerMap cfg} (represents : Represents g m)
    (step : TableStep)
    : CallRefined g m step := by
  have started := represents.started
  obtain ⟨call, wait, signal, signals⟩ := step
  constructor
  case registered =>
    rintro cb arg rfl index
    cases cb with
    | none =>
        simp [TableStep.run, registerHandler, started, kprintfErrInvalidArgument] at index
    | some cb =>
        simp only [TableStep.run, registerHandler_started started signals] at index ⊢
        by_cases failed : wait < 0
        · rw [if_pos failed] at index
          exact absurd failed (not_lt.mpr index)
        · rw [if_neg failed] at index ⊢
          rcases registerLocked_cases g cb arg false with
            ⟨_, isDefault, _⟩ | same | ⟨i, ret, within, free, lower, set⟩
          · contradiction
          · simp [same, kprintfErrMaxHandlers] at index
          · exact ⟨i, ret, by simp, free, lower, onlySlot_set within set⟩
  case maxHandlers =>
    rintro cb arg rfl taken
    have result := (represents.step ⟨.registerHandler (some cb) arg, wait, signal, signals⟩).2
    rw [result]
    simp only [HandlerMap.call, not_lt.mpr taken, if_false]
    have full : m.Full ↔ ∀ i < cfg.kprintfMaxHandlers, g.callbackAt i ≠ none := by
      simp only [SlotMap.Full, ne_eq, represents.free_iff]
    rw [← full, ← SlotMap.lowestFree_eq_none]
    cases found : m.lowestFree with
    | none => simp [HandlerMap.register_full found]
    | some i =>
        simp only [HandlerMap.register_place found, kprintfErrMaxHandlers, reduceCtorEq]
  case default =>
    rintro rfl taken i marks
    have default : g.gDefaultHandlerIndex = i := by
      rw [represents.default, SlotMap.marked_eq_some.mpr marks]
      rfl
    have known : g.gDefaultHandlerIndex ≥ 0 := by omega
    have found : LibKprintf.registerLocked g .defaultFileHandler (BitVec.ofInt 32 g.gStdout) true
        = (g, g.gDefaultHandlerIndex) := by
      simp [LibKprintf.registerLocked, known]
    simp only [TableStep.run, registerDefaultHandler, registerHandler_started started signals,
      not_lt.mpr taken, if_false, found]
    exact ⟨default, trivial⟩
  case unregistered =>
    rintro index rfl zero
    simp only [TableStep.run, unregisterHandler_started started signals] at zero ⊢
    by_cases failed : wait < 0
    · rw [if_pos failed] at zero
      exact absurd failed (not_lt.mpr zero)
    · rw [if_neg failed] at zero ⊢
      rcases unregisterLocked_cases g index with
        ⟨code, negative, same⟩ | ⟨i, same, within, used, _, set⟩
      · rw [same] at zero
        omega
      · exact ⟨i, same, used, onlySlot_set within set⟩
  case refused =>
    intro refused
    cases call with
    | registerHandler cb arg =>
        cases cb with
        | none => simp [TableStep.run, registerHandler, started]
        | some cb => exact registerHandler_refused started signals refused
    | registerDefaultHandler => exact registerHandler_refused started signals refused
    | unregisterHandler index =>
        simp only [TableStep.run, unregisterHandler_started started signals] at refused ⊢
        by_cases failed : wait < 0
        · rw [if_pos failed]
        · rw [if_neg failed] at refused ⊢
          rcases unregisterLocked_cases g index with ⟨code, _, same⟩ | ⟨i, _, _, _, zero, _⟩
          · rw [same]
          · omega

/-- After every sequence of calls on the empty table of a started module, with any failures of
the semaphore's waits, the table holds the map that the calls mean, its three pieces agree,
and the next call returns what it means and does what its caller may expect.
-/
theorem table_refined {g : Globals cfg} (fresh : FreshTable g) (steps : List TableStep)
    : Represents (runTable g steps) (HandlerMap.run cfg g.gStdout steps)
      ∧ TableRefined (runTable g steps) (HandlerMap.run cfg g.gStdout steps)
      ∧ ∀ step : TableStep,
          (step.run (runTable g steps)).2 = ((HandlerMap.run cfg g.gStdout steps).call g.gStdout step).2
          ∧ CallRefined (runTable g steps) (HandlerMap.run cfg g.gStdout steps) step := by
  obtain ⟨represents, stdout⟩ := fresh.represents.run steps
  refine ⟨represents, represents.refined, fun step => ⟨?_, represents.callRefined step⟩⟩
  have result := (represents.step step).2
  rw [stdout] at result
  exact result

/-- The globals of a started module of the shipped configuration. -/
def startedGlobals : Globals .shipped :=
  { Globals.loaded .shipped with
    gState := .started, gStdout := 1, gVplid := 10, gEvid := 11, gSemid := 12, gThid := 13 }

/-- A registration of a client's callback, which gets the semaphore. -/
def registerStep (entry : Nat) : TableStep :=
  ⟨.registerHandler (some (.client entry)) 0, 0, 0, le_rfl⟩

/-- Nothing has been registered in them. -/
theorem startedGlobals_fresh : FreshTable startedGlobals :=
  ⟨rfl, rfl, rfl, rfl⟩

/-- Witness: the slot of the unregistered default entry is used again. -/
theorem table_refined_run
    : ((registerStep 8).run (runTable startedGlobals
          [⟨.registerDefaultHandler, 0, 0, Int.le_refl 0⟩, registerStep 7,
            ⟨.unregisterHandler 0, 0, 0, Int.le_refl 0⟩])).2 = 0
      ∧ TableRefined
          (runTable startedGlobals
            [⟨.registerDefaultHandler, 0, 0, Int.le_refl 0⟩, registerStep 7,
              ⟨.unregisterHandler 0, 0, 0, Int.le_refl 0⟩])
          (HandlerMap.run .shipped 1
            [⟨.registerDefaultHandler, 0, 0, Int.le_refl 0⟩, registerStep 7,
              ⟨.unregisterHandler 0, 0, 0, Int.le_refl 0⟩]) :=
  ⟨by decide, (table_refined startedGlobals_fresh _).2.1⟩

/-- Counterexample: on a full table a registration of `NULL` does not fail with the code of a
full table, because its test comes first.
-/
theorem not_maxHandlers_iff_full
    : ¬ ∀ (steps : List TableStep) (step : TableStep) cb arg,
        step.call = .registerHandler cb arg →
          ((step.run (runTable startedGlobals steps)).2 = kprintfErrMaxHandlers
            ↔ ∀ i < Config.shipped.kprintfMaxHandlers,
                (runTable startedGlobals steps).callbackAt i ≠ none) := by
  intro always
  have full : ∀ i < Config.shipped.kprintfMaxHandlers,
      (runTable startedGlobals (List.replicate 6 (registerStep 7))).callbackAt i ≠ none := by
    decide
  have result := (always (List.replicate 6 (registerStep 7))
    ⟨.registerHandler none 0, 0, 0, le_rfl⟩ none 0 rfl).mpr full
  revert result
  decide

end LibKprintf
