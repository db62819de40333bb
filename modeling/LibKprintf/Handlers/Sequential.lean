import LibKprintf.Handlers.Refinement
import LibKprintf.Handlers.Registry

/-! The registry functions among other threads: between the two semaphore calls of a function
nobody else touches the table, so its single loads and stores come to what the function does
as sequential code, and to what it means for the map.
-/

namespace LibKprintf

open Foundation

variable {cfg : Config}

/-- The loop of find_free_handler_index from slot `i` on. -/
def findFreeFrom (g : Globals cfg) (i : Nat) : Option Nat :=
  (List.range' i (cfg.kprintfMaxHandlers - i)).find? (fun i => g.callbackAt i = none)

/-- The end of register_handler, once both members of its slot are stored. -/
def countUp (g : Globals cfg) (index : Nat) : Globals cfg × Int :=
  ({ g with gHandlerCount := g.gHandlerCount + 1 }, index)

/-- The end of unregister_handler, once its slot is cleared. -/
def countDown (g : Globals cfg) : Globals cfg × Int :=
  ({ g with gHandlerCount := g.gHandlerCount - 1 }, 0)

/-- What register_handler does with the slot that it has found. -/
def storeAt (g : Globals cfg) (args : RegArgs) (index : Nat) : Globals cfg × Int :=
  let g := if args.isDefaultHandler then { g with gDefaultHandlerIndex := index } else g
  countUp ((g.setCb index (some args.cb)).setArg index args.arg) index

/-- What register_handler does once it has searched for a slot. -/
def storeFound (g : Globals cfg) (args : RegArgs) : Option Nat → Globals cfg × Int
  | none => (g, kprintfErrMaxHandlers)
  | some index => storeAt g args index

/-- What unregister_handler does with a slot that is used. -/
def clearAt (g : Globals cfg) (index : Nat) : Globals cfg × Int :=
  let g := if index = g.gDefaultHandlerIndex then { g with gDefaultHandlerIndex := -1 } else g
  countDown ((g.setCb index none).setArg index 0)

/-- What a function has left to do up to its second semaphore call, as sequential code: the new
globals and `ret`.
-/
def ApiPc.rest (g : Globals cfg) : ApiPc → Globals cfg × Int
  | .regTestDefault args => registerLocked g args.cb args.arg args.isDefaultHandler
  | .regTestCount args =>
      if g.gHandlerCount.toNat ≥ cfg.kprintfMaxHandlers then
        (g, kprintfErrMaxHandlers)
      else
        storeFound g args (findFreeFrom g 0)
  | .regFind args i => storeFound g args (findFreeFrom g i)
  | .regSetDefault args index => storeAt g args index
  | .regSetCb args index => countUp ((g.setCb index (some args.cb)).setArg index args.arg) index
  | .regSetArg args index => countUp (g.setArg index args.arg) index
  | .regCount _ index => countUp g index
  | .unregTestIndex index => unregisterLocked g index
  | .unregTestCb index =>
      if g.callbackAt index = none then (g, kprintfErrNoHandler) else clearAt g index
  | .unregDefault index => clearAt g index
  | .unregClearCb index => countDown ((g.setCb index none).setArg index 0)
  | .unregClearArg index => countDown (g.setArg index 0)
  | .unregCount => countDown g
  | .signal _ ret => (g, ret)
  -- Outside the semaphore calls there is nothing to do under them.
  | .regWait .. | .unregWait .. | .announce | .dipsw | .registerHook | .done _ => (g, 0)

/-- The loop starts at the first slot. -/
theorem findFreeFrom_zero (g : Globals cfg) : findFreeFrom g 0 = findFreeHandlerIndex g := by
  simp [findFreeFrom, findFreeHandlerIndex, List.range_eq_range']

/-- The loop takes a free slot, and passes a used one. -/
theorem findFreeFrom_next {g : Globals cfg} {i : Nat} (bound : i < cfg.kprintfMaxHandlers)
    : findFreeFrom g i = if g.callbackAt i = none then some i else findFreeFrom g (i + 1) := by
  have left : cfg.kprintfMaxHandlers - i = cfg.kprintfMaxHandlers - (i + 1) + 1 := by omega
  simp only [findFreeFrom, left, List.range'_succ, List.find?_cons]
  by_cases free : g.callbackAt i = none <;> simp [free]

/-- Past the last slot the loop has found none. -/
theorem findFreeFrom_end {g : Globals cfg} {i : Nat} (out : ¬ i < cfg.kprintfMaxHandlers)
    : findFreeFrom g i = none := by
  have left : cfg.kprintfMaxHandlers - i = 0 := by omega
  simp [findFreeFrom, left]

/-- register_handler is its first test, and the rest. -/
theorem registerLocked_eq (g : Globals cfg) (args : RegArgs)
    : registerLocked g args.cb args.arg args.isDefaultHandler
      = if args.isDefaultHandler ∧ g.gDefaultHandlerIndex ≥ 0 then (g, g.gDefaultHandlerIndex)
        else ApiPc.rest g (.regTestCount args) := by
  simp only [registerLocked, ApiPc.rest, findFreeFrom_zero]
  cases findFreeHandlerIndex g <;> rfl

/-- unregister_handler is its first test, and the rest. -/
theorem unregisterLocked_eq (g : Globals cfg) (index : Int)
    : unregisterLocked g index
      = if index < 0 ∨ index ≥ cfg.kprintfMaxHandlers then (g, kprintfErrInvalidIndex)
        else ApiPc.rest g (.unregTestCb index.toNat) := by
  by_cases outside : index < 0 ∨ index ≥ cfg.kprintfMaxHandlers
  · simp [unregisterLocked, outside]
  · have same : (index.toNat : Int) = index := Int.toNat_of_nonneg (by omega)
    simp only [unregisterLocked, ApiPc.rest, if_neg outside, clearAt, countDown, same]

/-- Every step between the semaphore calls does a part of what is left, by cases of the
program point.
-/
theorem apiStep_rest {thread : ThreadRef} {sh sh' : Shared cfg} {api api' : ApiPc}
    {choice : Choice cfg} (ran : apiStep thread sh api choice = .next (sh', api'))
    (locked : api.locked = true) (locked' : api'.locked = true)
    : api'.rest sh'.g = api.rest sh.g := by
  cases api with
  | regTestDefault args =>
      simp only [apiStep, Choice.onGo_eq_next, StepResult.next.injEq] at ran
      obtain ⟨_, ran⟩ := ran
      have whole : ApiPc.rest sh.g (.regTestDefault args) = _ := registerLocked_eq sh.g args
      split at ran <;> cases ran
      · rename_i known
        rw [whole, if_pos known]
        rfl
      · rename_i unknown
        rw [whole, if_neg unknown]
  | regTestCount args =>
      simp only [apiStep, Choice.onGo_eq_next, StepResult.next.injEq] at ran
      obtain ⟨_, ran⟩ := ran
      split at ran <;> cases ran
      · rename_i full
        simp [ApiPc.rest, full]
      · rename_i room
        simp [ApiPc.rest, room]
  | regFind args i =>
      simp only [apiStep, Choice.onGo_eq_next, StepResult.next.injEq] at ran
      obtain ⟨_, ran⟩ := ran
      split at ran
      · rename_i bound
        split at ran <;> cases ran
        · rename_i free
          simp [ApiPc.rest, findFreeFrom_next bound, free, storeFound]
        · rename_i used
          simp [ApiPc.rest, findFreeFrom_next bound, used]
      · rename_i out
        cases ran
        simp [ApiPc.rest, findFreeFrom_end out, storeFound]
  | regSetDefault args index =>
      simp only [apiStep, Choice.onGo_eq_next, StepResult.next.injEq] at ran
      obtain ⟨_, ran⟩ := ran
      split at ran <;> cases ran
      · rename_i marks
        simp [ApiPc.rest, storeAt, marks]
      · rename_i plain
        simp [ApiPc.rest, storeAt, plain]
  | unregTestIndex index =>
      simp only [apiStep, Choice.onGo_eq_next, StepResult.next.injEq] at ran
      obtain ⟨_, ran⟩ := ran
      have whole : ApiPc.rest sh.g (.unregTestIndex index) = _ := unregisterLocked_eq sh.g index
      split at ran <;> cases ran
      · rename_i outside
        rw [whole, if_pos outside]
        rfl
      · rename_i inside
        rw [whole, if_neg inside]
  | unregTestCb index =>
      simp only [apiStep, Choice.onGo_eq_next, StepResult.next.injEq] at ran
      obtain ⟨_, ran⟩ := ran
      split at ran <;> cases ran
      · rename_i free
        simp [ApiPc.rest, free]
      · rename_i used
        simp [ApiPc.rest, used]
  | unregDefault index =>
      simp only [apiStep, Choice.onGo_eq_next, StepResult.next.injEq] at ran
      obtain ⟨_, ran⟩ := ran
      split at ran <;> cases ran
      · rename_i marked
        simp [ApiPc.rest, clearAt, marked]
      · rename_i plain
        simp [ApiPc.rest, clearAt, plain]
  | regSetCb | regSetArg | regCount | unregClearCb | unregClearArg | unregCount =>
      simp only [apiStep, Choice.onGo_eq_next, StepResult.next.injEq, Prod.mk.injEq] at ran
      obtain ⟨_, rfl, rfl⟩ := ran
      rfl
  | signal isDefaultHandler ret =>
      simp only [apiStep, Choice.onGo_eq_next, StepResult.next.injEq, Prod.mk.injEq] at ran
      obtain ⟨_, rfl, rfl⟩ := ran
      have free := afterRegister_free isDefaultHandler
        (if (sh.k.sceKernelSignalSema sh.g.gSemid).2 < 0 then
          (sh.k.sceKernelSignalSema sh.g.gSemid).2 else ret)
      rw [(ApiPc.free_iff.mp free).2] at locked'
      contradiction
  | regWait | unregWait | announce | dipsw | registerHook | done => simp [ApiPc.locked] at locked

/-- The handler table of the globals: the slots, their count and the default index. -/
def Globals.table (g : Globals cfg) : Vector RegHandler cfg.kprintfMaxHandlers × U32 × Int :=
  (g.gHandlers, g.gHandlerCount, g.gDefaultHandlerIndex)

/-- The globals with the table of others. -/
def Globals.withTable (g table : Globals cfg) : Globals cfg :=
  { g with
    gHandlers := table.gHandlers
    gHandlerCount := table.gHandlerCount
    gDefaultHandlerIndex := table.gDefaultHandlerIndex }

/-- Globals with the same table are that table among other globals. -/
theorem Globals.eq_withTable {g table : Globals cfg} (same : g.table = table.table)
    : g = g.withTable table := by
  obtain ⟨handlers, count, default⟩ : g.gHandlers = table.gHandlers
      ∧ g.gHandlerCount = table.gHandlerCount
      ∧ g.gDefaultHandlerIndex = table.gDefaultHandlerIndex := by
    simpa [Globals.table] using same
  rw [withTable, ← handlers, ← count, ← default]

/-- A step that keeps the table keeps all of it. -/
theorem Shared.SameTable.table {sh sh' : Shared cfg} (same : sh.SameTable sh')
    : sh'.g.table = sh.g.table := by
  rw [Globals.table, same.handlers, same.count, same.default]
  rfl

/-- What is left of a function depends on the table only, and changes nothing else. -/
theorem ApiPc.rest_withTable (g table : Globals cfg) (api : ApiPc)
    : api.rest (g.withTable table) = (g.withTable (api.rest table).1, (api.rest table).2) := by
  have store (args : RegArgs) (index : Nat) :
      storeAt (g.withTable table) args index
        = (g.withTable (storeAt table args index).1, (storeAt table args index).2) := by
    unfold storeAt
    split <;> rfl
  have found (args : RegArgs) (index : Option Nat) :
      storeFound (g.withTable table) args index
        = (g.withTable (storeFound table args index).1, (storeFound table args index).2) := by
    cases index with
    | none => rfl
    | some index => exact store args index
  have clear (index : Nat) :
      clearAt (g.withTable table) index
        = (g.withTable (clearAt table index).1, (clearAt table index).2) := by
    have same : (g.withTable table).gDefaultHandlerIndex = table.gDefaultHandlerIndex := rfl
    unfold clearAt
    rw [same]
    split <;> rfl
  have count (args : RegArgs) :
      ApiPc.rest (g.withTable table) (.regTestCount args)
        = (g.withTable (ApiPc.rest table (.regTestCount args)).1,
            (ApiPc.rest table (.regTestCount args)).2) := by
    have same : (g.withTable table).gHandlerCount = table.gHandlerCount := rfl
    simp only [ApiPc.rest, same]
    split
    · rfl
    · exact found args _
  have used (index : Nat) :
      ApiPc.rest (g.withTable table) (.unregTestCb index)
        = (g.withTable (ApiPc.rest table (.unregTestCb index)).1,
            (ApiPc.rest table (.unregTestCb index)).2) := by
    have same : (g.withTable table).callbackAt index = table.callbackAt index := rfl
    simp only [ApiPc.rest, same]
    split
    · rfl
    · exact clear index
  cases api with
  | regTestDefault args =>
      have same : (g.withTable table).gDefaultHandlerIndex = table.gDefaultHandlerIndex := rfl
      simp only [rest]
      rw [registerLocked_eq, registerLocked_eq, same]
      split
      · rfl
      · exact count args
  | unregTestIndex index =>
      simp only [rest]
      rw [unregisterLocked_eq, unregisterLocked_eq]
      split
      · rfl
      · exact used _
  | regTestCount args => exact count args
  | regFind args i => exact found args _
  | regSetDefault args index => exact store args index
  | unregTestCb index => exact used index
  | unregDefault index => exact clear index
  | _ => rfl

/-- Globals with the same table have the same left to do, with the same result. -/
theorem ApiPc.rest_table {g g' : Globals cfg} (same : g'.table = g.table) (api : ApiPc)
    : (api.rest g').1.table = (api.rest g).1.table ∧ (api.rest g').2 = (api.rest g).2 := by
  rw [Globals.eq_withTable same, rest_withTable]
  exact ⟨rfl, rfl⟩

/-- A step of a thread that is not between the semaphore calls of its function leaves the
table alone.
-/
theorem EventEffect.table_unlocked {thid : Uid} {sh sh' : Shared cfg} {pc pc' : EventPc}
    (effect : EventEffect thid sh pc sh' pc') (unlocked : pc.inApi.locked = false)
    : sh.SameTable sh' := by
  refine effect.table (fun call api nested => ?_) ?_
  · cases pc with
    | flush => simpa [EventPc.inApi, nested, ClientPc.locked] using unlocked
    | _ => simp [EventPc.nested] at nested
  · rintro api rfl
    simpa [EventPc.inApi, ClientPc.locked] using unlocked

/-- While a thread is between the semaphore calls of its function, each step of the system is
the next of the function or leaves the table and the thread alone.
-/
theorem section_step {s t : State cfg} {action : Action cfg} (exclusion : Exclusion s)
    (inside : s.loader.inSession = true) (single : SingleSession s action)
    (stepped : s.step action = some t) {thread : ThreadRef} {call : ApiCall} {api : ApiPc}
    (engaged : s.inApi thread = some (call, api)) (locked : api.locked = true)
    : (s.sh.SameTable t.sh ∧ t.inApi thread = some (call, api))
      ∨ ∃ choice api', apiStep thread s.sh api choice = .next (t.sh, api')
          ∧ t.inApi thread = some (call, api') := by
  have holds : (s.inApi thread).locked = true := by simpa [engaged, ClientPc.locked] using locked
  have own {sh' : Shared cfg} {after : ClientPc}
      (move : CallMove thread s.sh sh' (s.inApi thread) after) :
      ∃ choice api', apiStep thread s.sh api choice = .next (sh', api')
        ∧ after = some (call, api') := by
    rw [engaged] at move
    cases move with
    | run ran => exact ⟨_, _, ran, rfl⟩
    | leave => contradiction
  cases State.step_cases stepped with
  | crash | overRegister => exact Or.inl ⟨⟨rfl, rfl, rfl⟩, by cases thread <;> exact engaged⟩
  | kprintf printed =>
      exact Or.inl ⟨kprintf_table printed, by cases thread <;> exact engaged⟩
  | loader ran =>
      obtain ⟨effect, rfl⟩ := loaderStep_effect ran inside (not_start single inside)
      exact Or.inl ⟨effect.table, by cases thread <;> exact engaged⟩
  | @event thid choice sh' pc' ran =>
      have effect := eventStep_effect ran
      rw [inApi_event]
      by_cases self : thread = .event thid
      · subst self
        rw [Function.update_self]
        exact Or.inr (own effect.callMove)
      · rw [Function.update_of_ne self]
        have apart := exclusion.alone thread holds (.event thid) (Ne.symm self)
        exact Or.inl ⟨effect.table_unlocked apart, engaged⟩
  | @client n choice sh' pc' ran =>
      have effect := clientStep_effect ran
      rw [inApi_client]
      by_cases self : thread = .client n
      · subst self
        rw [Function.update_self]
        exact Or.inr (own effect.callMove)
      · rw [Function.update_of_ne self]
        have apart := exclusion.alone thread holds (.client n) (Ne.symm self)
        exact Or.inl ⟨effect.table apart, engaged⟩

/-- The thread has not left its semaphore calls yet, in a single session. -/
def InSection (thread : ThreadRef) (s : State cfg) (action : Action cfg) : Prop :=
  SingleSession s action ∧ (s.inApi thread).locked = true

/-- What the thread has left to do between its semaphore calls comes to this table and result. -/
def Computes (thread : ThreadRef) (result : Globals cfg × Int) (s : State cfg) : Prop :=
  ∀ call api, s.inApi thread = some (call, api) → api.locked = true →
    (api.rest s.sh.g).1.table = result.1.table ∧ (api.rest s.sh.g).2 = result.2

/-- Every step keeps it: a step of the thread does a part of what is left, the others leave the
table alone.
-/
theorem Computes.step {s t : State cfg} {action : Action cfg} {thread : ThreadRef}
    {result : Globals cfg × Int} (computes : Computes thread result s) (exclusion : Exclusion s)
    (inside : s.loader.inSession = true) (held : InSection thread s action)
    (stepped : s.step action = some t)
    : Computes thread result t := by
  obtain ⟨single, holds⟩ := held
  obtain ⟨⟨call, api⟩, engaged, locked⟩ := Option.any_eq_true _ _ |>.mp holds
  have left := computes call api engaged locked
  intro call' api' engaged' locked'
  rcases section_step exclusion inside single stepped engaged locked with
    ⟨same, after⟩ | ⟨choice, next, ran, after⟩
  · rw [after] at engaged'
    cases engaged'
    obtain ⟨table, ret⟩ := ApiPc.rest_table same.table api
    exact ⟨table.trans left.1, ret.trans left.2⟩
  · rw [after] at engaged'
    cases engaged'
    rwa [apiStep_rest ran locked locked']

/-- From a point between the semaphore calls of a function on, whatever the other threads do,
the function does what it has left to do as sequential code.
-/
theorem section_rest {s t : State cfg} (reach : (machine cfg).Reachable SingleSession s)
    (inside : s.loader.inSession = true) {thread : ThreadRef} {call call' : ApiCall}
    {api : ApiPc} {isDefaultHandler : Bool} {ret : Int}
    (engaged : s.inApi thread = some (call, api))
    (path : (machine cfg).Path (InSection thread) s t)
    (finished : t.inApi thread = some (call', .signal isDefaultHandler ret))
    : t.sh.g.table = (api.rest s.sh.g).1.table ∧ ret = (api.rest s.sh.g).2 := by
  have kept : (machine cfg).Reachable SingleSession t ∧ t.loader.inSession = true
      ∧ Computes thread (api.rest s.sh.g) t := by
    refine path.preserves (P := fun t : State cfg =>
      (machine cfg).Reachable SingleSession t ∧ t.loader.inSession = true
        ∧ Computes thread (api.rest s.sh.g) t) ⟨reach, inside, ?_⟩ ?_
    · intro call' api' engaged' _
      rw [engaged] at engaged'
      cases engaged'
      exact ⟨rfl, rfl⟩
    · intro u action v ⟨reach, inside, computes⟩ held stepped
      exact ⟨reach.step held.1 stepped, inSession_step held.1 inside stepped,
        computes.step (exclusion reach inside) inside held stepped⟩
  exact kept.2.2 _ _ finished rfl

section Sections

variable {s t : State cfg} {thread : ThreadRef} {call call' : ApiCall} {m : HandlerMap cfg}
variable {isDefaultHandler : Bool} {ret : Int}

/-- Globals with the table of a represented map represent it in a started module. -/
theorem Represents.of_table {g g' : Globals cfg} (represents : Represents g m)
    (same : g'.table = g.table) (started : g'.gState = .started)
    : Represents g' m := by
  have shape := Globals.eq_withTable same
  refine ⟨started, fun i => ?_, ?_, ?_⟩
  · rw [shape]
    exact represents.slots i
  · rw [shape]
    exact represents.count
  · rw [shape]
    exact represents.default

/-- A register_handler that has got the semaphore adds its pair to the map, with the result
that the map gives, whatever the other threads do meanwhile.
-/
theorem register_section (reach : (machine cfg).Reachable SingleSession s)
    (inside : s.loader.inSession = true) {args : RegArgs}
    (entered : s.inApi thread = some (call, .regTestDefault args))
    (path : (machine cfg).Path (InSection thread) s t)
    (finished : t.inApi thread = some (call', .signal isDefaultHandler ret))
    (started : t.sh.g.gState = .started) (represents : Represents s.sh.g m)
    (single : args.isDefaultHandler = true → m.marked = none)
    : Represents t.sh.g (m.register (args.cb, args.arg) args.isDefaultHandler single).1
      ∧ ret = (m.register (args.cb, args.arg) args.isDefaultHandler single).2 := by
  obtain ⟨table, result⟩ := section_rest reach inside entered path finished
  obtain ⟨refined, same⟩ := represents.registerLocked args.cb args.arg single
  exact ⟨refined.of_table table started, result.trans same⟩

/-- So an unregister_handler for a used slot erases its entry. -/
theorem unregister_section (reach : (machine cfg).Reachable SingleSession s)
    (inside : s.loader.inSession = true) {index : Nat}
    (entered : s.inApi thread = some (call, .unregTestIndex index))
    (path : (machine cfg).Path (InSection thread) s t)
    (finished : t.inApi thread = some (call', .signal isDefaultHandler ret))
    (started : t.sh.g.gState = .started) (represents : Represents s.sh.g m)
    (used : m.slot index ≠ none)
    : Represents t.sh.g (m.erase index) ∧ ret = 0 := by
  obtain ⟨table, result⟩ := section_rest reach inside entered path finished
  obtain ⟨refined, same⟩ := represents.unregisterLocked used
  exact ⟨refined.of_table table started, result.trans same⟩

end Sections

end LibKprintf
