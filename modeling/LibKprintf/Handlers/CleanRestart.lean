import LibKprintf.Handlers.Dispatch
import LibKprintf.Handlers.Restart

/-! What a new session sees of the ones before: when the slots of the table are empty at the
start, the new session calls no callback of an earlier one, and its registry functions answer
as in a fresh module.
-/

namespace LibKprintf

open Foundation

variable {cfg : Config}

/-- The number of slots with a callback. -/
def Globals.occupied (g : Globals cfg) : Nat :=
  (List.range cfg.kprintfMaxHandlers).countP (fun i => (g.callbackAt i).isSome)

/-- A call that registers the callback has been made. -/
def RegisteredIn (history : List Event) (cb : Callback) : Prop :=
  ∃ thread call arg, .called thread call ∈ history ∧ call.Registers cb arg

/-- Every callback that is called has been registered before, within the same history. -/
def CallsKnown (history : List Event) : Prop :=
  Always (fun past event =>
    ∀ stamp slot cb arg, event = .invoked stamp slot cb arg → RegisteredIn past cb) history

/-- What a sequence of registry calls answers. -/
def tableResults (g : Globals cfg) : List TableStep → List Int
  | [] => []
  | step :: rest => (step.run g).2 :: tableResults (step.run g).1 rest

/-- The state right after init is that of a fresh module, and so is what comes of it. -/
structure CleanRestart (t : State cfg) : Prop where
  slots : ∀ i, t.sh.g.callbackAt i = none
  count : t.sh.g.gHandlerCount.toNat = t.sh.g.occupied
  zero : t.sh.g.gHandlerCount = 0
  default : t.sh.g.gDefaultHandlerIndex = -1
  head : t.sh.g.gHead = 0
  quiet
    : ∀ u, (machine cfg).Path NoStart t u →
        ∃ late, u.sh.history = t.sh.history ++ late ∧ CallsKnown late
  results
    : ∀ g : Globals cfg, FreshTable g → ∀ steps, tableResults t.sh.g steps = tableResults g steps

namespace HandlerMap

variable {m m' : HandlerMap cfg}

/-- The maps use the same slots, and mark the same entry. -/
def Alike (m m' : HandlerMap cfg) : Prop :=
  ∀ i, (m.slot i).map Prod.snd = (m'.slot i).map Prod.snd

/-- A slot is free in both maps or in none. -/
theorem Alike.free_iff (alike : Alike m m') (i : Nat) : m.slot i = none ↔ m'.slot i = none := by
  rw [← Option.map_eq_none_iff (f := Prod.snd), alike i, Option.map_eq_none_iff]

/-- Both have the same lowest free slot. -/
theorem Alike.lowestFree (alike : Alike m m') : m.lowestFree = m'.lowestFree := by
  unfold SlotMap.lowestFree
  congr 1
  funext i
  rw [Bool.eq_iff_iff, Option.isNone_iff_eq_none, Option.isNone_iff_eq_none, alike.free_iff i]

/-- Both have the same marked entry. -/
theorem Alike.marked (alike : Alike m m') : m.marked = m'.marked := by
  have any (m : HandlerMap cfg) (i : Nat) :
      (m.slot i).any Prod.snd = ((m.slot i).map Prod.snd).any id := by
    cases m.slot i <;> rfl
  unfold SlotMap.marked
  congr 1
  funext i
  rw [any, any, alike i]

/-- A registration keeps them alike, and answers the same, whatever the pairs are. -/
theorem Alike.register (alike : Alike m m') (pair pair' : Callback × U32) {mark : Bool}
    (single : mark = true → m.marked = none) (single' : mark = true → m'.marked = none)
    : Alike (m.register pair mark single).1 (m'.register pair' mark single').1
      ∧ (m.register pair mark single).2 = (m'.register pair' mark single').2 := by
  cases found : m.lowestFree with
  | none =>
      rw [register_full found, register_full (alike.lowestFree.symm.trans found)]
      exact ⟨alike, rfl⟩
  | some i =>
      rw [register_place found, register_place (alike.lowestFree.symm.trans found)]
      refine ⟨fun j => ?_, rfl⟩
      rw [SlotMap.put_slot, SlotMap.put_slot]
      by_cases same : j = i
      · simp [same]
      · simpa [same] using alike j

/-- So does every call. -/
theorem Alike.call (alike : Alike m m') (stdout stdout' : Uid) (step : TableStep)
    : Alike (m.call stdout step).1 (m'.call stdout' step).1
      ∧ (m.call stdout step).2 = (m'.call stdout' step).2 := by
  obtain ⟨call, wait, signal, signals⟩ := step
  cases call with
  | registerHandler cb arg =>
      cases cb with
      | none => exact ⟨alike, rfl⟩
      | some cb =>
          simp only [HandlerMap.call]
          split
          · exact ⟨alike, rfl⟩
          · exact alike.register _ _ _ _
  | registerDefaultHandler =>
      simp only [HandlerMap.call]
      split
      · exact ⟨alike, rfl⟩
      · have marks := alike.marked
        split <;> split
        · exact ⟨alike, by simp_all⟩
        · simp_all
        · simp_all
        · exact alike.register _ _ _ _
  | unregisterHandler index =>
      simp only [HandlerMap.call, alike.free_iff]
      split
      · exact ⟨alike, rfl⟩
      · split
        · exact ⟨alike, rfl⟩
        · split
          · exact ⟨alike, rfl⟩
          · refine ⟨fun j => ?_, rfl⟩
            rw [SlotMap.erase_slot, SlotMap.erase_slot]
            by_cases same : j = index.toNat
            · simp [same]
            · simpa [same] using alike j

end HandlerMap

/-- Tables that hold maps which are alike answer the same; by induction on the calls. -/
theorem tableResults_alike {g g' : Globals cfg} {m m' : HandlerMap cfg}
    (represents : Represents g m) (represents' : Represents g' m')
    (alike : HandlerMap.Alike m m') (steps : List TableStep)
    : tableResults g steps = tableResults g' steps := by
  induction steps generalizing g g' m m' with
  | nil => rfl
  | cons step rest ih =>
      obtain ⟨after, result⟩ := represents.step step
      obtain ⟨after', result'⟩ := represents'.step step
      obtain ⟨alike', same⟩ := alike.call g.gStdout g'.gStdout step
      simp only [tableResults, result, result', same, ih after after' alike']

/-- A started module with empty slots, count 0 and no default index holds the empty map. -/
theorem represents_empty {g : Globals cfg} (started : g.gState = .started)
    (slots : ∀ i, g.callbackAt i = none) (count : g.gHandlerCount = 0)
    (default : g.gDefaultHandlerIndex = -1)
    : Represents g (.empty : HandlerMap cfg) where
  started := started
  slots := fun i => Globals.pairAt_eq_none.mpr (slots i)
  count := by simp [count, SlotMap.card, SlotMap.empty]
  default := by
    have nobody : (SlotMap.empty : HandlerMap cfg).marked = none :=
      SlotMap.marked_eq_none.mpr fun i marks => by simp [SlotMap.Marked, SlotMap.empty] at marks
    rw [default, nobody]
    rfl

-----------------------------------------------------------------------------------------
-- The callbacks of the new session
-----------------------------------------------------------------------------------------

/-- The arguments of a register_handler that has not stored its callback yet. -/
def ApiPc.args : ApiPc → Option RegArgs
  | .regWait args _ | .regTestDefault args | .regTestCount args | .regFind args _
  | .regSetDefault args _ | .regSetCb args _ => some args
  | _ => none

/-- A call enters with arguments only if it registers them. -/
theorem apiEntry_args {sh : Shared cfg} {call : ApiCall} {args : RegArgs}
    (carries : (apiEntry sh call).args = some args)
    : call.Registers args.cb args.arg := by
  cases call with
  | registerHandler cb arg =>
      simp only [apiEntry, registerEntry] at carries
      split at carries
      · contradiction
      · cases cb with
        | none => contradiction
        | some cb =>
            cases carries
            exact ⟨rfl, rfl⟩
  | registerDefaultHandler =>
      simp only [apiEntry, registerEntry] at carries
      split at carries
      · contradiction
      · cases carries
        rfl
  | unregisterHandler index =>
      simp only [apiEntry] at carries
      split at carries <;> contradiction
  | install | isStarted => contradiction

/-- A step of an exported function passes its arguments on, and stores no other callback; by
cases of the program point.
-/
theorem apiStep_args {thread : ThreadRef} {sh sh' : Shared cfg} {api api' : ApiPc}
    {choice : Choice cfg} (ran : apiStep thread sh api choice = .next (sh', api'))
    : (∀ args, api'.args = some args → api.args = some args)
      ∧ ∀ i cb, sh'.g.callbackAt i = some cb →
          sh.g.callbackAt i = some cb ∨ ∃ args, api.args = some args ∧ args.cb = cb := by
  have keeps (handlers : sh'.g.gHandlers = sh.g.gHandlers) (i : Nat) (cb : Callback)
      (held : sh'.g.callbackAt i = some cb) :
      sh.g.callbackAt i = some cb ∨ ∃ args, api.args = some args ∧ args.cb = cb := by
    rw [Globals.callbackAt, handlers] at held
    exact Or.inl held
  have none (isDefaultHandler : Bool) (ret : Int) :
      (afterRegister isDefaultHandler ret).args = Option.none := by
    unfold afterRegister
    split <;> rfl
  cases api with
  | regWait args semid =>
      simp only [apiStep, Choice.onKernel_eq_next, StepResult.map_eq_next, Prod.mk.injEq] at ran
      obtain ⟨_, k, _, rfl, rfl⟩ | ⟨code, _, _, rfl, rfl⟩ := ran
      · exact ⟨fun _ same => same, keeps rfl⟩
      · exact ⟨by simp [none], keeps rfl⟩
  | unregWait index semid =>
      simp only [apiStep, Choice.onKernel_eq_next, StepResult.map_eq_next, Prod.mk.injEq] at ran
      obtain ⟨_, k, _, rfl, rfl⟩ | ⟨code, _, _, rfl, rfl⟩ := ran <;>
        exact ⟨by simp [ApiPc.args], keeps rfl⟩
  | regTestDefault args | regTestCount args | regFind args slot | regSetDefault args slot =>
      simp only [apiStep, Choice.onGo_eq_next, StepResult.next.injEq] at ran
      obtain ⟨_, ran⟩ := ran
      split at ran
      · first
          | cases ran
            exact ⟨by simp [ApiPc.args], keeps rfl⟩
          | split at ran <;> cases ran <;> exact ⟨by simp [ApiPc.args], keeps rfl⟩
      · cases ran
        exact ⟨by simp [ApiPc.args], keeps rfl⟩
  | regSetCb args slot =>
      simp only [apiStep, Choice.onGo_eq_next, StepResult.next.injEq, Prod.mk.injEq] at ran
      obtain ⟨_, rfl, rfl⟩ := ran
      refine ⟨by simp [ApiPc.args], fun i cb held => ?_⟩
      rcases Globals.callbackAt_setCb_cases held with stored | before
      · exact Or.inr ⟨args, rfl, Option.some.inj stored⟩
      · exact Or.inl before
  | regSetArg args slot =>
      simp only [apiStep, Choice.onGo_eq_next, StepResult.next.injEq, Prod.mk.injEq] at ran
      obtain ⟨_, rfl, rfl⟩ := ran
      refine ⟨by simp [ApiPc.args], fun i cb held => Or.inl ?_⟩
      rwa [Shared.note_g, Globals.callbackAt_setArg] at held
  | unregClearCb slot =>
      simp only [apiStep, Choice.onGo_eq_next, StepResult.next.injEq, Prod.mk.injEq] at ran
      obtain ⟨_, rfl, rfl⟩ := ran
      refine ⟨by simp [ApiPc.args], fun i cb held => Or.inl ?_⟩
      rcases Globals.callbackAt_setCb_cases held with stored | before
      · contradiction
      · exact before
  | unregClearArg slot =>
      simp only [apiStep, Choice.onGo_eq_next, StepResult.next.injEq, Prod.mk.injEq] at ran
      obtain ⟨_, rfl, rfl⟩ := ran
      refine ⟨by simp [ApiPc.args], fun i cb held => Or.inl ?_⟩
      rwa [Globals.callbackAt_setArg] at held
  | unregTestIndex | unregTestCb | unregDefault =>
      simp only [apiStep, Choice.onGo_eq_next, StepResult.next.injEq] at ran
      obtain ⟨_, ran⟩ := ran
      split at ran <;> cases ran <;> exact ⟨by simp [ApiPc.args], keeps rfl⟩
  | regCount | unregCount | registerHook =>
      simp only [apiStep, Choice.onGo_eq_next, StepResult.next.injEq, Prod.mk.injEq] at ran
      obtain ⟨_, rfl, rfl⟩ := ran
      exact ⟨by simp [ApiPc.args], keeps rfl⟩
  | signal isDefaultHandler ret =>
      simp only [apiStep, Choice.onGo_eq_next, StepResult.next.injEq, Prod.mk.injEq] at ran
      obtain ⟨_, rfl, rfl⟩ := ran
      exact ⟨by simp [none], keeps rfl⟩
  | announce =>
      simp only [apiStep, StepResult.map_eq_next, Choice.onKprintf_eq_next, Prod.mk.injEq] at ran
      obtain ⟨_, ⟨_, rfl⟩ | ⟨during, _, printed⟩, rfl, rfl⟩ := ran
      · exact ⟨by simp [ApiPc.args], keeps rfl⟩
      · exact ⟨by simp [ApiPc.args], keeps (kprintf_table printed).handlers⟩
  | dipsw =>
      simp only [apiStep, Choice.onKernel_eq_next, StepResult.next.injEq, Prod.mk.injEq] at ran
      obtain ⟨_, rfl, rfl⟩ | ⟨code, _, _, rfl, rfl⟩ := ran <;>
        exact ⟨by simp [ApiPc.args], keeps rfl⟩
  | done ret => contradiction

/-- flush_messages calls only what is in the table. -/
theorem flushStep_invoked {thid : Uid} {sh sh' : Shared cfg} {pc : FlushPc}
    {pc' : Option FlushPc} {choice : Choice cfg} {events : List Event} {stamp slot : Nat}
    {cb : Callback} {arg : U32} (stepped : flushStep thid sh pc choice = .next (sh', pc'))
    (history : sh'.history = sh.history ++ events) (called : .invoked stamp slot cb arg ∈ events)
    : sh.g.callbackAt slot = some cb := by
  have nothing (same : sh' = sh) : sh.g.callbackAt slot = some cb := by
    rw [same, List.self_eq_append_right] at history
    simp [history] at called
  have noted {event : Event} (same : sh'.history = sh.history ++ [event]) :
      event = .invoked stamp slot cb arg := by
    rw [same, List.append_cancel_left_eq] at history
    rw [← history, List.mem_singleton] at called
    exact called.symm
  cases pc with
  | start | advance n =>
      simp only [flushStep, Choice.onGo_eq_next, StepResult.next.injEq, Prod.mk.injEq] at stepped
      exact nothing stepped.2.1.symm
  | test m =>
      simp only [flushStep, Choice.onGo_eq_next, StepResult.next.injEq] at stepped
      obtain ⟨_, stepped⟩ := stepped
      split at stepped <;> cases stepped
      · exact nothing rfl
      · exact absurd (noted rfl) (by simp)
  | slot m i =>
      simp only [flushStep, Choice.onGo_eq_next, StepResult.next.injEq] at stepped
      obtain ⟨_, stepped⟩ := stepped
      split at stepped
      · split at stepped <;> cases stepped <;> exact nothing rfl
      · cases stepped
        exact nothing rfl
  | invoke m i =>
      simp only [flushStep, Choice.onGo_eq_next] at stepped
      obtain ⟨_, stepped⟩ := stepped
      split at stepped
      · rename_i held
        split at stepped
        · cases stepped
          cases noted rfl
          simp [Globals.callbackAt, held]
        · contradiction
      · contradiction
  | callback m i inside nested =>
      cases flushStep_effect stepped with
      | read place | observe _ place => simp [FlushPc.inCallback] at place
      | callbackReturns | callbackCalls => exact absurd (noted rfl) (by simp)
      | nested ran =>
          obtain ⟨events', history', kinds⟩ := apiCallStep_events ran
          rw [history', List.append_cancel_left_eq] at history
          subst history
          exact absurd (kinds _ called).1 (by simp [Event.ofDispatch])
  | delivered m =>
      simp only [flushStep, Choice.onGo_eq_next, StepResult.next.injEq, Prod.mk.injEq] at stepped
      obtain ⟨_, rfl, rfl⟩ := stepped
      exact absurd (noted rfl) (by simp)
  | readNext m =>
      simp only [flushStep, Choice.onGo_eq_next, StepResult.map_eq_next, Prod.mk.injEq] at stepped
      obtain ⟨_, n, _, same, _⟩ := stepped
      exact nothing same.symm
  | remove m n =>
      simp only [flushStep, Choice.onGo_eq_next, StepResult.map_eq_next, Prod.exists,
        StepResult.ofMemory_eq_next, Prod.mk.injEq] at stepped
      obtain ⟨_, _, ret, removed, rfl, rfl⟩ := stepped
      obtain ⟨head, mem, events', freed, rfl⟩ := removeDeleteMsg_effect removed
      obtain rfl : events' = events := by simpa using history
      obtain ⟨_, same⟩ := freed _ called
      contradiction

/-- So does an event thread. -/
theorem eventStep_invoked {thid : Uid} {sh sh' : Shared cfg} {pc pc' : EventPc}
    {choice : Choice cfg} {events : List Event} {stamp slot : Nat} {cb : Callback} {arg : U32}
    (stepped : eventStep thid sh pc choice = .next (sh', pc'))
    (history : sh'.history = sh.history ++ events) (called : .invoked stamp slot cb arg ∈ events)
    : sh.g.callbackAt slot = some cb := by
  have nothing (same : sh'.history = sh.history) : sh.g.callbackAt slot = some cb := by
    rw [same, List.self_eq_append_right] at history
    simp [history] at called
  cases eventStep_effect stepped with
  | flush flushed => exact flushStep_invoked flushed history called
  | register ran =>
      obtain ⟨events', history', kinds⟩ := apiCallStep_events ran
      rw [history', List.append_cancel_left_eq] at history
      subst history
      exact absurd (kinds _ called).1 (by simp [Event.ofDispatch])
  | callRegister =>
      rw [Shared.note_history, List.append_cancel_left_eq] at history
      simp [← history] at called
  | stopOk =>
      rw [Shared.acknowledge_history, List.append_cancel_left_eq] at history
      simp [← history] at called
  | move | wake | acquire | release | resend => exact nothing rfl

/-- A callback that has been registered stays so in a longer history. -/
theorem RegisteredIn.append {late : List Event} {cb : Callback} (registered : RegisteredIn late cb)
    (events : List Event)
    : RegisteredIn (late ++ events) cb := by
  obtain ⟨thread, call, arg, member, registers⟩ := registered
  exact ⟨thread, call, arg, List.mem_append_left _ member, registers⟩

/-- Events that call only what has been registered keep it; by induction on the events. -/
theorem CallsKnown.append {late events : List Event} (known : CallsKnown late)
    (registered
      : ∀ stamp slot cb arg, .invoked stamp slot cb arg ∈ events → RegisteredIn late cb)
    : CallsKnown (late ++ events) := by
  induction events using List.reverseRecOn with
  | nil => simpa using known
  | append_singleton events event ih =>
      rw [CallsKnown, ← List.append_assoc, always_concat]
      refine ⟨ih fun stamp slot cb arg member => ?_, ?_⟩
      · exact registered stamp slot cb arg (List.mem_append_left _ member)
      · rintro stamp slot cb arg rfl
        exact (registered stamp slot cb arg (by simp)).append events

/-- Who knows a callback has it from a call in the history: a running register_handler from its
own, and the table from an earlier one.
-/
structure Known (s : State cfg) (late : List Event) : Prop where
  running
    : ∀ thread call api args, s.inApi thread = some (call, api) → api.args = some args →
        RegisteredIn late args.cb
  table : ∀ i cb, s.sh.g.callbackAt i = some cb → RegisteredIn late cb
  calls : CallsKnown late

/-- A step that moves no thread, leaves the table alone and calls nothing keeps it. -/
theorem Known.quiet {s t : State cfg} {late events : List Event} (known : Known s late)
    (engaged : ∀ thread running, t.inApi thread = some running → s.inApi thread = some running)
    (handlers : t.sh.g.gHandlers = s.sh.g.gHandlers)
    (silent : ∀ event ∈ events, event.ofDispatch = false)
    : Known t (late ++ events) where
  running := fun thread call api args inside carries =>
    (known.running thread call api args (engaged thread _ inside) carries).append events
  table := fun i cb held => by
    rw [Globals.callbackAt, handlers] at held
    exact (known.table i cb held).append events
  calls := known.calls.append fun stamp slot cb arg member =>
    absurd (silent _ member) (by simp [Event.ofDispatch])

/-- So does a step of a thread, by cases of how it moves the thread's call. -/
theorem Known.move {s t : State cfg} {late : List Event} {thread : ThreadRef} {after : ClientPc}
    (known : Known s late) (move : CallMove thread s.sh t.sh (s.inApi thread) after)
    (moved : t.inApi = Function.update s.inApi thread after)
    (invoked
      : ∀ events stamp slot cb arg, t.sh.history = s.sh.history ++ events →
          .invoked stamp slot cb arg ∈ events → s.sh.g.callbackAt slot = some cb)
    : ∃ events, t.sh.history = s.sh.history ++ events ∧ Known t (late ++ events) := by
  have calls {events : List Event} (history : t.sh.history = s.sh.history ++ events) :
      CallsKnown (late ++ events) :=
    known.calls.append fun stamp slot cb arg member =>
      known.table slot cb (invoked events stamp slot cb arg history member)
  have others {events : List Event} {other : ThreadRef} (different : other ≠ thread) {call api args}
      (inside : t.inApi other = some (call, api)) (carries : api.args = some args) :
      RegisteredIn (late ++ events) args.cb := by
    rw [moved, Function.update_of_ne different] at inside
    exact (known.running other call api args inside carries).append events
  generalize here : s.inApi thread = before at move
  cases move with
  | @outside events history _ handlers _ =>
      refine ⟨events, history, fun other call api args inside carries => ?_, ?_, calls history⟩
      · by_cases same : other = thread
        · simp [moved, same] at inside
        · exact others same inside carries
      · intro i cb held
        rw [Globals.callbackAt, handlers] at held
        exact (known.table i cb held).append events
  | @enter call entered =>
      have history : t.sh.history = s.sh.history ++ [.called thread call] := by rw [entered]; rfl
      refine ⟨_, history, fun other call' api args inside carries => ?_, ?_, calls history⟩
      · by_cases same : other = thread
        · rw [moved, same, Function.update_self] at inside
          cases inside
          exact ⟨thread, call, args.arg, by simp, apiEntry_args carries⟩
        · exact others same inside carries
      · intro i cb held
        rw [entered] at held
        exact (known.table i cb held).append _
  | @run call api api' choice ran =>
      obtain ⟨events, history, _⟩ := (apiStep_effect ran).events
      obtain ⟨passedOn, stores⟩ := apiStep_args ran
      refine ⟨events, history, fun other call' next args inside carries => ?_, ?_, calls history⟩
      · by_cases same : other = thread
        · rw [moved, same, Function.update_self] at inside
          cases inside
          exact (known.running thread call api args here (passedOn args carries)).append events
        · exact others same inside carries
      · intro i cb held
        rcases stores i cb held with before | ⟨args, carries, rfl⟩
        · exact (known.table i cb before).append events
        · exact (known.running thread call api args here carries).append events
  | @leave call ret left =>
      have history : t.sh.history = s.sh.history ++ [.answered thread call ret] := by
        rw [left]
        rfl
      refine ⟨_, history, fun other call' api args inside carries => ?_, ?_, calls history⟩
      · by_cases same : other = thread
        · simp [moved, same] at inside
        · exact others same inside carries
      · intro i cb held
        rw [left] at held
        exact (known.table i cb held).append _

/-- So does every step of the module, in a session. -/
theorem Known.step {s t : State cfg} {action : Action cfg} {late : List Event}
    (known : Known s late) (inside : s.loader.inSession = true) (noStart : NoStart s action)
    (stepped : s.step action = some t)
    : ∃ events, t.sh.history = s.sh.history ++ events ∧ Known t (late ++ events) := by
  cases State.step_cases stepped with
  | crash | overRegister =>
      refine ⟨[], by simp, known.quiet (fun thread running => ?_) rfl (by simp)⟩
      cases thread <;> exact id
  | kprintf printed =>
      obtain ⟨events, history, accepted⟩ := kprintf_events printed
      refine ⟨events, history, known.quiet (fun thread running => ?_)
        (kprintf_table printed).handlers fun event member => ?_⟩
      · cases thread <;> exact id
      · obtain ⟨stamp, body, rfl⟩ := accepted event member
        rfl
  | @event thid choice sh' pc ran =>
      exact known.move (eventStep_effect ran).callMove (inApi_event s sh' thid pc)
        fun events stamp slot cb arg history member => eventStep_invoked ran history member
  | @client n choice sh' pc ran =>
      have effect := clientStep_effect ran
      refine known.move effect.callMove (inApi_client s sh' n pc)
        fun events stamp slot cb arg history member => ?_
      obtain ⟨events', history', kinds⟩ := effect.events
      have same : events' = events := List.append_cancel_left (history'.symm.trans history)
      subst same
      exact absurd (kinds _ member).1 (by simp [Event.ofDispatch])
  | loader ran =>
      obtain ⟨effect, rfl⟩ := loaderStep_effect ran inside noStart
      obtain ⟨events, history, kinds⟩ := effect.events
      refine ⟨events, history, known.quiet (fun thread running => ?_) effect.table.handlers
        fun event member => ?_⟩
      · cases thread <;> exact id
      · exact Event.ofDispatch_eq_false (Or.inr (Or.inl (kinds event member).2.1))

/-- From a started module with an empty table on, whatever is called has been registered since;
by the invariant rule.
-/
theorem callsKnown_of_empty {t u : State cfg} (inside : t.loader.inSession = true)
    (settled : Settled t) (slots : ∀ i, t.sh.g.callbackAt i = none)
    (path : (machine cfg).Path NoStart t u)
    : ∃ late, u.sh.history = t.sh.history ++ late ∧ CallsKnown late := by
  have start : Known t [] := by
    refine ⟨fun thread call api args engaged carries => ?_, fun i cb held => ?_, Always.nil⟩
    · have free := settled thread call api engaged
      cases api <;> simp_all [ApiPc.args, ApiPc.free]
    · simp [slots i] at held
  have known : u.loader.inSession = true
      ∧ ∃ late, u.sh.history = t.sh.history ++ late ∧ Known u late := by
    refine path.preserves (P := fun u : State cfg => u.loader.inSession = true
      ∧ ∃ late, u.sh.history = t.sh.history ++ late ∧ Known u late)
      ⟨inside, [], by simp, start⟩ ?_
    intro u action v earlier noStart stepped
    obtain ⟨inside, late, history, known⟩ := earlier
    obtain ⟨events, history', known'⟩ := known.step inside noStart stepped
    refine ⟨inSession_step (fun starts => ?_) inside stepped, late ++ events, ?_, known'⟩
    · exact absurd starts (by simp [show action.isStart = false from noStart])
    · rw [history', history, List.append_assoc]
  obtain ⟨_, late, history, known⟩ := known
  exact ⟨late, history, known.calls⟩

/-- A table without callbacks has no used slot. -/
theorem occupied_eq_zero {g : Globals cfg} (slots : ∀ i, g.callbackAt i = none)
    : g.occupied = 0 := by
  simp [Globals.occupied, slots]

/-- Clean restart: after any history of sessions, with all calls of the registry returned, a new
start that succeeds is that of a fresh module exactly when every slot of the table is empty at
the call of _start.
-/
theorem clean_restart {s t : State cfg} (reach : (machine cfg).Reachable AnyRun s)
    (settled : Settled s) (restarts : Restarts s t)
    : CleanRestart t ↔ ∀ i, s.sh.g.callbackAt i = none := by
  obtain ⟨started, settled', handlers, default, count, head, place⟩ :=
    restarts.reset reach settled
  have same (i : Nat) : t.sh.g.callbackAt i = s.sh.g.callbackAt i := by
    rw [Globals.callbackAt, handlers]
    rfl
  constructor
  · intro clean i
    rw [← same i]
    exact clean.slots i
  · intro before
    have slots (i : Nat) : t.sh.g.callbackAt i = none := (same i).trans (before i)
    refine
      { slots, default, head
        count := by rw [occupied_eq_zero slots, count]; rfl
        zero := count
        quiet := fun u path => callsKnown_of_empty (by rw [place]; rfl) settled' slots path
        results := fun g fresh steps => ?_ }
    exact tableResults_alike (represents_empty started slots count default) fresh.represents
      (fun _ => rfl) steps

/-- Whether a client other than the first one takes the step. -/
def Action.ofOthers : Action cfg → Bool
  | .client n _ => n ≠ 0
  | _ => false

/-- A single session in which no client but the first one calls the module. -/
def OneClient (s : State cfg) (action : Action cfg) : Prop :=
  SingleSession s action ∧ action.ofOthers = false

instance (s : State cfg) (action : Action cfg) : Decidable (OneClient s action) :=
  inferInstanceAs (Decidable (_ ∧ _))

/-- When that client and the event thread of the session are outside the registry functions, all
calls have returned.
-/
theorem settled_of_oneClient {s : State cfg} (reach : (machine cfg).Reachable OneClient s)
    (inside : s.loader.inSession = true) (client : s.clients 0 = none)
    (event : (s.threads s.sh.g.gThid).inApi = none)
    : Settled s := by
  have others : ∀ n ≠ 0, s.clients n = none := by
    refine reach.invariant (P := fun s : State cfg => ∀ n ≠ 0, s.clients n = none)
      (fun _ _ => rfl) ?_
    intro s action t _ idle one stepped n other
    cases State.step_cases stepped with
    | @client first choice sh' pc ran =>
        obtain rfl : first = 0 := by simpa [Action.ofOthers] using one.2
        simpa [other] using idle n other
    | _ => exact idle n other
  intro thread call api engaged
  cases thread with
  | client n =>
      by_cases first : n = 0
      · subst first
        exact absurd (engaged.symm.trans client) (by simp)
      · exact absurd (engaged.symm.trans (others n first)) (by simp)
  | event thid =>
      have single := reach.mono (fun _ _ one => one.1)
      by_cases same : thid = s.sh.g.gThid
      · subst same
        exact absurd (engaged.symm.trans event) (by simp)
      · have absent := (session single inside).others thid same
        simp [State.inApi, absent, EventPc.inApi, EventPc.nested] at engaged

/-- The second start, up to the statement that stores `STATE_STARTED`. -/
def restartRun : List (Action .shipped) :=
  [.loader (.answer 1), .loader .go]
    ++ [20, 21, 22, 23].map (fun id => .loader (.answer id))
    ++ List.replicate 11 (.loader .go)

/-- Whether init is about to succeed. -/
def LoaderPc.succeeds : LoaderPc → Bool
  | .init .started _ => true
  | _ => false

/-- Whether the second start succeeds. -/
def State.restartsByRun (s : State .shipped) : Bool :=
  (s.step (.loader .start)).any fun first =>
    ((machine .shipped).run NoStart first restartRun).any fun last =>
      last.loader.succeeds && (last.step (.loader .go)).isSome

/-- Then the module is restarted. -/
theorem restarts_of_run {s : State .shipped} (done : s.restartsByRun = true) : ∃ t, Restarts s t := by
  obtain ⟨first, begun, done⟩ := Option.any_eq_true _ _ |>.mp done
  obtain ⟨last, path, ended⟩ := System.exists_path_of_run done
  obtain ⟨succeeds, stepped⟩ : last.loader.succeeds = true ∧ (last.step (.loader .go)).isSome := by
    simpa using ended
  obtain ⟨t, stepped⟩ := Option.isSome_iff_exists.mp stepped
  cases place : last.loader with
  | init pc l =>
      cases pc with
      | started => exact ⟨t, first, last, l, .go, begun, path, place, stepped⟩
      | _ => simp [place, LoaderPc.succeeds] at succeeds
  | _ => simp [place, LoaderPc.succeeds] at succeeds

/-- The client unregisters the default handler. -/
def clearRun : List (Action .shipped) :=
  [.client 0 (.call (.unregisterHandler 0))] ++ List.replicate 9 (.client 0 .go)

/-- Witness: a session in which the default handler has been unregistered, and a second start. -/
theorem clean_restart_run
    : ∃ s t : State .shipped, .answered (.client 0) (.unregisterHandler 0) 0 ∈ s.sh.history
        ∧ Restarts s t ∧ CleanRestart t := by
  have done : ((machine .shipped).run OneClient (machine .shipped).init
      (loopRun ++ clearRun ++ stopRun ++ eventRun 8 ++ [.loader .go])).any
      (fun s => .answered (.client 0) (.unregisterHandler 0) 0 ∈ s.sh.history
        ∧ s.loader.inSession = true ∧ s.clients 0 = none
        ∧ (s.threads s.sh.g.gThid).inApi = none
        ∧ s.sh.g.gHandlers = Vector.replicate _ .empty ∧ s.restartsByRun = true) = true := by
    decide +kernel
  obtain ⟨s, reach, holds⟩ := System.exists_of_run done
  obtain ⟨unregistered, inside, client, event, empty, restarts⟩ := of_decide_eq_true holds
  obtain ⟨t, restarts⟩ := restarts_of_run restarts
  refine ⟨s, t, unregistered, restarts, (clean_restart (reach.mono fun _ _ _ => trivial)
    (settled_of_oneClient reach inside client event) restarts).mpr fun i => ?_⟩
  by_cases bound : i < Config.shipped.kprintfMaxHandlers <;>
    simp [Globals.callbackAt, empty, bound, RegHandler.empty]

/-- Counterexample: the module is started, stopped, and started again. The default handler of the
first session is still in slot 0, while the count is 0.
-/
theorem not_clean_restart
    : ¬ ∀ s t : State .shipped, (machine .shipped).Reachable AnyRun s → Settled s →
        Restarts s t → CleanRestart t := by
  intro always
  have done : ((machine .shipped).run OneClient (machine .shipped).init
      (loopRun ++ stopRun ++ eventRun 8 ++ [.loader .go])).any
      (fun s => s.loader.inSession = true ∧ s.clients 0 = none
        ∧ (s.threads s.sh.g.gThid).inApi = none
        ∧ s.sh.g.callbackAt 0 = some .defaultFileHandler ∧ s.restartsByRun = true) = true := by
    decide +kernel
  obtain ⟨s, reach, holds⟩ := System.exists_of_run done
  obtain ⟨inside, client, event, held, restarts⟩ := of_decide_eq_true holds
  obtain ⟨t, restarts⟩ := restarts_of_run restarts
  have settled := settled_of_oneClient reach inside client event
  have any : (machine .shipped).Reachable AnyRun s := reach.mono fun _ _ _ => trivial
  have slots := (always s t any settled restarts).slots 0
  obtain ⟨_, _, handlers, _⟩ := restarts.reset any settled
  rw [Globals.callbackAt, handlers] at slots
  exact absurd (slots.symm.trans held) (by simp)

end LibKprintf
