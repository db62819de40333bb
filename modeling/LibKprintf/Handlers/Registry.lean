import LibKprintf.Handlers.Record
import LibKprintf.Handlers.Table

/-! The registry under the semaphore: the handler table holds exactly the registered pairs,
and every call of an exported function answers what it has done.
-/

namespace LibKprintf

open Foundation

variable {cfg : Config}

/-- The arguments of a running register_handler are those of the call. -/
def RegArgs.OfCall (args : RegArgs) (call : ApiCall) : Prop :=
  call.Registers args.cb args.arg
    ∧ (args.isDefaultHandler = true → call = .registerDefaultHandler)

/-- What is known of a call of an exported function at each program point. -/
def ApiPc.Follows (sh : Shared cfg) (thread : ThreadRef) (call : ApiCall) : ApiPc → Prop
  | .regWait args _ | .regTestDefault args | .regTestCount args | .regFind args _ =>
      args.OfCall call
  | .regSetDefault args slot | .regSetCb args slot =>
      args.OfCall call ∧ slot < cfg.kprintfMaxHandlers ∧ registered sh.history slot = none
  | .regSetArg args slot =>
      args.OfCall call ∧ registered sh.history slot = none
        ∧ sh.g.callbackAt slot = some args.cb
  | .regCount args slot =>
      args.OfCall call ∧ Noted sh.history thread call (.stored thread slot args.cb args.arg)
  | .unregWait index _ | .unregTestIndex index => call = .unregisterHandler index
  | .unregTestCb slot | .unregDefault slot | .unregClearCb slot =>
      call = .unregisterHandler slot
  | .unregClearArg slot =>
      call = .unregisterHandler slot ∧ registered sh.history slot = none
        ∧ Noted sh.history thread call (.cleared thread slot)
  | .unregCount =>
      ∃ slot : Nat, call = .unregisterHandler slot
        ∧ Noted sh.history thread call (.cleared thread slot)
  | .announce => Answers sh.history thread call 0
  | .dipsw | .registerHook => call.ofRegistry = false
  | .signal _ ret | .done ret => Answers sh.history thread call ret

/-- A call is followed from its entry on. -/
theorem apiEntry_follows (sh sh' : Shared cfg) (thread : ThreadRef) (call : ApiCall)
    : (apiEntry sh call).Follows sh' thread call := by
  by_cases started : sh.g.gState = .started
  · cases call with
    | registerHandler cb arg =>
        cases cb with
        | none =>
            simp only [apiEntry, registerEntry, started]
            exact Answers.error (by decide)
        | some cb => simp [apiEntry, registerEntry, started, ApiPc.Follows, RegArgs.OfCall,
            ApiCall.Registers]
    | registerDefaultHandler =>
        simp [apiEntry, registerEntry, started, ApiPc.Follows, RegArgs.OfCall, ApiCall.Registers]
    | unregisterHandler index => simp [apiEntry, started, ApiPc.Follows]
    | install => rfl
    | isStarted => exact Answers.other (Or.inl rfl)
  · cases call with
    | registerHandler | registerDefaultHandler | unregisterHandler =>
        simp only [apiEntry, registerEntry, ne_eq, started, not_false_eq_true, if_true]
        exact Answers.error (by decide)
    | install => rfl
    | isStarted => exact Answers.other (Or.inl rfl)

/-- What register_handler answers goes on to its caller. -/
theorem afterRegister_follows {sh : Shared cfg} {thread : ThreadRef} {call : ApiCall}
    {isDefaultHandler : Bool} {ret : Int} (answers : Answers sh.history thread call ret)
    : (afterRegister isDefaultHandler ret).Follows sh thread call := by
  unfold afterRegister
  split
  · rename_i zero
    rw [zero.2] at answers
    exact answers
  · exact answers

/-- The steps of other threads leave what is known of a call, if the table stays as it is
while the call is between its semaphore calls.
-/
theorem ApiPc.Follows.frame {sh sh' : Shared cfg} {thread : ThreadRef} {call : ApiCall}
    {api : ApiPc} {events : List Event} (follows : api.Follows sh thread call)
    (history : sh'.history = sh.history ++ events)
    (apart : ∀ event ∈ events, event.callOf ≠ some thread)
    (table
      : api.locked = true →
          sh'.g.gHandlers = sh.g.gHandlers ∧ ∀ event ∈ events, event.ofTable = false)
    : api.Follows sh' thread call := by
  have registeredSame (locked : api.locked = true) (slot : Nat) :
      registered sh'.history slot = registered sh.history slot := by
    rw [history, registered_append _ (table locked).2]
  cases api with
  | regSetDefault args slot | regSetCb args slot =>
      obtain ⟨ofCall, bound, free⟩ := follows
      exact ⟨ofCall, bound, (registeredSame rfl slot).trans free⟩
  | regSetArg args slot =>
      obtain ⟨ofCall, free, stored⟩ := follows
      refine ⟨ofCall, (registeredSame rfl slot).trans free, ?_⟩
      rwa [Globals.callbackAt, (table rfl).1]
  | unregClearArg slot =>
      obtain ⟨unregisters, free, noted⟩ := follows
      refine ⟨unregisters, (registeredSame rfl slot).trans free, ?_⟩
      exact history ▸ noted.append apart
  | regCount args slot => exact ⟨follows.1, history ▸ follows.2.append apart⟩
  | unregCount =>
      obtain ⟨slot, unregisters, noted⟩ := follows
      exact ⟨slot, unregisters, history ▸ noted.append apart⟩
  | signal | done | announce => exact Answers.append follows history apart
  | _ => exact follows

/-- What one step of an exported function does to the record of the handlers. -/
structure Traced (thread : ThreadRef) (call : ApiCall) (sh sh' : Shared cfg) (api api' : ApiPc)
    : Prop where
  follows : api'.Follows sh' thread call
  recorded : Always Event.Recorded sh.history → Always Event.Recorded sh'.history
  table
    : (∀ slot, (∀ args, api ≠ .regSetArg args slot) →
          sh.g.pairAt slot = registered sh.history slot) →
        ∀ slot, (∀ args, api' ≠ .regSetArg args slot) →
          sh'.g.pairAt slot = registered sh'.history slot

/-- A step that notes nothing of the registry and leaves the slots alone. -/
theorem Traced.quiet {thread : ThreadRef} {call : ApiCall} {sh sh' : Shared cfg}
    {api api' : ApiPc} (follows : api'.Follows sh' thread call)
    (source : ∀ args slot, api ≠ .regSetArg args slot)
    (history
      : ∃ events, sh'.history = sh.history ++ events
          ∧ ∀ event ∈ events, event.callOf = none ∧ event.ofTable = false)
    (handlers : sh'.g.gHandlers = sh.g.gHandlers)
    : Traced thread call sh sh' api api' := by
  obtain ⟨events, history, silent⟩ := history
  refine ⟨follows, fun always => ?_, fun agrees slot _ => ?_⟩
  · rw [history]
    exact always.append fun past event member => .of_silent (silent event member) past
  · have same : sh'.g.pairAt slot = sh.g.pairAt slot := by simp only [Globals.pairAt, handlers]
    rw [same, history, registered_append _ fun event member => (silent event member).2]
    exact agrees slot (fun args => source args slot)

/-- A step that only reads. -/
theorem Traced.reads {thread : ThreadRef} {call : ApiCall} {sh sh' : Shared cfg}
    {api api' : ApiPc} (follows : api'.Follows sh' thread call)
    (source : ∀ args slot, api ≠ .regSetArg args slot) (history : sh'.history = sh.history)
    (handlers : sh'.g.gHandlers = sh.g.gHandlers)
    : Traced thread call sh sh' api api' :=
  .quiet follows source ⟨[], by simp [history], by simp⟩ handlers

/-- A step that notes an event of the table. -/
theorem Traced.notes {thread : ThreadRef} {call : ApiCall} {sh sh' : Shared cfg}
    {api api' : ApiPc} {event : Event} (follows : api'.Follows sh' thread call)
    (history : sh'.history = sh.history ++ [event]) (recorded : event.Recorded sh.history)
    (table
      : (∀ slot, (∀ args, api ≠ .regSetArg args slot) →
            sh.g.pairAt slot = registered sh.history slot) →
          ∀ slot, sh'.g.pairAt slot = registered sh'.history slot)
    : Traced thread call sh sh' api api' where
  follows := follows
  recorded := fun always => by
    rw [history]
    exact always_concat.mpr ⟨always, recorded⟩
  table := fun agrees slot _ => table agrees slot

/-- Every step of an exported function follows its call, by cases of the program point. What
it knows of the table it knows under the semaphore.
-/
theorem apiStep_traced {thread : ThreadRef} {call : ApiCall} {sh sh' : Shared cfg}
    {api api' : ApiPc} {choice : Choice cfg}
    (ran : apiStep thread sh api choice = .next (sh', api'))
    (running : underWay sh.history thread = some call) (follows : api.Follows sh thread call)
    (agrees
      : api.locked = true → ∀ slot, (∀ args, api ≠ .regSetArg args slot) →
          sh.g.pairAt slot = registered sh.history slot)
    (signals : api.locked = true → 0 ≤ (sh.k.sceKernelSignalSema sh.g.gSemid).2)
    : Traced thread call sh sh' api api' := by
  cases api with
  | regWait args semid =>
      simp only [apiStep, Choice.onKernel_eq_next, StepResult.map_eq_next, Prod.mk.injEq] at ran
      obtain ⟨_, k, _, rfl, rfl⟩ | ⟨code, negative, _, rfl, rfl⟩ := ran
      · exact .reads follows (by simp) rfl rfl
      · exact .reads (afterRegister_follows (.error negative)) (by simp) rfl rfl
  | unregWait index semid =>
      simp only [apiStep, Choice.onKernel_eq_next, StepResult.map_eq_next, Prod.mk.injEq] at ran
      obtain ⟨_, k, _, rfl, rfl⟩ | ⟨code, negative, _, rfl, rfl⟩ := ran
      · exact .reads follows (by simp) rfl rfl
      · exact .reads (Answers.error negative) (by simp) rfl rfl
  | regTestDefault args =>
      simp only [apiStep, Choice.onGo_eq_next, StepResult.next.injEq] at ran
      obtain ⟨_, ran⟩ := ran
      split at ran <;> cases ran
      · rename_i default
        exact .reads (Answers.other (Or.inr (follows.2 default.1))) (by simp) rfl rfl
      · exact .reads follows (by simp) rfl rfl
  | regTestCount args =>
      simp only [apiStep, Choice.onGo_eq_next, StepResult.next.injEq] at ran
      obtain ⟨_, ran⟩ := ran
      split at ran <;> cases ran
      · exact .reads (Answers.error (by decide)) (by simp) rfl rfl
      · exact .reads follows (by simp) rfl rfl
  | regFind args i =>
      simp only [apiStep, Choice.onGo_eq_next, StepResult.next.injEq] at ran
      obtain ⟨_, ran⟩ := ran
      split at ran
      · rename_i bound
        split at ran <;> cases ran
        · rename_i unused
          have free : registered sh.history i = none := by
            rw [← agrees rfl i (by simp)]
            exact Globals.pairAt_eq_none.mpr unused
          exact .reads ⟨follows, bound, free⟩ (by simp) rfl rfl
        · exact .reads follows (by simp) rfl rfl
      · cases ran
        exact .reads (Answers.error (by decide)) (by simp) rfl rfl
  | regSetDefault args slot =>
      simp only [apiStep, Choice.onGo_eq_next, StepResult.next.injEq] at ran
      obtain ⟨_, ran⟩ := ran
      split at ran <;> cases ran <;> exact .reads follows (by simp) rfl rfl
  | regSetCb args slot =>
      simp only [apiStep, Choice.onGo_eq_next, StepResult.next.injEq, Prod.mk.injEq] at ran
      obtain ⟨_, rfl, rfl⟩ := ran
      obtain ⟨ofCall, bound, free⟩ := follows
      refine ⟨⟨ofCall, free, Globals.callbackAt_setCb bound args.cb⟩, id, ?_⟩
      intro agrees other elsewhere
      have different : slot ≠ other := by
        intro same
        subst same
        exact elsewhere args rfl
      simp only [Globals.pairAt_setCb, different, if_false]
      exact agrees other (by simp)
  | regSetArg args slot =>
      simp only [apiStep, Choice.onGo_eq_next, StepResult.next.injEq, Prod.mk.injEq] at ran
      obtain ⟨_, rfl, rfl⟩ := ran
      obtain ⟨ofCall, free, stored⟩ := follows
      refine .notes ⟨ofCall, .now running _⟩ rfl ⟨free, call, running, ofCall.1⟩ ?_
      intro agrees other
      by_cases same : slot = other
      · subst same
        simp only [Globals.callbackAt_eq, Option.map_eq_some_iff] at stored
        obtain ⟨pair, held, cb⟩ := stored
        simp [Globals.pairAt_setArg, held, registered_stored, cb]
      · have silent : (Event.stored thread slot args.cb args.arg).tellsSlot other = none := by
          simp [Event.tellsSlot, same]
        simp only [Shared.note_g, Globals.pairAt_setArg, same, if_false, Shared.note_history,
          registered_concat_of_silent _ silent]
        exact agrees other (by simp [same])
  | regCount args slot =>
      simp only [apiStep, Choice.onGo_eq_next, StepResult.next.injEq, Prod.mk.injEq] at ran
      obtain ⟨_, rfl, rfl⟩ := ran
      exact .reads (Answers.slot follows.1.1 follows.2) (by simp) rfl rfl
  | unregTestIndex index =>
      simp only [apiStep, Choice.onGo_eq_next, StepResult.next.injEq] at ran
      obtain ⟨_, ran⟩ := ran
      split at ran <;> cases ran
      · exact .reads (Answers.error (by decide)) (by simp) rfl rfl
      · rename_i inside
        have same : (index.toNat : Int) = index := Int.toNat_of_nonneg (by omega)
        refine .reads ?_ (by simp) rfl rfl
        show call = .unregisterHandler index.toNat
        rw [same]
        exact follows
  | unregTestCb slot =>
      simp only [apiStep, Choice.onGo_eq_next, StepResult.next.injEq] at ran
      obtain ⟨_, ran⟩ := ran
      split at ran <;> cases ran
      · exact .reads (Answers.error (by decide)) (by simp) rfl rfl
      · exact .reads follows (by simp) rfl rfl
  | unregDefault slot =>
      simp only [apiStep, Choice.onGo_eq_next, StepResult.next.injEq] at ran
      obtain ⟨_, ran⟩ := ran
      split at ran <;> cases ran <;> exact .reads follows (by simp) rfl rfl
  | unregClearCb slot =>
      simp only [apiStep, Choice.onGo_eq_next, StepResult.next.injEq, Prod.mk.injEq] at ran
      obtain ⟨_, rfl, rfl⟩ := ran
      have unregisters : call = .unregisterHandler slot := follows
      subst unregisters
      refine .notes ⟨rfl, registered_cleared _ _ _, .now running _⟩ rfl running ?_
      intro agrees other
      by_cases same : slot = other
      · subst same
        simp [Globals.pairAt_setCb, registered_cleared]
      · have silent : (Event.cleared thread slot).tellsSlot other = none := by
          simp [Event.tellsSlot, same]
        simp only [Shared.note_g, Globals.pairAt_setCb, same, if_false, Shared.note_history,
          registered_concat_of_silent _ silent]
        exact agrees other (by simp)
  | unregClearArg slot =>
      simp only [apiStep, Choice.onGo_eq_next, StepResult.next.injEq, Prod.mk.injEq] at ran
      obtain ⟨_, rfl, rfl⟩ := ran
      obtain ⟨unregisters, free, noted⟩ := follows
      refine ⟨⟨slot, unregisters, noted⟩, id, ?_⟩
      intro agrees other _
      have held := agrees other (by simp)
      by_cases same : slot = other
      · subst same
        rw [free] at held
        simp [Globals.pairAt_setArg, held, free]
      · simpa [Globals.pairAt_setArg, same] using held
  | unregCount =>
      simp only [apiStep, Choice.onGo_eq_next, StepResult.next.injEq, Prod.mk.injEq] at ran
      obtain ⟨_, rfl, rfl⟩ := ran
      obtain ⟨slot, rfl, noted⟩ := follows
      exact .reads (Answers.unregistered noted) (by simp) rfl rfl
  | signal isDefaultHandler ret =>
      simp only [apiStep, Choice.onGo_eq_next, StepResult.next.injEq, Prod.mk.injEq] at ran
      obtain ⟨_, rfl, rfl⟩ := ran
      rw [if_neg (not_lt.mpr (signals rfl))]
      exact .reads (afterRegister_follows follows) (by simp) rfl rfl
  | announce =>
      simp only [apiStep, StepResult.map_eq_next, Choice.onKprintf_eq_next, Prod.mk.injEq] at ran
      obtain ⟨_, ⟨_, rfl⟩ | ⟨during, _, printed⟩, rfl, rfl⟩ := ran
      · exact .reads follows (by simp) rfl rfl
      · obtain ⟨events, history, accepted⟩ := kprintf_events printed
        have silent (event : Event) (member : event ∈ events) : event.callOf = none
            ∧ event.ofTable = false := by
          obtain ⟨stamp, body, rfl⟩ := accepted event member
          exact ⟨rfl, rfl⟩
        refine .quiet ?_ (by simp) ⟨events, history, silent⟩ (kprintf_table printed).handlers
        exact Answers.append follows history fun event member => by simp [(silent event member).1]
  | dipsw =>
      simp only [apiStep, Choice.onKernel_eq_next, StepResult.next.injEq, Prod.mk.injEq] at ran
      obtain ⟨_, rfl, rfl⟩ | ⟨code, _, _, rfl, rfl⟩ := ran
      · exact .reads follows (by simp) rfl rfl
      · exact .reads (Answers.other (Or.inl follows)) (by simp) rfl rfl
  | registerHook =>
      simp only [apiStep, Choice.onGo_eq_next, StepResult.next.injEq, Prod.mk.injEq] at ran
      obtain ⟨_, rfl, rfl⟩ := ran
      exact .reads (Answers.other (Or.inl follows)) (by simp) rfl rfl
  | done ret => contradiction

-----------------------------------------------------------------------------------------
-- The invariant
-----------------------------------------------------------------------------------------

/-- Every call is followed; the table holds the registered pairs, except for a slot whose
argument is about to be stored; and the history is that of a registry.
-/
structure Registry (inApi : ThreadRef → ClientPc) (sh : Shared cfg) : Prop where
  follows
    : ∀ thread call api, inApi thread = some (call, api) → api.Follows sh thread call
  table
    : ∀ slot, (∀ thread call args, inApi thread ≠ some (call, .regSetArg args slot)) →
        sh.g.pairAt slot = registered sh.history slot
  recorded : Always Event.Recorded sh.history

/-- A step that notes nothing of the registry and leaves the handlers alone keeps it. -/
theorem Registry.quiet {inApi : ThreadRef → ClientPc} {sh sh' : Shared cfg}
    {events : List Event} (registry : Registry inApi sh)
    (history : sh'.history = sh.history ++ events)
    (silent : ∀ event ∈ events, event.callOf = none ∧ event.ofTable = false)
    (handlers : sh'.g.gHandlers = sh.g.gHandlers)
    : Registry inApi sh' where
  follows := fun thread call api engaged =>
    (registry.follows thread call api engaged).frame history
      (fun event member => by simp [(silent event member).1])
      (fun _ => ⟨handlers, fun event member => (silent event member).2⟩)
  table := fun slot nobody => by
    have same : sh'.g.pairAt slot = sh.g.pairAt slot := by simp only [Globals.pairAt, handlers]
    rw [same, history, registered_append _ fun event member => (silent event member).2]
    exact registry.table slot nobody
  recorded := by
    rw [history]
    exact registry.recorded.append fun past event member => .of_silent (silent event member) past

section ThreadStep

variable {thread : ThreadRef} {sh sh' : Shared cfg} {inApi : ThreadRef → ClientPc}
variable {after : ClientPc}

/-- A thread in its semaphore calls is alone there. -/
def Alone (inApi : ThreadRef → ClientPc) (thread : ThreadRef) : Prop :=
  (inApi thread).locked = true → ∀ other, other ≠ thread → (inApi other).locked = false

/-- A step of a thread keeps what is known of the calls of the others. -/
theorem CallMove.follows_others (move : CallMove thread sh sh' (inApi thread) after)
    (registry : Registry inApi sh) (alone : Alone inApi thread) {other : ThreadRef}
    (different : other ≠ thread) {call : ApiCall} {api : ApiPc}
    (engaged : inApi other = some (call, api))
    : api.Follows sh' other call := by
  obtain ⟨events, history, kinds⟩ := move.events
  refine (registry.follows other call api engaged).frame history
    (fun event member => (kinds event member).1 other different) ?_
  intro locked
  have outside : (inApi thread).locked = false := by
    by_contra both
    have unlocked := alone (by simpa using both) other different
    simp [engaged, ClientPc.locked, locked] at unlocked
  exact ⟨move.handlers outside, fun event member => (kinds event member).2 outside⟩

/-- A step of a thread follows its own call. -/
theorem CallMove.follows_own (move : CallMove thread sh sh' (inApi thread) after)
    (traced
      : ∀ call api api', inApi thread = some (call, api) → after = some (call, api') →
          Traced thread call sh sh' api api')
    {call : ApiCall} {api : ApiPc} (engaged : after = some (call, api))
    : api.Follows sh' thread call := by
  generalize before : inApi thread = place at move
  cases move with
  | outside | leave => contradiction
  | enter =>
      cases engaged
      exact apiEntry_follows sh sh' thread call
  | run =>
      cases engaged
      exact (traced _ _ _ before rfl).follows

/-- A step of a thread records what it has done. -/
theorem CallMove.recorded (move : CallMove thread sh sh' (inApi thread) after)
    (registry : Registry inApi sh)
    (traced
      : ∀ call api api', inApi thread = some (call, api) → after = some (call, api') →
          Traced thread call sh sh' api api')
    : Always Event.Recorded sh'.history := by
  generalize before : inApi thread = place at move
  cases move with
  | outside history ofEventThread handlers _ =>
      refine (registry.quiet history (fun event member => ?_) handlers).recorded
      exact Event.silent_of_eventThread (ofEventThread event member)
  | enter entered =>
      rw [entered]
      exact always_concat.mpr ⟨registry.recorded, trivial⟩
  | @leave call ret left =>
      rw [left]
      exact always_concat.mpr ⟨registry.recorded, registry.follows thread call _ before⟩
  | run => exact (traced _ _ _ before rfl).recorded registry.recorded

/-- A step of a thread keeps the table in agreement with the registered pairs. -/
theorem CallMove.table (move : CallMove thread sh sh' (inApi thread) after)
    (registry : Registry inApi sh) (alone : Alone inApi thread)
    (traced
      : ∀ call api api', inApi thread = some (call, api) → after = some (call, api') →
          Traced thread call sh sh' api api')
    {slot : Nat}
    (nobody
      : ∀ other call args,
          Function.update inApi thread after other ≠ some (call, .regSetArg args slot))
    : sh'.g.pairAt slot = registered sh'.history slot := by
  by_cases locked : (inApi thread).locked = true
  · generalize before : inApi thread = place at move
    cases move with
    | outside | enter | leave => simp [before, ClientPc.locked, ApiPc.locked] at locked
    | @run call api api' =>
        refine (traced call api api' before rfl).table ?_ slot ?_
        · intro slot elsewhere
          refine registry.table slot fun other call' args inside => ?_
          by_cases same : other = thread
          · subst same
            rw [before] at inside
            cases inside
            exact elsewhere args rfl
          · have unlocked := alone locked other same
            simp [inside, ClientPc.locked, ApiPc.locked] at unlocked
        · rintro args rfl
          exact nobody thread call args (by simp)
  · have outside : (inApi thread).locked = false := by simpa using locked
    obtain ⟨events, history, kinds⟩ := move.events
    have same : sh'.g.pairAt slot = sh.g.pairAt slot := by
      simp only [Globals.pairAt, move.handlers outside]
    rw [same, history, registered_append _ fun event member => (kinds event member).2 outside]
    refine registry.table slot fun other call args inside => ?_
    by_cases self : other = thread
    · subst self
      simp [inside, ClientPc.locked, ApiPc.locked] at outside
    · exact nobody other call args (by simpa [self] using inside)

/-- Every step of a thread keeps the registry: it is alone while it writes the table. -/
theorem CallMove.registry (move : CallMove thread sh sh' (inApi thread) after)
    (registry : Registry inApi sh) (calling : Calling inApi sh.history)
    (alone : Alone inApi thread)
    (signals
      : (inApi thread).locked = true → 0 ≤ (sh.k.sceKernelSignalSema sh.g.gSemid).2)
    : Registry (Function.update inApi thread after) sh' := by
  have traced (call : ApiCall) (api api' : ApiPc) (before : inApi thread = some (call, api))
      (later : after = some (call, api')) : Traced thread call sh sh' api api' := by
    subst later
    rw [before] at move
    cases move with
    | run ran =>
        have inside (locked : api.locked = true) : (inApi thread).locked = true := by
          simpa [before, ClientPc.locked] using locked
        refine apiStep_traced ran (calling thread call api before)
          (registry.follows thread call api before) ?_ (fun locked => signals (inside locked))
        intro locked slot elsewhere
        refine registry.table slot fun other call' args engaged => ?_
        by_cases same : other = thread
        · subst same
          rw [before] at engaged
          cases engaged
          exact elsewhere args rfl
        · have unlocked := alone (inside locked) other same
          simp [engaged, ClientPc.locked, ApiPc.locked] at unlocked
  refine ⟨fun other call api engaged => ?_, fun slot nobody => ?_, ?_⟩
  · by_cases same : other = thread
    · subst same
      exact move.follows_own traced (by simpa using engaged)
    · exact move.follows_others registry alone same (by simpa [same] using engaged)
  · exact move.table registry alone traced nobody
  · exact move.recorded registry traced

end ThreadStep

/-- A thread that is between the semaphore calls of an exported function holds the semaphore
itself: callbacks never get there.
-/
theorem Exclusion.locked_of_inApi {s : State cfg} {thread : ThreadRef} (exclusion : Exclusion s)
    (locked : (s.inApi thread).locked = true)
    : s.locked thread = true := by
  cases thread with
  | client n => exact locked
  | event thid =>
      simp only [State.inApi, State.locked] at locked ⊢
      have nested := exclusion.nested thid
      cases place : s.threads thid with
      | register api => simpa [place, EventPc.inApi, ClientPc.locked, EventPc.locked] using locked
      | flush ev pc =>
          exfalso
          rw [place] at locked nested
          simp only [EventPc.inApi, ClientPc.locked, Option.any_eq_true] at locked
          obtain ⟨⟨call, api⟩, inside, held⟩ := locked
          rw [nested call api inside] at held
          contradiction
      | _ => simp [place, EventPc.inApi, EventPc.nested, ClientPc.locked] at locked

/-- It is alone there. -/
theorem Exclusion.alone {s : State cfg} (exclusion : Exclusion s) (thread : ThreadRef)
    : Alone s.inApi thread := by
  intro locked other different
  obtain ⟨holder, _, guarded⟩ := exclusion.owned
  by_contra both
  have entered := exclusion.locked_of_inApi (by simpa using both)
  exact different (guarded.exclusive entered (exclusion.locked_of_inApi locked))

/-- Its signal of the semaphore succeeds. -/
theorem Exclusion.signals {s : State cfg} {thread : ThreadRef} (exclusion : Exclusion s)
    (locked : (s.inApi thread).locked = true)
    : 0 ≤ (s.sh.k.sceKernelSignalSema s.sh.g.gSemid).2 := by
  obtain ⟨holder, sema, guarded⟩ := exclusion.owned
  obtain rfl := (guarded thread).mp (exclusion.locked_of_inApi locked)
  simp [Kernel.sceKernelSignalSema, sema, Sema.binary]

/-- Before the session nothing is stored, and every call answers an error. -/
theorem recorded_beforeSession {history : List Event}
    (before : ∀ event ∈ history, event.BeforeSession)
    : Always Event.Recorded history := by
  have always : Always Event.Recorded ([] ++ history) := by
    refine Always.nil.append fun past event member => ?_
    have fits := before event member
    cases event with
    | answered thread call ret =>
        by_cases ofRegistry : call.ofRegistry = true
        · rw [fits ofRegistry]
          exact Answers.error (by decide)
        · exact Answers.other (Or.inl (by simpa using ofRegistry))
    | stored | cleared => exact fits.elim
    | _ => trivial
  simpa using always

/-- A fresh session has an empty registry. -/
theorem Fresh.registry {s : State cfg} (fresh : Fresh s) : Registry s.inApi s.sh where
  follows := by
    rintro (thid | n) call api engaged
    · by_cases same : thid = s.sh.g.gThid
      · subst same
        rcases fresh.polling with polls | polls <;>
          simp [State.inApi, polls, EventPc.inApi, EventPc.nested] at engaged
      · simp [State.inApi, fresh.others thid same, EventPc.inApi, EventPc.nested] at engaged
    · have place := fresh.clients n call api engaged
      split at place
      · subst place
        exact Answers.error (by decide)
      · rename_i notRegistry
        have other : call.ofRegistry = false := by simpa using notRegistry
        cases api with
        | announce | done => exact Answers.other (Or.inl other)
        | dipsw | registerHook => exact other
        | _ => simp [ApiPc.free] at place
  table := by
    intro slot _
    have silent : registered ([] ++ s.sh.history) slot = registered [] slot := by
      refine registered_append [] (fun event member => ?_) slot
      have before := fresh.history event member
      cases event <;> first | rfl | exact before.elim
    rw [List.nil_append] at silent
    rw [silent]
    by_cases bound : slot < cfg.kprintfMaxHandlers <;>
      simp [Globals.pairAt, fresh.table, bound, RegHandler.empty, registered, latest]
  recorded := recorded_beforeSession fresh.history

/-- Every step in the session keeps the registry. -/
theorem registry_step {s t : State cfg} {action : Action cfg} (registry : Registry s.inApi s.sh)
    (calling : Calling s.inApi s.sh.history) (exclusion : Exclusion s)
    (inside : s.loader.inSession = true) (single : SingleSession s action)
    (stepped : s.step action = some t)
    : Registry t.inApi t.sh := by
  have quietly {sh' : Shared cfg} {loader' : LoaderPc} {events : List Event}
      (history : sh'.history = s.sh.history ++ events)
      (silent : ∀ event ∈ events, event.callOf = none ∧ event.ofTable = false)
      (handlers : sh'.g.gHandlers = s.sh.g.gHandlers) :
      Registry ({ s with sh := sh', loader := loader' } : State cfg).inApi sh' := by
    have same : ({ s with sh := sh', loader := loader' } : State cfg).inApi = s.inApi := by
      funext thread
      cases thread <;> rfl
    exact same ▸ registry.quiet history silent handlers
  cases State.step_cases stepped with
  | crash =>
      have same : ({ s with crashed := true } : State cfg).inApi = s.inApi := by
        funext thread
        cases thread <;> rfl
      exact same ▸ registry
  | kprintf printed =>
      obtain ⟨events, history, accepted⟩ := kprintf_events printed
      refine quietly history ?_ (kprintf_table printed).handlers
      intro event member
      obtain ⟨stamp, body, rfl⟩ := accepted event member
      exact ⟨rfl, rfl⟩
  | @event thid choice sh' pc' ran =>
      rw [inApi_event]
      exact (eventStep_effect ran).callMove.registry registry calling
        (exclusion.alone (.event thid)) (fun locked => exclusion.signals locked)
  | @client n choice sh' pc' ran =>
      rw [inApi_client]
      exact (clientStep_effect ran).callMove.registry registry calling
        (exclusion.alone (.client n)) (fun locked => exclusion.signals locked)
  | loader ran =>
      obtain ⟨effect, rfl⟩ := loaderStep_effect ran inside (not_start single inside)
      obtain ⟨events, history, kinds⟩ := effect.events
      exact quietly history (fun event member => ⟨(kinds event member).1, (kinds event member).2.2⟩)
        effect.table.handlers
  | overRegister => exact quietly (List.append_nil _).symm (by simp) rfl

/-- The registry is kept in every state of the session. -/
theorem registry {s : State cfg} (reach : (machine cfg).Reachable SingleSession s)
    (inside : s.loader.inSession = true)
    : Registry s.inApi s.sh :=
  session_invariant (P := fun s => Registry s.inApi s.sh)
    (fun _ _ single => single) (fun _ _ fresh => fresh.registry)
    (fun _ _ _ reach inside registry single stepped =>
      registry_step registry (calling reach) (exclusion reach inside) inside single stepped)
    reach inside

end LibKprintf
