import LibKprintf.Handlers.Registry

/-! Dispatch: invoke_handlers passes each message to exactly the registered pairs, in the
order of their slots, up to the first callback that stops it.
-/

namespace LibKprintf

open Foundation

variable {cfg : Config}

/-- The events that say how far a message has been passed on. -/
def Event.ofDispatch : Event → Bool
  | .deliveryBegins .. | .invoked .. | .deliveryEnds _ => true
  | _ => false

/-- The message that an event of the dispatch is about. -/
def Event.dispatches : Event → Option Nat
  | .invoked stamp .. | .deliveryEnds stamp => some stamp
  | _ => none

/-- Other events say nothing of how far a message has been passed on. -/
theorem Event.silent_of_dispatch {event : Event} (quiet : event.ofDispatch = false)
    : event.dispatches = none ∧ (∀ stamp slot, event.invokedAt stamp slot = false)
      ∧ ∀ past, event.Dispatched past := by
  cases event <;> first | contradiction | exact ⟨rfl, fun _ _ => rfl, fun _ => trivial⟩

/-- Events about other messages call nobody for a message. -/
theorem Event.invokedAt_other {event : Event} {stamp : Nat}
    (other : event.dispatches ≠ some stamp) (slot : Nat)
    : event.invokedAt stamp slot = false := by
  cases event with
  | invoked stamp' =>
      have different : stamp' ≠ stamp := fun same => other (congrArg some same)
      simp [Event.invokedAt, different]
  | _ => rfl

/-- The events of the exported functions say nothing of it, nor do those outside deliveries, and
nothing is passed on before the session.
-/
theorem Event.ofDispatch_eq_false {event : Event}
    (kind : event.ofApi = true ∨ event.ofDelivery = false ∨ event.BeforeSession)
    : event.ofDispatch = false := by
  rcases kind with ofApi | noDelivery | before <;>
    cases event <;> first | rfl | contradiction

/-- A message has been passed to the slots below `i` and to no other. -/
structure Passing (history : List Event) (stamp i : Nat) : Prop where
  below : ∀ slot < i, PassedTo history stamp slot
  rest : ∀ slot, i ≤ slot → invocations history stamp slot = []
  running : .deliveryEnds stamp ∉ history

section Passing

variable {history events : List Event} {stamp i : Nat} {cb : Callback} {arg : U32}

/-- Events that are not of the dispatch call nobody. -/
theorem invocations_silent (silent : ∀ event ∈ events, event.ofDispatch = false) (slot : Nat)
    : invocations (history ++ events) stamp slot = invocations history stamp slot := by
  exact invocations_append history fun event member =>
    (Event.silent_of_dispatch (silent event member)).2.1 stamp slot

/-- Other events leave a message where it is. -/
theorem Passing.append (passing : Passing history stamp i)
    (silent : ∀ event ∈ events, event.ofDispatch = false ∧ event.ofTable = false)
    : Passing (history ++ events) stamp i where
  below := fun slot lower => by
    unfold PassedTo
    rw [invocations_silent (fun event member => (silent event member).1) slot,
      registered_append history (fun event member => (silent event member).2) slot]
    exact passing.below slot lower
  rest := fun slot higher => by
    rw [invocations_silent (fun event member => (silent event member).1) slot]
    exact passing.rest slot higher
  running := by
    intro ended
    rcases List.mem_append.mp ended with before | now
    · exact passing.running before
    · simpa [Event.ofDispatch] using (silent _ now).1

/-- The next slot joins those that the message has been passed to. -/
theorem Passing.next (passing : Passing history stamp i) (passed : PassedTo history stamp i)
    : Passing history stamp (i + 1) where
  below := fun slot lower => by
    rcases Nat.lt_succ_iff_lt_or_eq.mp lower with below | rfl
    · exact passing.below slot below
    · exact passed
  rest := fun slot higher => passing.rest slot (Nat.le_of_succ_le higher)
  running := passing.running

/-- A free slot is passed over. -/
theorem Passing.skip (passing : Passing history stamp i) (free : registered history i = none)
    : Passing history stamp (i + 1) := by
  refine passing.next ?_
  rw [PassedTo, passing.rest i le_rfl, free]
  rfl

/-- The pair of an occupied slot is called. -/
theorem Passing.calls (passing : Passing history stamp i)
    (held : registered history i = some (cb, arg))
    : Passing (history ++ [.invoked stamp i cb arg]) stamp (i + 1) := by
  have others (slot : Nat) (different : slot ≠ i) :
      invocations (history ++ [.invoked stamp i cb arg]) stamp slot
        = invocations history stamp slot := by
    refine invocations_append history (List.forall_mem_singleton.mpr ?_)
    simp [Event.invokedAt, Ne.symm different]
  have same (slot : Nat) :
      registered (history ++ [.invoked stamp i cb arg]) slot = registered history slot :=
    registered_append history (List.forall_mem_singleton.mpr rfl) slot
  refine ⟨fun slot lower => ?_, fun slot higher => ?_, ?_⟩
  · unfold PassedTo
    rcases Nat.lt_succ_iff_lt_or_eq.mp lower with below | rfl
    · rw [others slot (Nat.ne_of_lt below), same]
      exact passing.below slot below
    · rw [same, held, invocations, List.filter_append]
      have none : history.filter (Event.invokedAt stamp slot) = [] := passing.rest slot le_rfl
      simp [none, Event.invokedAt]
  · rw [others slot (Nat.ne_of_gt higher)]
    exact passing.rest slot (Nat.le_of_succ_le higher)
  · simpa using passing.running

/-- Behind the last occupied slot the message has been passed on. -/
theorem Passing.passedOn (passing : Passing history stamp i)
    (free : ∀ slot, i ≤ slot → registered history slot = none)
    : PassedOn history stamp := by
  intro slot
  rcases Nat.lt_or_ge slot i with lower | higher
  · exact Or.inl (passing.below slot lower)
  · refine Or.inl ?_
    rw [PassedTo, passing.rest slot higher, free slot higher]
    rfl

/-- A message that a callback has stopped has been passed on. -/
theorem Passing.stopped (passing : Passing history stamp (i + 1))
    (stop : .returned stamp i kprintfMsgStop ∈ history)
    : PassedOn history stamp := by
  intro slot
  rcases Nat.lt_or_ge slot (i + 1) with lower | higher
  · exact Or.inl (passing.below slot lower)
  · exact Or.inr ⟨i, higher, stop⟩

end Passing

/-- The message whose delivery has begun last. -/
def lastBegun (history : List Event) : Nat := (delivered history).length - 1

/-- What is known of that message at each program point. -/
def FlushPc.Dispatches (history : List Event) : FlushPc → Prop
  | .slot _ i | .invoke _ i => Passing history (lastBegun history) i
  | .callback _ i _ _ => Passing history (lastBegun history) (i + 1)
  | .delivered _ => PassedOn history (lastBegun history)
  | _ => True

/-- The same, wherever the event thread is. -/
def EventPc.Dispatches (history : List Event) : EventPc → Prop
  | .flush _ pc => pc.Dispatches history
  | _ => True

/-- The dispatch of the messages, as the history and the place of the event thread tell it. -/
structure Dispatch (history : List Event) (pc : EventPc) : Prop where
  begun
    : ∀ event ∈ history, ∀ stamp, event.dispatches = some stamp →
        stamp < (delivered history).length
  place : pc.Dispatches history
  dispatched : Always Event.Dispatched history

/-- Events that begin no delivery leave the sequence of deliveries alone. -/
theorem delivered_silent {events : List Event} (history : List Event)
    (silent : ∀ event ∈ events, event.ofDispatch = false)
    : delivered (history ++ events) = delivered history := by
  simp only [delivered, List.filterMap_append, List.append_right_eq_self,
    List.filterMap_eq_nil_iff]
  intro event member
  have quiet := silent event member
  cases event <;> first | rfl | contradiction

/-- Events that are not of the dispatch keep it, for any place that is in agreement. -/
theorem Dispatch.append {history events : List Event} {pc pc' : EventPc}
    (dispatch : Dispatch history pc) (silent : ∀ event ∈ events, event.ofDispatch = false)
    (place : pc'.Dispatches (history ++ events))
    : Dispatch (history ++ events) pc' where
  begun := by
    intro event member stamp about
    rw [delivered_silent history silent]
    rcases List.mem_append.mp member with before | now
    · exact dispatch.begun event before stamp about
    · rw [(Event.silent_of_dispatch (silent event now)).1] at about
      contradiction
  place := place
  dispatched := dispatch.dispatched.append fun past event member =>
    (Event.silent_of_dispatch (silent event member)).2.2 past

/-- Events that say nothing of the table either leave the place in agreement. -/
theorem FlushPc.Dispatches.append {history events : List Event} {pc : FlushPc}
    (dispatches : pc.Dispatches history)
    (silent : ∀ event ∈ events, event.ofDispatch = false ∧ event.ofTable = false)
    : pc.Dispatches (history ++ events) := by
  have same : lastBegun (history ++ events) = lastBegun history := by
    unfold lastBegun
    rw [delivered_silent history fun event member => (silent event member).1]
  cases pc with
  | slot | invoke | callback =>
      simp only [FlushPc.Dispatches, same] at dispatches ⊢
      exact dispatches.append silent
  | delivered m =>
      simp only [FlushPc.Dispatches, same] at dispatches ⊢
      intro slot
      rcases dispatches slot with passed | ⟨lower, below, stop⟩
      · left
        unfold PassedTo
        rw [invocations_silent (fun event member => (silent event member).1) slot,
          registered_append history (fun event member => (silent event member).2) slot]
        exact passed
      · exact Or.inr ⟨lower, below, List.mem_append_left _ stop⟩
  | _ => trivial

-----------------------------------------------------------------------------------------
-- The steps of invoke_handlers
-----------------------------------------------------------------------------------------

section Steps

variable {history : List Event} {pc : EventPc} {ev : U32} {m : Addr} {i : Nat}

/-- A message that the handlers have been called for is the one whose delivery has begun last. -/
theorem Delivery.stamp_eq {sh : Shared cfg} {rest : List Addr}
    (delivery : Delivery sh pc (m :: rest)) (passed : pc.passed = 1)
    : (sh.k.mem.block m).stamp = lastBegun sh.history ∧ 0 < (delivered sh.history).length := by
  have begun := congrArg List.length delivery.passed
  have removed := congrArg List.length delivery.removed
  simp only [passed, List.drop_succ_cons, List.drop_zero, List.length_append, List.length_map,
    List.length_cons] at begun removed
  have count : (delivered sh.history).length = (freed sh.history).length + 1 := by omega
  -- The stamps are numbered, and the first queued message follows those that are freed.
  have numbered := delivery.numbered
  rw [delivery.removed] at numbered
  have first := congrArg (fun stamps => stamps[(freed sh.history).length]?) numbered
  have bound : (freed sh.history).length < (accepted sh.history).length := by omega
  simp only [List.map_cons, List.getElem?_append_right le_rfl, Nat.sub_self,
    List.getElem?_cons_zero, List.getElem?_range bound, Option.some.injEq] at first
  refine ⟨?_, by omega⟩
  rw [lastBegun, count]
  exact first

/-- A delivery begins with no handler called. -/
theorem Dispatch.begins (dispatch : Dispatch history pc) (stamp : Nat) (body : MsgBody)
    : Dispatch (history ++ [.deliveryBegins stamp body]) (.flush ev (.slot m 0)) := by
  have grown : (delivered (history ++ [.deliveryBegins stamp body])).length
      = (delivered history).length + 1 := by
    simp [delivered]
  have fresh : ∀ event ∈ history, event.dispatches ≠ some (delivered history).length := by
    intro event member about
    exact Nat.lt_irrefl _ (dispatch.begun event member _ about)
  refine ⟨?_, ⟨by simp, fun slot _ => ?_, ?_⟩, ?_⟩
  · intro event member other about
    rw [grown]
    rcases List.mem_append.mp member with before | now
    · exact Nat.lt_succ_of_lt (dispatch.begun event before other about)
    · rw [List.mem_singleton.mp now] at about
      contradiction
  · rw [lastBegun, grown, Nat.add_sub_cancel,
      invocations_append history (List.forall_mem_singleton.mpr rfl)]
    exact List.filter_eq_nil_iff.mpr fun event member =>
      Bool.eq_false_iff.mp (Event.invokedAt_other (fresh event member) slot)
  · rw [lastBegun, grown, Nat.add_sub_cancel]
    intro ended
    exact fresh _ (by simpa using ended) rfl
  · exact always_concat.mpr ⟨dispatch.dispatched, trivial⟩

/-- The callback of a slot is that of the pair registered in it. -/
theorem Dispatch.invokes {cb : Callback} {arg : U32}
    (dispatch : Dispatch history (.flush ev (.invoke m i)))
    (held : registered history i = some (cb, arg)) (begun : 0 < (delivered history).length)
    : Dispatch (history ++ [.invoked (lastBegun history) i cb arg])
        (.flush ev (.callback m i cb none)) := by
  have same : delivered (history ++ [.invoked (lastBegun history) i cb arg])
      = delivered history := by
    simp [delivered]
  have passing : Passing history (lastBegun history) i := dispatch.place
  refine ⟨?_, ?_, always_concat.mpr ⟨dispatch.dispatched, held, passing.running⟩⟩
  · intro event member stamp about
    rw [same]
    rcases List.mem_append.mp member with before | now
    · exact dispatch.begun event before stamp about
    · rw [List.mem_singleton.mp now] at about
      cases about
      exact Nat.sub_lt begun Nat.one_pos
  · have last : lastBegun (history ++ [.invoked (lastBegun history) i cb arg])
        = lastBegun history := congrArg (fun stamps => stamps.length - 1) same
    simp only [EventPc.Dispatches, FlushPc.Dispatches, last]
    exact passing.calls held

/-- A delivery ends when the message has been passed on. -/
theorem Dispatch.ends (dispatch : Dispatch history (.flush ev (.delivered m)))
    (begun : 0 < (delivered history).length)
    : Dispatch (history ++ [.deliveryEnds (lastBegun history)]) (.flush ev (.readNext m)) := by
  have same : delivered (history ++ [.deliveryEnds (lastBegun history)]) = delivered history := by
    simp [delivered]
  refine ⟨?_, trivial, always_concat.mpr ⟨dispatch.dispatched, dispatch.place⟩⟩
  intro event member stamp about
  rw [same]
  rcases List.mem_append.mp member with before | now
  · exact dispatch.begun event before stamp about
  · rw [List.mem_singleton.mp now] at about
    cases about
    exact Nat.sub_lt begun Nat.one_pos

/-- A callback that returns has been called, and may stop the message. -/
theorem Dispatch.returns {cb : Callback} {res : Int}
    (dispatch : Dispatch history (.flush ev (.callback m i cb none)))
    : Dispatch (history ++ [.returned (lastBegun history) i res])
        (.flush ev (if res = kprintfMsgStop then .delivered m else .slot m (i + 1))) := by
  have silent : ∀ event ∈ [Event.returned (lastBegun history) i res],
      event.ofDispatch = false ∧ event.ofTable = false :=
    List.forall_mem_singleton.mpr ⟨rfl, rfl⟩
  have same : lastBegun (history ++ [.returned (lastBegun history) i res]) = lastBegun history := by
    simp [lastBegun, delivered]
  have passing : Passing history (lastBegun history) (i + 1) := dispatch.place
  have later := passing.append silent
  refine dispatch.append (fun event member => (silent event member).1) ?_
  split
  · rename_i stop
    subst stop
    simp only [EventPc.Dispatches, FlushPc.Dispatches, same]
    exact later.stopped (by simp)
  · simp only [EventPc.Dispatches, FlushPc.Dispatches, same]
    exact later

/-- A place without a message on its way is in agreement. -/
theorem Dispatch.away {events : List Event} {pc' : EventPc} (dispatch : Dispatch history pc)
    (silent : ∀ event ∈ events, event.ofDispatch = false)
    (place : ∀ history, pc'.Dispatches history)
    : Dispatch (history ++ events) pc' :=
  dispatch.append silent (place _)

/-- So is the place of before, while nobody writes the table. -/
theorem Dispatch.stays {events : List Event} (dispatch : Dispatch history pc)
    (silent : ∀ event ∈ events, event.ofDispatch = false)
    (table : ∀ flushEv place, pc = .flush flushEv place → ∀ event ∈ events, event.ofTable = false)
    : Dispatch (history ++ events) pc := by
  refine dispatch.append silent ?_
  cases pc with
  | flush ev place =>
      exact FlushPc.Dispatches.append dispatch.place
        fun event member => ⟨silent event member, table ev place rfl event member⟩
  | _ => trivial

end Steps

-----------------------------------------------------------------------------------------
-- The event thread
-----------------------------------------------------------------------------------------

/-- A running API call is no event of the dispatch, and writes of the table only between its
semaphore calls.
-/
theorem apiCallStep_events {thread : ThreadRef} {call : ApiCall} {sh sh' : Shared cfg}
    {api : ApiPc} {api' : Option ApiPc} {choice : Choice cfg}
    (stepped : apiCallStep thread call sh api choice = .next (sh', api'))
    : ∃ events, sh'.history = sh.history ++ events
        ∧ ∀ event ∈ events, event.ofDispatch = false
            ∧ (api.locked = false → event.ofTable = false) := by
  obtain ⟨ret, rfl, rfl, rfl⟩ | ⟨pc', ran, rfl⟩ := apiCallStep_cases stepped
  · exact ⟨[_], rfl, List.forall_mem_singleton.mpr ⟨rfl, fun _ => rfl⟩⟩
  · obtain ⟨events, history, kinds⟩ := (apiStep_effect ran).events
    refine ⟨events, history, fun event member => ?_⟩
    obtain ⟨ofApi, table⟩ := kinds event member
    exact ⟨Event.ofDispatch_eq_false (Or.inl ofApi), table⟩

/-- Every step of flush_messages dispatches as registered, by cases of its program point. -/
theorem Dispatch.flush {thid : Uid} {sh sh' : Shared cfg} {ev : U32} {nodes : List Addr}
    {pc : FlushPc} {pc' : Option FlushPc} {choice : Choice cfg}
    (dispatch : Dispatch sh.history (.flush ev pc)) (delivery : Delivery sh (.flush ev pc) nodes)
    (table : ∀ slot, sh.g.pairAt slot = registered sh.history slot)
    (nested : ∀ call api, pc.nested = some (call, api) → api.locked = false)
    (stepped : flushStep thid sh pc choice = .next (sh', pc'))
    : Dispatch sh'.history (pc'.elim (.signal ev) (.flush ev)) := by
  have moved {pc' : EventPc} (place : pc'.Dispatches sh.history) : Dispatch sh.history pc' :=
    ⟨dispatch.begun, place, dispatch.dispatched⟩
  cases pc with
  | start | advance n =>
      simp only [flushStep, Choice.onGo_eq_next, StepResult.next.injEq, Prod.mk.injEq] at stepped
      obtain ⟨_, rfl, rfl⟩ := stepped
      exact moved trivial
  | test m =>
      simp only [flushStep, Choice.onGo_eq_next, StepResult.next.injEq] at stepped
      obtain ⟨_, stepped⟩ := stepped
      split at stepped <;> cases stepped
      · exact moved trivial
      · exact dispatch.begins _ _
  | slot m i =>
      have passing : Passing sh.history (lastBegun sh.history) i := dispatch.place
      simp only [flushStep, Choice.onGo_eq_next, StepResult.next.injEq] at stepped
      obtain ⟨_, stepped⟩ := stepped
      split at stepped
      · split at stepped <;> cases stepped
        · rename_i unused
          refine moved (passing.skip ?_)
          rw [← table i]
          exact Globals.pairAt_eq_none.mpr unused
        · exact moved passing
      · rename_i bound
        cases stepped
        refine moved (passing.passedOn fun slot higher => ?_)
        rw [← table slot]
        exact Globals.pairAt_out (by omega)
  | invoke m i =>
      obtain ⟨rest, rfl⟩ := delivery.first rfl
      obtain ⟨stamp, begun⟩ := delivery.stamp_eq rfl
      simp only [flushStep, Choice.onGo_eq_next] at stepped
      obtain ⟨_, stepped⟩ := stepped
      split at stepped
      · rename_i cb arg slot
        split at stepped
        · cases stepped
          simp only [Shared.note_history, stamp]
          refine dispatch.invokes ?_ begun
          rw [← table i]
          simp [Globals.pairAt, slot]
        · contradiction
      · contradiction
  | callback m i cb running =>
      obtain ⟨rest, rfl⟩ := delivery.first rfl
      obtain ⟨stamp, _⟩ := delivery.stamp_eq rfl
      -- Inside a callback the exported functions it calls do not matter.
      have place : (FlushPc.callback m i cb none).Dispatches sh.history := dispatch.place
      cases flushStep_effect stepped with
      | read place | observe _ place => simp [FlushPc.inCallback] at place
      | callbackReturns =>
          simp only [Shared.note_history, stamp]
          exact dispatch.returns
      | callbackCalls =>
          refine dispatch.append (List.forall_mem_singleton.mpr rfl) ?_
          exact place.append (List.forall_mem_singleton.mpr ⟨rfl, rfl⟩)
      | nested called =>
          obtain ⟨events, history, kinds⟩ := apiCallStep_events called
          rw [history]
          refine dispatch.append (fun event member => (kinds event member).1) ?_
          refine place.append fun event member => ?_
          exact ⟨(kinds event member).1, (kinds event member).2 (nested _ _ rfl)⟩
  | delivered m =>
      obtain ⟨rest, rfl⟩ := delivery.first rfl
      obtain ⟨stamp, begun⟩ := delivery.stamp_eq rfl
      simp only [flushStep, Choice.onGo_eq_next, StepResult.next.injEq, Prod.mk.injEq] at stepped
      obtain ⟨_, rfl, rfl⟩ := stepped
      simp only [Shared.note_history, stamp]
      exact dispatch.ends begun
  | readNext m =>
      simp only [flushStep, Choice.onGo_eq_next, StepResult.map_eq_next, Prod.mk.injEq] at stepped
      obtain ⟨_, n, _, rfl, rfl⟩ := stepped
      exact moved trivial
  | remove m n =>
      simp only [flushStep, Choice.onGo_eq_next, StepResult.map_eq_next, Prod.exists,
        StepResult.ofMemory_eq_next, Prod.mk.injEq] at stepped
      obtain ⟨_, _, ret, removed, rfl, rfl⟩ := stepped
      obtain ⟨head, mem, events, freed, rfl⟩ := removeDeleteMsg_effect removed
      refine dispatch.away (fun event member => ?_) (fun _ => trivial)
      obtain ⟨stamp, rfl⟩ := freed event member
      rfl

/-- Every step of the event thread dispatches as registered, by cases of its effect. -/
theorem Dispatch.event {thid : Uid} {sh sh' : Shared cfg} {pc pc' : EventPc} {nodes : List Addr}
    (dispatch : Dispatch sh.history pc) (delivery : Delivery sh pc nodes)
    (table
      : pc.locked = true → (∀ api, pc ≠ .register api) →
          ∀ slot, sh.g.pairAt slot = registered sh.history slot)
    (nested : ∀ call api, pc.nested = some (call, api) → api.locked = false)
    (effect : EventEffect thid sh pc sh' pc')
    : Dispatch sh'.history pc' := by
  have moved {pc' : EventPc} (place : pc'.Dispatches sh.history) : Dispatch sh.history pc' :=
    ⟨dispatch.begun, place, dispatch.dispatched⟩
  cases effect with
  | move move =>
      have free := move.free.2
      refine moved ?_
      cases pc' <;> trivial
  | callRegister | stopOk =>
      exact dispatch.away (List.forall_mem_singleton.mpr rfl) (fun _ => trivial)
  | @register api sh' api' choice stepped =>
      obtain ⟨events, history, kinds⟩ := apiCallStep_events stepped
      rw [history]
      refine dispatch.away (fun event member => (kinds event member).1) fun _ => ?_
      cases api' <;> trivial
  | flush stepped => exact dispatch.flush delivery (table rfl (by simp)) nested stepped
  | wake | acquire | release | resend => exact moved trivial

/-- While the event thread is in a flush the table holds exactly the registered pairs. -/
theorem table_in_flush {s : State cfg} {thid : Uid} (registry : Registry s.inApi s.sh)
    (exclusion : Exclusion s) (locked : (s.threads thid).locked = true)
    (outside : ∀ api, s.threads thid ≠ .register api) (slot : Nat)
    : s.sh.g.pairAt slot = registered s.sh.history slot := by
  refine registry.table slot fun thread call args engaged => ?_
  have held : (s.inApi thread).locked = true := by rw [engaged]; rfl
  obtain ⟨holder, _, guarded⟩ := exclusion.owned
  have self : thread = .event thid :=
    guarded.exclusive (exclusion.locked_of_inApi held) (show s.locked (.event thid) = true from locked)
  subst self
  have nested : (s.threads thid).nested = some (call, .regSetArg args slot) := by
    cases place : s.threads thid with
    | register api => exact absurd place (outside api)
    | _ => simpa [State.inApi, place, EventPc.inApi] using engaged
  have unlocked := exclusion.nested thid _ _ nested
  simp [ApiPc.locked] at unlocked

/-- A client is no event of the dispatch, and writes of the table only between its semaphore
calls.
-/
theorem ClientEffect.events {n : Nat} {sh sh' : Shared cfg} {pc pc' : ClientPc}
    (effect : ClientEffect n sh pc sh' pc')
    : ∃ events, sh'.history = sh.history ++ events
        ∧ ∀ event ∈ events, event.ofDispatch = false
            ∧ (pc.locked = false → event.ofTable = false) := by
  cases effect with
  | enter | leave => exact ⟨[_], rfl, List.forall_mem_singleton.mpr ⟨rfl, fun _ => rfl⟩⟩
  | run stepped =>
      obtain ⟨events, history, kinds⟩ := (apiStep_effect stepped).events
      refine ⟨events, history, fun event member => ?_⟩
      obtain ⟨ofApi, table⟩ := kinds event member
      refine ⟨Event.ofDispatch_eq_false (Or.inl ofApi), ?_⟩
      simpa [ClientPc.locked] using table

/-- Every step in the session dispatches as registered. -/
theorem dispatch_step {s t : State cfg} {action : Action cfg}
    (dispatch : Dispatch s.sh.history (s.threads s.sh.g.gThid)) (session : Session s)
    (exclusion : Exclusion s) (delivering : Delivering s) (registry : Registry s.inApi s.sh)
    (inside : s.loader.inSession = true) (single : SingleSession s action)
    (stepped : s.step action = some t)
    : Dispatch t.sh.history (t.threads t.sh.g.gThid) := by
  cases State.step_cases stepped with
  | crash | overRegister => exact dispatch
  | kprintf printed =>
      obtain ⟨events, history, accepted⟩ := kprintf_events printed
      have silent (event : Event) (member : event ∈ events) : event.ofDispatch = false
          ∧ event.ofTable = false := by
        obtain ⟨stamp, body, rfl⟩ := accepted event member
        exact ⟨rfl, rfl⟩
      rw [history, (kprintf_frame printed).gThid]
      exact dispatch.stays (fun event member => (silent event member).1)
        (fun _ _ _ event member => (silent event member).2)
  | @event thid choice sh' pc' ran =>
      obtain rfl := session.runs ran
      obtain ⟨nodes, delivery⟩ := delivering.delivery
      have effect := eventStep_effect ran
      have gThid := effect.frame.gThid
      simpa [gThid] using dispatch.event delivery (table_in_flush registry exclusion)
        (exclusion.nested _) effect
  | @client n choice sh' pc' ran =>
      have effect := clientStep_effect ran
      obtain ⟨events, history, kinds⟩ := effect.events
      rw [history, effect.frame.gThid]
      refine dispatch.stays (fun event member => (kinds event member).1) ?_
      intro ev place flushing event member
      refine (kinds event member).2 ?_
      obtain ⟨holder, _, guarded⟩ := exclusion.owned
      by_contra locked
      have entered : s.locked (.client n) = true := by simpa [State.locked, ClientPc.locked] using locked
      have held : s.locked (.event s.sh.g.gThid) = true := by
        simp [State.locked, flushing, EventPc.locked]
      exact absurd (guarded.exclusive entered held) (by simp)
  | loader ran =>
      obtain ⟨effect, rfl⟩ := loaderStep_effect ran inside (not_start single inside)
      obtain ⟨events, history, kinds⟩ := effect.events
      rw [history, effect.frame_gThid]
      refine dispatch.stays (fun event member => ?_) (fun _ _ _ event member => (kinds event member).2.2)
      exact Event.ofDispatch_eq_false (Or.inr (Or.inl (kinds event member).2.1))

/-- Before the session nothing is dispatched. -/
theorem dispatched_beforeSession {history : List Event}
    (before : ∀ event ∈ history, event.BeforeSession)
    : Always Event.Dispatched history := by
  have always : Always Event.Dispatched ([] ++ history) := by
    refine Always.nil.append fun past event member => ?_
    have quiet := Event.ofDispatch_eq_false (Or.inr (Or.inr (before event member)))
    exact (Event.silent_of_dispatch quiet).2.2 past
  simpa using always

/-- In every state of the session messages are dispatched as registered. -/
theorem dispatching {s : State cfg} (reach : (machine cfg).Reachable SingleSession s)
    (inside : s.loader.inSession = true)
    : Dispatch s.sh.history (s.threads s.sh.g.gThid) := by
  refine session_invariant (P := fun s => Dispatch s.sh.history (s.threads s.sh.g.gThid))
    (fun _ _ single => single) ?_ ?_ reach inside
  · intro s _ fresh
    refine ⟨fun event member stamp about => ?_, ?_, ?_⟩
    · have quiet := Event.ofDispatch_eq_false (Or.inr (Or.inr (fresh.history event member)))
      rw [(Event.silent_of_dispatch quiet).1] at about
      contradiction
    · rcases fresh.polling with polls | polls <;> rw [polls] <;> trivial
    · exact dispatched_beforeSession fresh.history
  · exact fun _ _ _ reach inside dispatch single stepped =>
      dispatch_step dispatch (session reach inside) (exclusion reach inside)
        (delivering reach inside) (registry reach inside) inside single stepped

/-- What holds in a flush: the messages are dispatched as registered, the table is what has been
registered, and an exported function that the callback is in is outside its semaphore calls.
-/
theorem in_flush {s : State cfg} (reach : (machine cfg).Reachable SingleSession s)
    (inside : s.loader.inSession = true) {ev : U32} {pc : FlushPc}
    (place : s.threads s.sh.g.gThid = .flush ev pc)
    : Dispatch s.sh.history (.flush ev pc)
      ∧ (∀ slot, s.sh.g.pairAt slot = registered s.sh.history slot)
      ∧ ∀ call api, pc.nested = some (call, api) → api.locked = false := by
  have dispatch := dispatching reach inside
  have exclusive := exclusion reach inside
  have locked : (s.threads s.sh.g.gThid).locked = true := by rw [place]; rfl
  rw [place] at dispatch
  refine ⟨dispatch, table_in_flush (registry reach inside) exclusive locked (by simp [place]),
    fun call api running => exclusive.nested s.sh.g.gThid call api ?_⟩
  simpa [place, EventPc.nested] using running

end LibKprintf
