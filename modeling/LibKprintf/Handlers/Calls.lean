import LibKprintf.Foundation.History
import LibKprintf.Session.Table

/-! The calls of the exported functions: which thread is in which call, as the state has it
and as the history tells it.
-/

namespace LibKprintf

open Foundation

variable {cfg : Config}

/-- The thread whose call or return an event is. -/
def Event.callOf : Event → Option ThreadRef
  | .called thread _ | .answered thread _ _ => some thread
  | _ => none

/-- What an event says of the call that a thread is in. -/
def Event.tellsCall (thread : ThreadRef) : Event → Option (Option ApiCall)
  | .called other call => if other = thread then some (some call) else none
  | .answered other _ _ => if other = thread then some none else none
  | _ => none

/-- The call of an exported function that a thread is in, as the history tells it. -/
def underWay (history : List Event) (thread : ThreadRef) : Option ApiCall :=
  (latest (Event.tellsCall thread) history).join

/-- The calls and returns of others leave the call of a thread under way. -/
theorem underWay_append {events : List Event} (history : List Event) {thread : ThreadRef}
    (apart : ∀ event ∈ events, event.callOf ≠ some thread)
    : underWay (history ++ events) thread = underWay history thread := by
  rw [underWay, latest_append_of_silent]
  · rfl
  · intro event member
    have other := apart event member
    cases event with
    | called | answered => exact if_neg fun same => other (congrArg some same)
    | _ => rfl

/-- A call is under way once it has begun. -/
theorem underWay_called (history : List Event) (thread : ThreadRef) (call : ApiCall)
    : underWay (history ++ [.called thread call]) thread = some call := by
  rw [underWay, latest_concat (a := some call) (by simp [Event.tellsCall])]
  rfl

/-- Between the two parts of a history a thread's call has noted an event, and the thread has
neither returned nor called since.
-/
structure NotedAt (early late : List Event) (thread : ThreadRef) (call : ApiCall) (event : Event)
    (history : List Event)
    : Prop where
  split : history = early ++ event :: late
  running : underWay early thread = some call
  since : ∀ other ∈ late, other.callOf ≠ some thread

/-- The call under way has noted an event, and is still under way. -/
def Noted (history : List Event) (thread : ThreadRef) (call : ApiCall) (event : Event) : Prop :=
  ∃ early late, NotedAt early late thread call event history

/-- What has been noted stays so until the thread calls or returns. -/
theorem Noted.append {history events : List Event} {thread : ThreadRef} {call : ApiCall}
    {event : Event} (noted : Noted history thread call event)
    (apart : ∀ event ∈ events, event.callOf ≠ some thread)
    : Noted (history ++ events) thread call event := by
  obtain ⟨early, late, rfl, running, silent⟩ := noted
  refine ⟨early, late ++ events, by simp, running, fun other member => ?_⟩
  exact (List.mem_append.mp member).elim (silent other) (apart other)

/-- The event that a call notes has been noted. -/
theorem Noted.now {history : List Event} {thread : ThreadRef} {call : ApiCall}
    (running : underWay history thread = some call) (event : Event)
    : Noted (history ++ [event]) thread call event :=
  ⟨history, [], rfl, running, by simp⟩

/-- The exported function that the event thread is in, at its start-up or in a callback. -/
def EventPc.inApi : EventPc → ClientPc
  | .register api => some (.registerDefaultHandler, api)
  | pc => pc.nested

/-- The exported function that a thread is in. -/
def State.inApi (s : State cfg) : ThreadRef → ClientPc
  | .event thid => (s.threads thid).inApi
  | .client n => s.clients n

/-- Moving the event thread changes the call of its own only. -/
theorem inApi_event (s : State cfg) (sh' : Shared cfg) (thid : Uid) (pc' : EventPc)
    : ({ s with sh := sh', threads := Function.update s.threads thid pc' } : State cfg).inApi
      = Function.update s.inApi (.event thid) pc'.inApi := by
  funext other
  cases other with
  | event other =>
      by_cases same : other = thid
      · subst same
        simp [State.inApi]
      · simp [State.inApi, same]
  | client n => simp [State.inApi]

/-- Moving a client changes the call of its own only. -/
theorem inApi_client (s : State cfg) (sh' : Shared cfg) (n : Nat) (pc' : ClientPc)
    : ({ s with sh := sh', clients := Function.update s.clients n pc' } : State cfg).inApi
      = Function.update s.inApi (.client n) pc' := by
  funext other
  cases other with
  | event thid => simp [State.inApi]
  | client other =>
      by_cases same : other = n
      · subst same
        simp [State.inApi]
      · simp [State.inApi, same]

/-- The events that the event thread notes outside the exported functions. -/
def Event.ofEventThread : Event → Bool
  | .deliveryBegins .. | .invoked .. | .returned .. | .deliveryEnds _ | .freed _
  | .acknowledged _ => true
  | _ => false

/-- How a step of a thread moves its call: it is outside, enters a call, runs on in it, or
returns from it.
-/
inductive CallMove (thread : ThreadRef) (sh sh' : Shared cfg) : ClientPc → ClientPc → Prop
  | outside {events} (history : sh'.history = sh.history ++ events)
    (ofEventThread : ∀ event ∈ events, event.ofEventThread = true)
    (handlers : sh'.g.gHandlers = sh.g.gHandlers) (hook : sh'.k.hook = sh.k.hook)
    : CallMove thread sh sh' none none
  | enter {call} (entered : sh' = sh.note (.called thread call))
    : CallMove thread sh sh' none (some (call, apiEntry sh call))
  | run {call api api' choice} (ran : apiStep thread sh api choice = .next (sh', api'))
    : CallMove thread sh sh' (some (call, api)) (some (call, api'))
  | leave {call ret} (left : sh' = sh.note (.answered thread call ret))
    : CallMove thread sh sh' (some (call, .done ret)) none

/-- The events of a delivery are among them. -/
theorem Event.ofEventThread_of_delivery {event : Event} (ofDelivery : event.ofDelivery = true)
    : event.ofEventThread = true := by
  cases event <;> first | rfl | contradiction

/-- They are no calls, and say nothing of the table. -/
theorem Event.silent_of_eventThread {event : Event} (ofEventThread : event.ofEventThread = true)
    : event.callOf = none ∧ event.ofTable = false := by
  cases event <;> first | exact ⟨rfl, rfl⟩ | contradiction

/-- A step that notes nothing and leaves the handlers and the hook alone. -/
theorem CallMove.quiet {thread : ThreadRef} {sh sh' : Shared cfg}
    (history : sh'.history = sh.history) (handlers : sh'.g.gHandlers = sh.g.gHandlers)
    (hook : sh'.k.hook = sh.k.hook)
    : CallMove thread sh sh' none none :=
  .outside (history.trans (List.append_nil _).symm) (by simp) handlers hook

/-- A running API call runs on or returns. -/
theorem apiCallStep_callMove {thread : ThreadRef} {call : ApiCall} {sh sh' : Shared cfg}
    {api : ApiPc} {api' : Option ApiPc} {choice : Choice cfg}
    (stepped : apiCallStep thread call sh api choice = .next (sh', api'))
    : CallMove thread sh sh' (some (call, api)) (api'.map (call, ·)) := by
  obtain ⟨ret, rfl, rfl, rfl⟩ | ⟨pc', ran, rfl⟩ := apiCallStep_cases stepped
  · exact .leave rfl
  · exact .run ran

/-- How a step of flush_messages moves the call of its callback. -/
theorem FlushEffect.callMove {thid : Uid} {sh sh' : Shared cfg} {pc : FlushPc}
    {pc' : Option FlushPc} (effect : FlushEffect thid sh pc sh' pc')
    : CallMove (.event thid) sh sh' pc.nested (pc'.bind FlushPc.nested) := by
  have none {pc : FlushPc} (place : pc.inCallback = false) : pc.nested = none := by
    cases pc <;> simp_all [FlushPc.inCallback, FlushPc.nested]
  have noneAfter (outside : ∀ next, pc' = some next → next.nested = Option.none) :
      pc'.bind FlushPc.nested = Option.none := by
    cases pc' with
    | none => rfl
    | some next => exact outside next rfl
  cases effect with
  | read place outside =>
      rw [none place, noneAfter outside]
      exact .quiet rfl rfl rfl
  | @observe _ _ event ofDelivery place outside =>
      rw [none place, noneAfter outside]
      refine .outside rfl (List.forall_mem_singleton.mpr ?_) rfl rfl
      exact Event.ofEventThread_of_delivery ofDelivery
  | @callbackReturns m i cb res =>
      have after : (if res = kprintfMsgStop then FlushPc.delivered m else .slot m (i + 1)).nested
          = Option.none := by
        split <;> rfl
      simp only [Option.bind_some, after]
      exact .outside rfl (List.forall_mem_singleton.mpr rfl) rfl rfl
  | callbackCalls => exact .enter rfl
  | nested stepped => exact apiCallStep_callMove stepped
  | remove freed =>
      refine .outside rfl (fun event member => ?_) rfl rfl
      obtain ⟨stamp, rfl⟩ := freed event member
      rfl

/-- How a step of the event thread moves its call. -/
theorem EventEffect.callMove {thid : Uid} {sh sh' : Shared cfg} {pc pc' : EventPc}
    (effect : EventEffect thid sh pc sh' pc')
    : CallMove (.event thid) sh sh' pc.inApi pc'.inApi := by
  cases effect with
  | move move =>
      have none (pc : EventPc) (free : pc.free = true) : pc.inApi = none := by
        cases pc <;> first | rfl | contradiction
      rw [none _ move.free.1, none _ move.free.2]
      exact .quiet rfl rfl rfl
  | callRegister => exact .enter rfl
  | @register api sh' api' choice stepped =>
      have moved := apiCallStep_callMove stepped
      cases api' <;> exact moved
  | @flush ev pc sh' pc' choice stepped =>
      have moved := (flushStep_effect stepped).callMove
      cases pc' <;> exact moved
  | wake took =>
      obtain ⟨evflags, rfl⟩ := takeEventFlag_shape took
      exact .quiet rfl rfl rfl
  | acquire took =>
      obtain ⟨semas, rfl⟩ := takeSema_shape took
      exact .quiet rfl rfl rfl
  | release =>
      obtain ⟨semas, same⟩ := signalSema_shape sh.k sh.g.gSemid
      exact .quiet rfl rfl (by simp [same])
  | resend => exact .quiet rfl rfl (by simp)
  | stopOk => exact .outside rfl (List.forall_mem_singleton.mpr rfl) rfl (by simp)

/-- How a step of a client moves its call. -/
theorem ClientEffect.callMove {n : Nat} {sh sh' : Shared cfg} {pc pc' : ClientPc}
    (effect : ClientEffect n sh pc sh' pc')
    : CallMove (.client n) sh sh' pc pc' := by
  cases effect with
  | enter => exact .enter rfl
  | leave => exact .leave rfl
  | run stepped => exact .run stepped

-----------------------------------------------------------------------------------------
-- What a step notes
-----------------------------------------------------------------------------------------

/-- A Kprintf call notes at most the message that it has accepted. -/
theorem kprintf_events {sh sh' : Shared cfg} {during} (printed : kprintf sh during = .next sh')
    : ∃ events, sh'.history = sh.history ++ events
        ∧ ∀ event ∈ events, ∃ stamp body, event = .accepted stamp body := by
  obtain rfl | ⟨_, head, mem, stamp, body, rfl⟩ := kprintf_effect printed
  · exact ⟨[], by simp, by simp⟩
  · exact ⟨[_], rfl, by simp⟩

/-- The events that the functions behind the exported ones note. -/
def Event.ofApi : Event → Bool
  | .accepted .. | .stored .. | .cleared .. => true
  | _ => false

/-- The events of the table are among them. -/
theorem Event.ofApi_of_table {event : Event} (ofTable : event.ofTable = true)
    : event.ofApi = true := by
  cases event <;> first | rfl | contradiction

/-- They are no calls and no events of a delivery. -/
theorem Event.silent_of_api {event : Event} (ofApi : event.ofApi = true)
    : event.callOf = none ∧ event.ofDelivery = false := by
  cases event <;> first | exact ⟨rfl, rfl⟩ | contradiction

/-- An API function writes of the table only between its semaphore calls. -/
theorem ApiEffect.events {thread : ThreadRef} {sh sh' : Shared cfg} {pc pc' : ApiPc}
    (effect : ApiEffect thread sh pc sh' pc')
    : ∃ events, sh'.history = sh.history ++ events
        ∧ ∀ event ∈ events, event.ofApi = true ∧ (pc.locked = false → event.ofTable = false) := by
  cases effect with
  | @work pc pc' default count handlers events locked _ ofTable =>
      refine ⟨events, rfl, fun event member => ?_⟩
      refine ⟨Event.ofApi_of_table (ofTable event member), fun free => ?_⟩
      rw [locked] at free
      contradiction
  | announce printed =>
      rcases printed with rfl | ⟨during, printed⟩
      · exact ⟨[], by simp, by simp⟩
      · obtain ⟨events, history, accepted⟩ := kprintf_events printed
        refine ⟨events, history, fun event member => ?_⟩
        obtain ⟨stamp, body, rfl⟩ := accepted event member
        exact ⟨rfl, fun _ => rfl⟩
  | acquire | refuse | release | dipsw | hook => exact ⟨[], by simp, by simp⟩

/-- Whether a thread in a call is between the semaphore calls of its function. -/
def ClientPc.locked (pc : ClientPc) : Bool :=
  pc.any (fun running => running.2.locked)

/-- A step of a thread notes calls and returns of its own only, and writes of the table only
between the semaphore calls of its function.
-/
theorem CallMove.events {thread : ThreadRef} {sh sh' : Shared cfg} {before after : ClientPc}
    (move : CallMove thread sh sh' before after)
    : ∃ events, sh'.history = sh.history ++ events
        ∧ ∀ event ∈ events, (∀ other, other ≠ thread → event.callOf ≠ some other)
            ∧ (before.locked = false → event.ofTable = false) := by
  cases move with
  | outside history ofEventThread =>
      refine ⟨_, history, fun event member => ?_⟩
      obtain ⟨noCall, noTable⟩ := Event.silent_of_eventThread (ofEventThread event member)
      exact ⟨by simp [noCall], fun _ => noTable⟩
  | enter entered | leave entered =>
      subst entered
      refine ⟨[_], rfl, List.forall_mem_singleton.mpr ⟨?_, fun _ => rfl⟩⟩
      intro other different same
      exact different (Option.some.inj same).symm
  | run ran =>
      obtain ⟨events, history, kinds⟩ := (apiStep_effect ran).events
      refine ⟨events, history, fun event member => ?_⟩
      obtain ⟨ofApi, table⟩ := kinds event member
      exact ⟨by simp [(Event.silent_of_api ofApi).1], by simpa [ClientPc.locked] using table⟩

/-- A step of a thread outside the semaphore calls of its function leaves the table alone. -/
theorem CallMove.handlers {thread : ThreadRef} {sh sh' : Shared cfg} {before after : ClientPc}
    (move : CallMove thread sh sh' before after) (unlocked : before.locked = false)
    : sh'.g.gHandlers = sh.g.gHandlers := by
  cases move with
  | outside _ _ handlers _ => exact handlers
  | enter entered | leave entered => rw [entered]; rfl
  | run ran => exact ((apiStep_effect ran).table (by simpa [ClientPc.locked] using unlocked)).handlers

/-- Another place of one thread that is in no call puts no thread into one. -/
theorem inApi_update {threads : Threads} {id : Uid} {pc : EventPc} (outside : pc.inApi = none)
    (thid : Uid)
    : (Function.update threads id pc thid).inApi = (threads thid).inApi
      ∨ (Function.update threads id pc thid).inApi = none := by
  by_cases same : thid = id
  · subst same
    simp [outside]
  · simp [same]

/-- The events that init notes. -/
def Event.ofInit : Event → Bool
  | .created .. | .deleted .. | .initBegins | .initReturns _ => true
  | event => event.ofApi

/-- They are no calls. -/
theorem Event.silent_of_init {event : Event} (ofInit : event.ofInit = true)
    : event.callOf = none := by
  cases event <;> first | rfl | contradiction

/-- The events of the functions behind the exported ones are among them, and do not begin init. -/
theorem Event.ofInit_of_api {event : Event} (ofApi : event.ofApi = true)
    : event.ofInit = true ∧ event ≠ .initBegins := by
  cases event <;> first | contradiction | exact ⟨rfl, nofun⟩

/-- init notes its beginning at one program point and puts no thread into a call, by cases of
its program point.
-/
theorem initStep_events {sh sh' : Shared cfg} {threads threads' : Threads} {pc : InitPc}
    {l : InitLocals} {pc' : LoaderPc} {choice : Choice cfg}
    (stepped : initStep sh threads pc l choice = .next (sh', threads', pc'))
    : (∃ events, sh'.history = sh.history ++ events
        ∧ ∀ event ∈ events, event.ofInit = true ∧ (event = .initBegins → pc = .starting))
      ∧ ∀ thid, (threads' thid).inApi = (threads thid).inApi ∨ (threads' thid).inApi = none := by
  have silent : ∃ events, sh.history = sh.history ++ events
      ∧ ∀ event ∈ events, event.ofInit = true ∧ (event = .initBegins → pc = .starting) :=
    ⟨[], by simp, by simp⟩
  have noted {event : Event} (ofInit : event.ofInit = true)
      (begins : event = .initBegins → pc = .starting) : ∃ events,
      sh.history ++ [event] = sh.history ++ events
        ∧ ∀ event ∈ events, event.ofInit = true ∧ (event = .initBegins → pc = .starting) :=
    ⟨[event], rfl, List.forall_mem_singleton.mpr ⟨ofInit, begins⟩⟩
  cases pc with
  | install api =>
      obtain ⟨ret, rfl, same⟩ | ⟨sh'', api', ran, same⟩ := initStep_install stepped
      · cases same
        exact ⟨silent, fun _ => Or.inl rfl⟩
      · cases same
        obtain ⟨events, history, kinds⟩ := (apiStep_effect ran).events
        refine ⟨⟨events, history, fun event member => ?_⟩, fun _ => Or.inl rfl⟩
        obtain ⟨ofInit, other⟩ := Event.ofInit_of_api (kinds event member).1
        exact ⟨ofInit, (absurd · other)⟩
  | stdout =>
      simp only [initStep] at stepped
      split at stepped
      · cases stepped
        exact ⟨silent, fun _ => Or.inl rfl⟩
      · contradiction
  | createVpl | createEventFlag | createSema =>
      simp only [initStep, createStep_eq_next] at stepped
      obtain ⟨id, _, _, _, same⟩ | ⟨code, _, _, same⟩ := stepped <;> cases same
      · exact ⟨noted rfl (by simp), fun _ => Or.inl rfl⟩
      · exact ⟨silent, fun _ => Or.inl rfl⟩
  | createThread =>
      simp only [initStep, createStep_eq_next] at stepped
      obtain ⟨id, _, _, _, same⟩ | ⟨code, _, _, same⟩ := stepped <;> cases same
      · exact ⟨noted rfl (by simp), inApi_update rfl⟩
      · exact ⟨silent, fun _ => Or.inl rfl⟩
  | startThread =>
      simp only [initStep, Choice.onKernel_eq_next] at stepped
      obtain ⟨_, stepped⟩ | ⟨code, _, _, same⟩ := stepped
      · split at stepped <;> cases stepped
        exact ⟨silent, inApi_update rfl⟩
      · cases same
        exact ⟨silent, fun _ => Or.inl rfl⟩
  | terminateThread =>
      simp only [initStep, Choice.onGo_eq_next, StepResult.next.injEq] at stepped
      obtain ⟨_, stepped⟩ := stepped
      split at stepped <;> cases stepped
      · exact ⟨noted rfl (by simp), inApi_update rfl⟩
      · exact ⟨silent, fun _ => Or.inl rfl⟩
  | deleteSema | deleteEventFlag | deleteVpl =>
      simp only [initStep, Choice.onGo_eq_next, StepResult.next.injEq] at stepped
      obtain ⟨_, stepped⟩ := stepped
      split at stepped <;> cases stepped
      · exact ⟨noted rfl (by simp), fun _ => Or.inl rfl⟩
      · exact ⟨silent, fun _ => Or.inl rfl⟩
  | starting | started | stopped =>
      simp only [initStep, Choice.onGo_eq_next, StepResult.next.injEq] at stepped
      obtain ⟨_, same⟩ := stepped
      cases same
      exact ⟨noted rfl (by simp), fun _ => Or.inl rfl⟩
  | setVplid | setEvid | setSemid | setThid | setDefault | setCount | setHead =>
      simp only [initStep, Choice.onGo_eq_next, StepResult.next.injEq] at stepped
      obtain ⟨_, same⟩ := stepped
      cases same
      exact ⟨silent, fun _ => Or.inl rfl⟩

/-- _stop notes no call and no event of the handlers. -/
theorem StopEffect.events {sh sh' : Shared cfg} {pc pc' : LoaderPc} {choice : Choice cfg}
    (effect : StopEffect sh pc choice sh' pc')
    : ∃ events, sh'.history = sh.history ++ events
        ∧ ∀ event ∈ events, event.callOf = none ∧ event.ofDelivery = false
            ∧ event.ofTable = false := by
  cases effect with
  | announce printed =>
      rcases printed with rfl | ⟨during, printed⟩
      · exact ⟨[], by simp, by simp⟩
      · obtain ⟨events, history, accepted⟩ := kprintf_events printed
        refine ⟨events, history, fun event member => ?_⟩
        obtain ⟨stamp, body, rfl⟩ := accepted event member
        exact ⟨rfl, rfl, rfl⟩
  | unhook => exact ⟨[_], rfl, List.forall_mem_singleton.mpr ⟨rfl, rfl, rfl⟩⟩
  | enter | setStopped | post | acknowledged | giveUp => exact ⟨[], by simp, by simp⟩

/-- In any run the module manager's thread runs init, calls _start, or is in _stop. -/
theorem loaderStep_cases {sh sh' : Shared cfg} {threads threads' : Threads} {pc pc' : LoaderPc}
    {choice : Choice cfg} (stepped : loaderStep sh threads pc choice = .next (sh', threads', pc'))
    : (∃ ip l, pc = .init ip l ∧ initStep sh threads ip l choice = .next (sh', threads', pc'))
      ∨ (pc' = .init .stdout {} ∧ sh' = sh ∧ threads' = threads)
      ∨ (StopEffect sh pc choice sh' pc' ∧ threads' = threads) := by
  by_cases starts : choice = .start
  · subst starts
    cases pc with
    | init ip l => exact Or.inl ⟨ip, l, rfl, stepped⟩
    | stop pc => cases pc <;> contradiction
    | loaded | failed | stopped =>
        cases stepped
        exact Or.inr (Or.inl ⟨rfl, rfl, rfl⟩)
    | resident => contradiction
  · cases pc with
    | init ip l => exact Or.inl ⟨ip, l, rfl, stepped⟩
    | loaded | failed => cases choice <;> contradiction
    | resident | stopped | stop =>
        exact Or.inr (Or.inr (loaderStep_effect stepped rfl
          (by cases choice <;> first | rfl | contradiction)))

/-- The module manager's thread notes no call and puts no thread into one. -/
theorem loaderStep_calls {sh sh' : Shared cfg} {threads threads' : Threads} {pc pc' : LoaderPc}
    {choice : Choice cfg} (stepped : loaderStep sh threads pc choice = .next (sh', threads', pc'))
    : (∃ events, sh'.history = sh.history ++ events ∧ ∀ event ∈ events, event.callOf = none)
      ∧ ∀ thid, (threads' thid).inApi = (threads thid).inApi ∨ (threads' thid).inApi = none := by
  rcases loaderStep_cases stepped with ⟨ip, l, rfl, ran⟩ | ⟨_, rfl, rfl, rfl⟩ | ⟨effect, rfl⟩
  · obtain ⟨⟨events, history, kinds⟩, places⟩ := initStep_events ran
    refine ⟨⟨events, history, fun event member => ?_⟩, places⟩
    exact Event.silent_of_init (kinds event member).1
  · exact ⟨⟨[], by simp, by simp⟩, fun _ => Or.inl rfl⟩
  · obtain ⟨events, history, kinds⟩ := effect.events
    exact ⟨⟨events, history, fun event member => (kinds event member).1⟩, fun _ => Or.inl rfl⟩

/-- Whoever is in a call has it under way in the history. -/
def Calling (inApi : ThreadRef → ClientPc) (history : List Event) : Prop :=
  ∀ thread call api, inApi thread = some (call, api) → underWay history thread = some call

/-- Events that are no calls and returns leave the calls under way. -/
theorem Calling.append {inApi : ThreadRef → ClientPc} {history events : List Event}
    (calling : Calling inApi history) (silent : ∀ event ∈ events, event.callOf = none)
    : Calling inApi (history ++ events) := by
  intro thread call api engaged
  rw [underWay_append _ fun event member => by simp [silent event member]]
  exact calling thread call api engaged

/-- A step of a thread keeps its call under way. -/
theorem CallMove.underWay {thread : ThreadRef} {sh sh' : Shared cfg} {before after : ClientPc}
    (move : CallMove thread sh sh' before after)
    (running : ∀ call api, before = some (call, api) → underWay sh.history thread = some call)
    : ∀ call api, after = some (call, api) → LibKprintf.underWay sh'.history thread = some call := by
  intro call api after
  cases move with
  | outside | leave => contradiction
  | enter entered =>
      cases after
      rw [entered]
      exact underWay_called sh.history thread call
  | run ran =>
      cases after
      obtain ⟨events, history, kinds⟩ := (apiStep_effect ran).events
      rw [history, underWay_append _ fun event member => by
        simp [(Event.silent_of_api (kinds event member).1).1]]
      exact running _ _ rfl

/-- A step of a thread keeps all calls under way. -/
theorem CallMove.calling {thread : ThreadRef} {sh sh' : Shared cfg}
    {inApi : ThreadRef → ClientPc} {after : ClientPc}
    (move : CallMove thread sh sh' (inApi thread) after) (calling : Calling inApi sh.history)
    : Calling (Function.update inApi thread after) sh'.history := by
  intro other call api engaged
  by_cases same : other = thread
  · subst same
    exact move.underWay (calling other) call api (by simpa using engaged)
  · obtain ⟨events, history, kinds⟩ := move.events
    rw [history, LibKprintf.underWay_append _ fun event member => (kinds event member).1 other same]
    exact calling other call api (by simpa [same] using engaged)

/-- Every step of a run keeps the calls under way. -/
theorem calling_step {s t : State cfg} {action : Action cfg}
    (calling : Calling s.inApi s.sh.history) (stepped : s.step action = some t)
    : Calling t.inApi t.sh.history := by
  cases State.step_cases stepped with
  | crash | overRegister =>
      exact fun thread call api engaged =>
        calling thread call api (by cases thread <;> exact engaged)
  | kprintf printed =>
      obtain ⟨events, history, accepted⟩ := kprintf_events printed
      have silent (event : Event) (member : event ∈ events) : event.callOf = none := by
        obtain ⟨stamp, body, rfl⟩ := accepted event member
        rfl
      exact fun thread call api engaged => history ▸
        calling.append silent thread call api (by cases thread <;> exact engaged)
  | event ran =>
      rw [inApi_event]
      exact (eventStep_effect ran).callMove.calling calling
  | client ran =>
      rw [inApi_client]
      exact (clientStep_effect ran).callMove.calling calling
  | loader ran =>
      obtain ⟨⟨events, history, silent⟩, places⟩ := loaderStep_calls ran
      intro thread call api engaged
      refine history ▸ calling.append silent thread call api ?_
      cases thread with
      | client n => exact engaged
      | event thid =>
          rcases places thid with same | outside
          · exact same.symm.trans engaged
          · exact absurd (outside.symm.trans engaged) (by simp)

/-- In every reachable state whoever is in a call has it under way. -/
theorem calling {guard : State cfg → Action cfg → Prop} {s : State cfg}
    (reach : (machine cfg).Reachable guard s)
    : Calling s.inApi s.sh.history := by
  refine System.Reachable.invariant
    (P := fun s : State cfg => Calling s.inApi s.sh.history) reach ?_ ?_
  · rintro (thid | n) call api engaged <;> contradiction
  · exact fun _ _ _ _ calling _ stepped => calling_step calling stepped

/-- No step takes back an event of the history. -/
theorem history_grows {s t : State cfg} {action : Action cfg} (stepped : s.step action = some t)
    : s.sh.history <+: t.sh.history := by
  cases State.step_cases stepped with
  | crash | overRegister => exact List.prefix_rfl
  | kprintf printed =>
      obtain ⟨events, history, _⟩ := kprintf_events printed
      exact ⟨events, history.symm⟩
  | event ran =>
      obtain ⟨events, history, _⟩ := (eventStep_effect ran).callMove.events
      exact ⟨events, history.symm⟩
  | client ran =>
      obtain ⟨events, history, _⟩ := (clientStep_effect ran).callMove.events
      exact ⟨events, history.symm⟩
  | loader ran =>
      obtain ⟨⟨events, history, _⟩, _⟩ := loaderStep_calls ran
      exact ⟨events, history.symm⟩

end LibKprintf
