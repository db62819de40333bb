import LibKprintf.Foundation.AtomicObject
import LibKprintf.Foundation.Observation
import LibKprintf.Handlers.Sequential

/-! The handler table as an atomic object: whatever threads call the registry functions at the same
time, and wherever they are interrupted, the calls answer and leave the table as if they had been
made one after the other, each at a moment between its call and its return.
-/

namespace LibKprintf

open Foundation

variable {cfg : Config}

-----------------------------------------------------------------------------------------
-- The object
-----------------------------------------------------------------------------------------

/-- What a call means for the registered pairs if it gets the semaphore. -/
def ApiCall.atomically (stdout : Uid) (m : HandlerMap cfg) : ApiCall → HandlerMap cfg × Int
  | .registerHandler cb arg => m.call stdout ⟨.registerHandler cb arg, 0, 0, Int.le_refl 0⟩
  | .registerDefaultHandler => m.call stdout ⟨.registerDefaultHandler, 0, 0, Int.le_refl 0⟩
  | .unregisterHandler index => m.call stdout ⟨.unregisterHandler index, 0, 0, Int.le_refl 0⟩
  | .install | .isStarted => (m, 0)

/-- How a call of the registry goes: it acts on the registered pairs, or it is refused, because the
module is not started or because its own sceKernelWaitSema fails.
-/
inductive CallOutcome
  | acts (ret : Int)
  | notStarted
  | waitFails (code : Int)
  deriving DecidableEq

/-- What the call then answers. -/
def CallOutcome.answer : CallOutcome → Int
  | .acts ret => ret
  | .notStarted => kprintfErrNotStarted
  | .waitFails code => code

/-- Whether it is refused. -/
def CallOutcome.isRefusal : CallOutcome → Bool
  | .acts _ => false
  | .notStarted | .waitFails _ => true

/-- The registry as an object for one caller. A refused call leaves the pairs as they are. -/
def registryObject (cfg : Config) (stdout : Uid)
    : SequentialObject (HandlerMap cfg) ApiCall CallOutcome Int where
  init := .empty
  may m call outcome m' :=
    match outcome with
    | .acts ret => call.atomically stdout m = (m', ret)
    | .notStarted | .waitFails _ => m' = m
  answer := CallOutcome.answer

/-- The calls of the registry functions in a history, and their returns. -/
def callEvents (history : List Event) : List (CallEvent ThreadRef ApiCall Int) :=
  history.filterMap fun
    | .called thread call => if call.ofRegistry then some (.invoke thread call) else none
    | .answered thread call ret => if call.ofRegistry then some (.respond thread call ret) else none
    | _ => none

/-- A call of a thread with its outcome. -/
abbrev CallRun := ThreadRef × ApiCall × CallOutcome

/-- The calls that have been refused, in the same order. -/
def refusalsOf (order : List CallRun) : List CallRun := order.filter (·.2.2.isRefusal)

/-- The refusal that a step of a thread shows: it enters a registry function while the module is not
started, or it waits for the semaphore before the step and has its answer after it.
-/
def refusal (sh : Shared cfg) (thread : ThreadRef) : ClientPc → ClientPc → List CallRun
  | none, some (call, _) =>
      if call.ofRegistry ∧ sh.g.gState ≠ .started then [(thread, call, .notStarted)] else []
  | some (call, api), some (_, .done code) =>
      if api.waitsFor.isSome then [(thread, call, .waitFails code)] else []
  | _, _ => []

/-- The thread of the module that takes a step. -/
def Action.thread : Action cfg → Option ThreadRef
  | .event thid _ => some (.event thid)
  | .client n _ => some (.client n)
  | _ => none

/-- The refusals that an action shows. -/
def State.refusals (s : State cfg) (action : Action cfg) : List CallRun :=
  match action.thread, s.step action with
  | some thread, some t => refusal s.sh thread (s.inApi thread) (t.inApi thread)
  | _, _ => []

/-- The table of the globals holds the map. -/
def TableIs (g : Globals cfg) (m : HandlerMap cfg) : Prop :=
  Represents { g with gState := .started } m

/-- Whether a call has taken effect at a program point. -/
def ApiPc.phase (call : ApiCall) : ApiPc → Phase ApiCall Int
  | .announce => .decided call 0
  | .done ret => .decided call ret
  | _ => .waiting call

/-- Where a thread is in its calls of the registry functions. -/
def ClientPc.phase : ClientPc → Phase ApiCall Int
  | some (call, api) => if call.ofRegistry then api.phase call else .idle
  | none => .idle

-----------------------------------------------------------------------------------------
-- What is left to do of a call
-----------------------------------------------------------------------------------------

/-- The arguments that a call passes to register_handler. -/
def ApiCall.regArgs (stdout : Uid) : ApiCall → Option RegArgs
  | .registerHandler (some cb) arg => some ⟨cb, arg, false⟩
  | .registerDefaultHandler => some ⟨.defaultFileHandler, BitVec.ofInt 32 stdout, true⟩
  | _ => none

/-- What a running call will make of the map: in front of the semaphore it has its arguments, and
between the semaphore calls what is left comes to what the call means.
-/
def ApiPc.Ahead (g : Globals cfg) (m : HandlerMap cfg) (call : ApiCall) (api : ApiPc) : Prop :=
  match api with
  | .regWait args _ => call.regArgs g.gStdout = some args
  | .unregWait index _ => call = .unregisterHandler index
  | .dipsw | .registerHook => call.ofRegistry = false
  | .announce | .done _ => True
  | api =>
      call.ofRegistry = true
        ∧ TableIs (api.rest g).1 (call.atomically g.gStdout m).1
        ∧ (api.rest g).2 = (call.atomically g.gStdout m).2

/-- Between the semaphore calls of a function its call comes to what it means. -/
theorem ApiPc.ahead_locked {g : Globals cfg} {m : HandlerMap cfg} {call : ApiCall} {api : ApiPc}
    (locked : api.locked = true)
    : api.Ahead g m call
      ↔ call.ofRegistry = true
        ∧ TableIs (api.rest g).1 (call.atomically g.gStdout m).1
        ∧ (api.rest g).2 = (call.atomically g.gStdout m).2 := by
  cases api <;> first | exact Iff.rfl | contradiction

/-- A function there has not taken effect. -/
theorem ApiPc.phase_locked {call : ApiCall} {api : ApiPc} (locked : api.locked = true)
    : api.phase call = .waiting call := by
  cases api <;> first | rfl | contradiction

/-- The map is that of the table only, among whatever globals. -/
theorem TableIs.of_table {g g' : Globals cfg} {m : HandlerMap cfg} (is : TableIs g m)
    (same : g'.table = g.table)
    : TableIs g' m :=
  Represents.of_table is same rfl

/-- A call enters with its arguments, or it has been refused. -/
theorem apiEntry_ahead (sh : Shared cfg) (m : HandlerMap cfg) (call : ApiCall)
    : (apiEntry sh call).Ahead sh.g m call := by
  cases call with
  | registerHandler cb arg =>
      by_cases started : sh.g.gState = .started <;> cases cb <;>
        simp [apiEntry, registerEntry, started, ApiPc.Ahead, ApiCall.regArgs]
  | registerDefaultHandler =>
      by_cases started : sh.g.gState = .started <;>
        simp [apiEntry, registerEntry, started, ApiPc.Ahead, ApiCall.regArgs]
  | unregisterHandler index =>
      by_cases started : sh.g.gState = .started <;> simp [apiEntry, started, ApiPc.Ahead]
  | install | isStarted => trivial

/-- What a call with arguments has to do under the semaphore is what it means. -/
theorem TableIs.register {g : Globals cfg} {m : HandlerMap cfg} (is : TableIs g m)
    {call : ApiCall} {args : RegArgs} (passed : call.regArgs g.gStdout = some args)
    : (ApiPc.regTestDefault args).Ahead g m call := by
  have same : ({ g with gState := .started } : Globals cfg).table = g.table := rfl
  have table := ApiPc.rest_table same (.regTestDefault args)
  cases call with
  | registerHandler cb arg =>
      cases cb with
      | none => contradiction
      | some cb =>
          cases passed
          have step := Represents.step is ⟨.registerHandler (some cb) arg, 0, 0, Int.le_refl 0⟩
          simp only [TableStep.run] at step
          rw [registerHandler_started rfl (Int.le_refl 0)] at step
          exact ⟨rfl, step.1.of_table table.1.symm rfl, table.2.symm.trans step.2⟩
  | registerDefaultHandler =>
      cases passed
      have step := Represents.step is ⟨.registerDefaultHandler, 0, 0, Int.le_refl 0⟩
      simp only [TableStep.run, registerDefaultHandler] at step
      rw [registerHandler_started rfl (Int.le_refl 0)] at step
      exact ⟨rfl, step.1.of_table table.1.symm rfl, table.2.symm.trans step.2⟩
  | unregisterHandler | install | isStarted => contradiction

/-- So is that of an unregistration. -/
theorem TableIs.unregister {g : Globals cfg} {m : HandlerMap cfg} (is : TableIs g m) (index : Int)
    : (ApiPc.unregTestIndex index).Ahead g m (.unregisterHandler index) := by
  have same : ({ g with gState := .started } : Globals cfg).table = g.table := rfl
  have table := ApiPc.rest_table same (.unregTestIndex index)
  have step := Represents.step is ⟨.unregisterHandler index, 0, 0, Int.le_refl 0⟩
  simp only [TableStep.run] at step
  rw [unregisterHandler_started rfl (Int.le_refl 0)] at step
  exact ⟨rfl, step.1.of_table table.1.symm rfl, table.2.symm.trans step.2⟩

-----------------------------------------------------------------------------------------
-- What a step does to the calls
-----------------------------------------------------------------------------------------

/-- Events that are no calls and returns are no events of the registry. -/
theorem callEvents_append {events : List Event} (history : List Event)
    (silent : ∀ event ∈ events, event.callOf = none)
    : callEvents (history ++ events) = callEvents history := by
  have none : callEvents events = [] := by
    refine List.filterMap_eq_nil_iff.mpr fun event member => ?_
    have apart := silent event member
    cases event <;> first | rfl | contradiction
  rw [callEvents, List.filterMap_append]
  exact (congrArg _ none).trans (List.append_nil _)

/-- A Kprintf call does not touch `g_stdout`. -/
theorem kprintf_gStdout {sh sh' : Shared cfg} {call} (printed : kprintf sh call = .next sh')
    : sh'.g.gStdout = sh.g.gStdout := by
  obtain rfl | ⟨_, head, mem, stamp, body, rfl⟩ := kprintf_effect printed <;> rfl

/-- Nor does an API function. -/
theorem ApiEffect.gStdout {thread : ThreadRef} {sh sh' : Shared cfg} {pc pc' : ApiPc}
    (effect : ApiEffect thread sh pc sh' pc')
    : sh'.g.gStdout = sh.g.gStdout := by
  cases effect with
  | announce printed =>
      rcases printed with rfl | ⟨during, printed⟩
      · rfl
      · exact kprintf_gStdout printed
  | acquire | refuse | work | release | dipsw | hook => rfl

/-- Nor does a running API call. -/
theorem apiCallStep_gStdout {thread : ThreadRef} {call : ApiCall} {sh sh' : Shared cfg}
    {api : ApiPc} {api' : Option ApiPc} {choice : Choice cfg}
    (stepped : apiCallStep thread call sh api choice = .next (sh', api'))
    : sh'.g.gStdout = sh.g.gStdout := by
  obtain ⟨ret, rfl, rfl, rfl⟩ | ⟨pc', ran, rfl⟩ := apiCallStep_cases stepped
  · rfl
  · exact (apiStep_effect ran).gStdout

/-- Nor does the event thread. -/
theorem EventEffect.gStdout {thid : Uid} {sh sh' : Shared cfg} {pc pc' : EventPc}
    (effect : EventEffect thid sh pc sh' pc')
    : sh'.g.gStdout = sh.g.gStdout := by
  cases effect with
  | register stepped => exact apiCallStep_gStdout stepped
  | flush stepped =>
      cases flushStep_effect stepped with
      | nested called => exact apiCallStep_gStdout called
      | read | observe | callbackReturns | callbackCalls | remove => rfl
  | move | callRegister | wake | acquire | release | resend | stopOk => rfl

/-- Nor does a client. -/
theorem ClientEffect.gStdout {n : Nat} {sh sh' : Shared cfg} {pc pc' : ClientPc}
    (effect : ClientEffect n sh pc sh' pc')
    : sh'.g.gStdout = sh.g.gStdout := by
  cases effect with
  | enter | leave => rfl
  | run stepped => exact (apiStep_effect stepped).gStdout

/-- Nor does _stop. -/
theorem StopEffect.gStdout {sh sh' : Shared cfg} {pc pc' : LoaderPc} {choice : Choice cfg}
    (effect : StopEffect sh pc choice sh' pc')
    : sh'.g.gStdout = sh.g.gStdout := by
  cases effect with
  | announce printed =>
      rcases printed with rfl | ⟨during, printed⟩
      · rfl
      · exact kprintf_gStdout printed
  | enter | unhook | setStopped | post | acknowledged | giveUp => rfl

/-- Whoever is about to wait in a registry function waits for `g_semid`. -/
theorem Session.waits_gSemid {s : State cfg} (session : Session s) {thread : ThreadRef}
    {call : ApiCall} {api : ApiPc} {semid : Uid} (engaged : s.inApi thread = some (call, api))
    (waits : api.waitsFor = some semid)
    : semid = s.sh.g.gSemid := by
  refine session.semid thread semid ?_
  cases thread with
  | client n =>
      have place : s.clients n = some (call, api) := engaged
      simp [State.waitsFor, place, waits]
  | event thid =>
      simp only [State.inApi] at engaged
      cases place : s.threads thid with
      | register api' =>
          rw [place] at engaged
          cases engaged
          simpa [State.waitsFor, place, EventPc.waitsFor] using waits
      | flush ev pc =>
          rw [place] at engaged
          have nested : pc.nested = some (call, api) := engaged
          simpa [State.waitsFor, place, EventPc.waitsFor, nested] using waits
      | _ => simp [place, EventPc.inApi, EventPc.nested] at engaged

/-- While the semaphore is free no thread is between the semaphore calls of a function. -/
theorem Exclusion.all_outside {s : State cfg} (exclusion : Exclusion s) {thread : ThreadRef}
    {k : Kernel} (took : s.sh.k.takeSema s.sh.g.gSemid thread = some k)
    : ∀ other, (s.inApi other).locked = false := by
  intro other
  by_contra locked
  have blocked : s.sh.k.takeSema s.sh.g.gSemid thread = none :=
    exclusion.blocked (exclusion.locked_of_inApi (by simpa using locked))
  rw [took] at blocked
  contradiction

/-- What a step inside a call can be: it waits on or is past all, it gets the semaphore, it is
refused it, it does a part of what is to be done under the semaphore, or it gives the semaphore
back, which makes the call take effect.
-/
inductive CallStep (thread : ThreadRef) (sh sh' : Shared cfg) (call : ApiCall) (api api' : ApiPc)
    : Prop
  | quiet (unlocked : api.locked = false) (away : api.waitsFor = none) (same : sh.SameTable sh')
    (phase
      : ∀ m, api.Ahead sh.g m call →
          ClientPc.phase (some (call, api')) = ClientPc.phase (some (call, api)))
    (ahead : ∀ m, api.Ahead sh.g m call → api'.Ahead sh'.g m call)
  | acquires {semid k} (waits : api.waitsFor = some semid)
    (took : sh.k.takeSema semid thread = some k) (locked : api'.locked = true) (same : sh'.g = sh.g)
    (ahead : ∀ m, TableIs sh.g m → api.Ahead sh.g m call → api'.Ahead sh'.g m call)
  | refused {code} (waits : api.waitsFor ≠ none) (place : api' = .done code) (same : sh' = sh)
  | works (locked : api.locked = true) (locked' : api'.locked = true)
    (ahead : ∀ m, api.Ahead sh.g m call → api'.Ahead sh'.g m call)
  | takesEffect {ret} (locked : api.locked = true) (phase : api'.phase call = .decided call ret)
    (past : ∀ m, api'.Ahead sh'.g m call) (unlocked : api'.locked = false)
    (effect
      : ∀ m, api.Ahead sh.g m call →
          call.ofRegistry = true ∧ (call.atomically sh.g.gStdout m).2 = ret
            ∧ TableIs sh'.g (call.atomically sh.g.gStdout m).1)

/-- What register_handler answers is decided, and nothing is ahead of it. -/
theorem afterRegister_decided (isDefaultHandler : Bool) (ret : Int) (call : ApiCall)
    : (afterRegister isDefaultHandler ret).phase call = .decided call ret
      ∧ (afterRegister isDefaultHandler ret).locked = false
      ∧ ∀ (g : Globals cfg) m, (afterRegister isDefaultHandler ret).Ahead g m call := by
  unfold afterRegister
  split
  · rename_i announced
    rw [announced.2]
    exact ⟨rfl, rfl, fun _ _ => trivial⟩
  · exact ⟨rfl, rfl, fun _ _ => trivial⟩

/-- Every step inside a call is one of these, by its effect; a signal by a thread that holds the
semaphore succeeds.
-/
theorem apiStep_call {thread : ThreadRef} {sh sh' : Shared cfg} {api api' : ApiPc}
    {choice : Choice cfg} (ran : apiStep thread sh api choice = .next (sh', api'))
    (signals : api.locked = true → 0 ≤ (sh.k.sceKernelSignalSema sh.g.gSemid).2) (call : ApiCall)
    : CallStep thread sh sh' call api api' := by
  have stdout := (apiStep_effect ran).gStdout
  by_cases locked : api.locked = true
  · by_cases locked' : api'.locked = true
    · refine .works locked locked' fun m ahead => ?_
      rw [ApiPc.ahead_locked locked] at ahead
      rw [ApiPc.ahead_locked locked', apiStep_rest ran locked locked', stdout]
      exact ahead
    · cases api with
      | signal isDefaultHandler ret =>
          simp only [apiStep, Choice.onGo_eq_next, StepResult.next.injEq, Prod.mk.injEq,
            if_neg (not_lt.mpr (signals rfl))] at ran
          obtain ⟨_, rfl, rfl⟩ := ran
          obtain ⟨phase, unlocked, past⟩ := @afterRegister_decided cfg isDefaultHandler ret call
          refine .takesEffect rfl phase (past _) unlocked fun m ahead => ?_
          obtain ⟨ofRegistry, table, same⟩ := ahead
          exact ⟨ofRegistry, same.symm, table⟩
      | _ =>
          cases apiStep_effect ran with
          | work _ held => exact absurd held locked'
          | acquire waits | refuse waits => contradiction
          | _ => contradiction
  · have unlocked : api.locked = false := by simpa using locked
    have same := (apiStep_effect ran).table unlocked
    cases api with
    | regWait args semid =>
        simp only [apiStep, Choice.onKernel_eq_next, StepResult.map_eq_next,
          StepResult.ofBlocking_eq_next, Prod.mk.injEq] at ran
        obtain ⟨_, k, took, rfl, rfl⟩ | ⟨code, negative, _, rfl, rfl⟩ := ran
        · exact .acquires rfl took rfl rfl fun m is ahead => is.register ahead
        · have place : afterRegister args.isDefaultHandler code = .done code := by
            simp [afterRegister, Int.ne_of_lt negative]
          exact .refused (by simp [ApiPc.waitsFor]) place rfl
    | unregWait index semid =>
        simp only [apiStep, Choice.onKernel_eq_next, StepResult.map_eq_next,
          StepResult.ofBlocking_eq_next, Prod.mk.injEq] at ran
        obtain ⟨_, k, took, rfl, rfl⟩ | ⟨code, negative, _, rfl, rfl⟩ := ran
        · refine .acquires rfl took rfl rfl fun m is ahead => ?_
          obtain rfl : call = .unregisterHandler index := ahead
          exact is.unregister index
        · exact .refused (by simp [ApiPc.waitsFor]) rfl rfl
    | announce =>
        cases apiStep_effect ran with
        | announce => exact .quiet rfl rfl same (fun _ _ => rfl) fun _ _ => trivial
        | _ => contradiction
    | dipsw =>
        simp only [apiStep, Choice.onKernel_eq_next, StepResult.next.injEq, Prod.mk.injEq] at ran
        have idle (api : ApiPc) (other : call.ofRegistry = false)
            : ClientPc.phase (some (call, api)) = .idle := by
          simp [ClientPc.phase, other]
        obtain ⟨_, rfl, rfl⟩ | ⟨code, _, _, rfl, rfl⟩ := ran
        · exact .quiet rfl rfl same (fun _ other => by rw [idle _ other, idle _ other])
            fun _ other => other
        · exact .quiet rfl rfl same (fun _ other => by rw [idle _ other, idle _ other])
            fun _ _ => trivial
    | registerHook =>
        simp only [apiStep, Choice.onGo_eq_next, StepResult.next.injEq, Prod.mk.injEq] at ran
        obtain ⟨_, rfl, rfl⟩ := ran
        refine .quiet rfl rfl same (fun _ other => ?_) fun _ _ => trivial
        have notRegistry : call.ofRegistry = false := other
        simp [ClientPc.phase, notRegistry]
    | done => contradiction
    | _ => exact absurd rfl locked

-----------------------------------------------------------------------------------------
-- The simulation
-----------------------------------------------------------------------------------------

/-- The calls so far are those of an atomic run that has led to the map, with the refusals that have
been shown. What is left of each call comes to what it means, and outside all calls the table holds
the map.
-/
structure Atomic (s : State cfg) (refused order : List CallRun) (m : HandlerMap cfg) : Prop where
  run
    : (registryObject cfg s.sh.g.gStdout).AtomicRun (callEvents s.sh.history) order
        (fun thread => (s.inApi thread).phase) m
  refusals : refusalsOf order = refused
  ahead : ∀ thread call api, s.inApi thread = some (call, api) → api.Ahead s.sh.g m call
  table : (∀ thread, (s.inApi thread).locked = false) → TableIs s.sh.g m

section Simulation

variable {s t : State cfg} {refused refused' order order' : List CallRun}
variable {m m' : HandlerMap cfg} {thread : ThreadRef} {after : ClientPc}

/-- What is ahead of a call stays so while nobody writes the table that it works on. -/
theorem ApiPc.Ahead.frame {g g' : Globals cfg} {call : ApiCall} {api : ApiPc}
    (ahead : api.Ahead g m call) (stdout : g'.gStdout = g.gStdout)
    (same : api.locked = true → g'.table = g.table ∧ m' = m)
    : api.Ahead g' m' call := by
  by_cases locked : api.locked = true
  · obtain ⟨table, rfl⟩ := same locked
    rw [ApiPc.ahead_locked locked] at ahead ⊢
    rw [stdout]
    obtain ⟨rest, ret⟩ := ApiPc.rest_table table api
    exact ⟨ahead.1, ahead.2.1.of_table rest, ret.trans ahead.2.2⟩
  · cases api with
    | regWait args semid =>
        rw [ApiPc.Ahead] at ahead ⊢
        rwa [stdout]
    | unregWait | dipsw | registerHook | announce | done => exact ahead
    | _ => exact absurd rfl locked

/-- Moving one thread moves one phase. -/
theorem phase_update (inApi : ThreadRef → ClientPc) (thread : ThreadRef) (after : ClientPc)
    : (fun other => (Function.update inApi thread after other).phase)
      = Function.update (fun other => (inApi other).phase) thread after.phase := by
  funext other
  by_cases same : other = thread
  · subst same
    simp
  · simp [same]

/-- A step of one thread keeps the simulation if its call does, and if it is alone where it writes
the table or makes its call take effect.
-/
theorem Atomic.next (atomic : Atomic s refused order m)
    (place : t.inApi = Function.update s.inApi thread after)
    (stdout : t.sh.g.gStdout = s.sh.g.gStdout)
    (run
      : (registryObject cfg s.sh.g.gStdout).AtomicRun (callEvents t.sh.history) order'
          (Function.update (fun other => (s.inApi other).phase) thread after.phase) m')
    (refusals : refusalsOf order' = refused')
    (own : ∀ call api, after = some (call, api) → api.Ahead t.sh.g m' call)
    (others
      : ∀ other, other ≠ thread → (s.inApi other).locked = true →
          t.sh.g.table = s.sh.g.table ∧ m' = m)
    (table : (∀ other, (t.inApi other).locked = false) → TableIs t.sh.g m')
    : Atomic t refused' order' m' := by
  refine ⟨?_, refusals, fun other call api engaged => ?_, table⟩
  · rw [stdout, place, phase_update]
    exact run
  · rw [place] at engaged
    by_cases same : other = thread
    · subst same
      rw [Function.update_self] at engaged
      exact own call api engaged
    · rw [Function.update_of_ne same] at engaged
      refine (atomic.ahead other call api engaged).frame stdout fun locked => ?_
      exact others other same (by simpa [engaged, ClientPc.locked] using locked)

/-- Where no thread is between its semaphore calls, a step of a thread that was not there either, and
that leaves the table alone, keeps what the table holds.
-/
theorem Atomic.table_kept (atomic : Atomic s refused order m)
    (place : t.inApi = Function.update s.inApi thread after) (same : s.sh.SameTable t.sh)
    (unlocked : (s.inApi thread).locked = false)
    (outside : ∀ other, (t.inApi other).locked = false)
    : TableIs t.sh.g m := by
  refine (atomic.table fun other => ?_).of_table same.table
  by_cases self : other = thread
  · rw [self]
    exact unlocked
  · have still := outside other
    rwa [place, Function.update_of_ne self] at still

/-- A step that keeps the phase of its thread and the table keeps the simulation. -/
theorem Atomic.stays (atomic : Atomic s refused order m)
    (place : t.inApi = Function.update s.inApi thread after)
    (stdout : t.sh.g.gStdout = s.sh.g.gStdout)
    (events : callEvents t.sh.history = callEvents s.sh.history)
    (phase : after.phase = (s.inApi thread).phase) (same : s.sh.SameTable t.sh)
    (unlocked : (s.inApi thread).locked = false)
    (own : ∀ call api, after = some (call, api) → api.Ahead t.sh.g m call)
    : Atomic t refused order m := by
  refine atomic.next place stdout ?_ atomic.refusals own (fun _ _ _ => ⟨same.table, rfl⟩)
    (atomic.table_kept place same unlocked)
  rw [events, phase, Function.update_eq_self]
  exact atomic.run

/-- A call that has been entered waits, or it has been refused, or its arguments are wrong. -/
theorem apiEntry_phase (thread : ThreadRef) (sh : Shared cfg) (m : HandlerMap cfg)
    {call : ApiCall} (ofRegistry : call.ofRegistry = true)
    : (apiEntry sh call).phase call = .waiting call
        ∧ refusal sh thread none (some (call, apiEntry sh call)) = []
      ∨ ∃ outcome, (apiEntry sh call).phase call = .decided call outcome.answer
          ∧ (registryObject cfg sh.g.gStdout).may m call outcome m
          ∧ refusal sh thread none (some (call, apiEntry sh call))
            = refusalsOf [(thread, call, outcome)] := by
  by_cases started : sh.g.gState = .started
  · have accepted : refusal sh thread none (some (call, apiEntry sh call)) = [] := by
      simp [refusal, started]
    rw [accepted]
    cases call with
    | registerHandler cb arg =>
        cases cb with
        | none =>
            refine Or.inr ⟨.acts kprintfErrInvalidArgument, ?_, rfl, rfl⟩
            simp [apiEntry, registerEntry, started, ApiPc.phase, CallOutcome.answer]
        | some cb => simp [apiEntry, registerEntry, started, ApiPc.phase]
    | registerDefaultHandler => simp [apiEntry, registerEntry, started, ApiPc.phase]
    | unregisterHandler index => simp [apiEntry, started, ApiPc.phase]
    | install | isStarted => contradiction
  · refine Or.inr ⟨.notStarted, ?_, rfl, ?_⟩
    · cases call <;> first
        | contradiction
        | simp [apiEntry, registerEntry, started, ApiPc.phase, CallOutcome.answer]
    · simp [refusal, started, ofRegistry, refusalsOf, CallOutcome.isRefusal]

/-- A thread that stays where it is is not refused. -/
theorem refusal_self (sh : Shared cfg) (thread : ThreadRef) (place : ClientPc)
    : refusal sh thread place place = [] := by
  cases place with
  | none => rfl
  | some running =>
      obtain ⟨call, api⟩ := running
      cases api <;> rfl

/-- Nor is one that does not wait for the semaphore in its call. -/
theorem refusal_away (sh : Shared cfg) (thread : ThreadRef) {call : ApiCall} {api : ApiPc}
    (away : api.waitsFor = none) (after : ClientPc)
    : refusal sh thread (some (call, api)) after = [] := by
  unfold refusal
  split <;> simp_all

/-- Nor is one that gets the semaphore. -/
theorem refusal_locked (sh : Shared cfg) (thread : ThreadRef) {call : ApiCall} {api : ApiPc}
    (locked : api.locked = true) (before : ClientPc)
    : refusal sh thread before (some (call, api)) = [] ∨ before = none := by
  cases before with
  | none => exact Or.inr rfl
  | some running => cases api <;> first | exact Or.inl rfl | contradiction

/-- Refusals are told one after the other. -/
theorem refusalsOf_append (order later : List CallRun)
    : refusalsOf (order ++ later) = refusalsOf order ++ refusalsOf later :=
  List.filter_append order later

/-- A function that waits has not taken effect. -/
theorem ApiPc.phase_waits {call : ApiCall} {api : ApiPc} (waits : api.waitsFor ≠ none)
    : api.phase call = .waiting call ∧ api.locked = false := by
  cases api <;> first | exact ⟨rfl, rfl⟩ | exact absurd rfl waits

/-- Only a call of the registry waits for the semaphore. -/
theorem ApiPc.Ahead.ofRegistry {g : Globals cfg} {call : ApiCall} {api : ApiPc}
    (ahead : api.Ahead g m call) (waits : api.waitsFor ≠ none)
    : call.ofRegistry = true := by
  cases api with
  | regWait args semid =>
      have passed : call.regArgs g.gStdout = some args := ahead
      cases call <;> first | rfl | contradiction
  | unregWait index semid =>
      obtain rfl : call = .unregisterHandler index := ahead
      rfl
  | _ => exact absurd rfl waits

/-- The phase of a thread in a call of the registry is that of its program point. -/
theorem ClientPc.phase_registry {call : ApiCall} (ofRegistry : call.ofRegistry = true) (api : ApiPc)
    : ClientPc.phase (some (call, api)) = api.phase call := by
  simp [ClientPc.phase, ofRegistry]

/-- A step inside a call keeps the simulation; by cases of the step. -/
theorem Atomic.runs (atomic : Atomic s refused order m) (exclusion : Exclusion s)
    (session : Session s) {call : ApiCall} {api api' : ApiPc}
    (engaged : s.inApi thread = some (call, api))
    (place : t.inApi = Function.update s.inApi thread (some (call, api')))
    (stdout : t.sh.g.gStdout = s.sh.g.gStdout)
    (events : callEvents t.sh.history = callEvents s.sh.history)
    (step : CallStep thread s.sh t.sh call api api')
    : ∃ order' m',
        Atomic t (refused ++ refusal s.sh thread (some (call, api)) (some (call, api'))) order' m' := by
  have ahead := atomic.ahead thread call api engaged
  have run := atomic.run
  rw [← events] at run
  have own {m' : HandlerMap cfg} (ahead' : api'.Ahead t.sh.g m' call) :
      ∀ call' api'', some (call, api') = some (call', api'') → api''.Ahead t.sh.g m' call' := by
    rintro _ _ ⟨rfl, rfl⟩
    exact ahead'
  have isLocked (locked : api.locked = true) : (s.inApi thread).locked = true := by
    simpa [engaged, ClientPc.locked] using locked
  have isUnlocked (unlocked : api.locked = false) : (s.inApi thread).locked = false := by
    simpa [engaged, ClientPc.locked] using unlocked
  have within (locked' : api'.locked = true) (outside : ∀ other, (t.inApi other).locked = false) :
      False := by
    have still := outside thread
    rw [place, Function.update_self] at still
    simp [ClientPc.locked, locked'] at still
  have decides {outcome : CallOutcome} (ofRegistry : call.ofRegistry = true)
      (waits : api.phase call = .waiting call)
      (phase : api'.phase call = .decided call outcome.answer)
      {m' : HandlerMap cfg} (may : (registryObject cfg s.sh.g.gStdout).may m call outcome m') :
      (registryObject cfg s.sh.g.gStdout).AtomicRun (callEvents t.sh.history)
        (order ++ [(thread, call, outcome)])
        (Function.update (fun other => (s.inApi other).phase) thread
          (ClientPc.phase (some (call, api')))) m' := by
    rw [ClientPc.phase_registry ofRegistry, phase]
    refine run.effect ?_ may
    rw [engaged, ClientPc.phase_registry ofRegistry, waits]
  cases step with
  | quiet unlocked away same phase ahead' =>
      rw [refusal_away _ _ away, List.append_nil]
      exact ⟨order, m, atomic.stays place stdout events (by rw [phase m ahead, engaged]) same
        (isUnlocked unlocked) (own (ahead' m ahead))⟩
  | acquires waits took locked' same ahead' =>
      obtain rfl := session.waits_gSemid engaged waits
      have outside := exclusion.all_outside took
      have isWaiting : api.waitsFor ≠ none := by simp [waits]
      rw [(refusal_locked s.sh thread locked' _).resolve_right (by simp), List.append_nil]
      refine ⟨order, m, atomic.next place stdout ?_ atomic.refusals
        (own (ahead' m (atomic.table outside) ahead)) (fun other _ locked => ?_)
        fun after => (within locked' after).elim⟩
      · have ofRegistry := ahead.ofRegistry isWaiting
        have phase : ClientPc.phase (some (call, api')) = (s.inApi thread).phase := by
          rw [engaged, ClientPc.phase_registry ofRegistry, ClientPc.phase_registry ofRegistry,
            ApiPc.phase_locked locked', (ApiPc.phase_waits isWaiting).1]
        rwa [phase, Function.update_eq_self]
      · rw [outside other] at locked
        contradiction
  | @refused code waits done same =>
      obtain ⟨phase, unlocked⟩ : api.phase call = .waiting call ∧ api.locked = false :=
        ApiPc.phase_waits waits
      have decided : api'.phase call = .decided call (CallOutcome.waitFails code).answer := by
        rw [done]
        rfl
      have told : refusal s.sh thread (some (call, api)) (some (call, api'))
          = refusalsOf [(thread, call, .waitFails code)] := by
        simp [done, refusal, Option.isSome_iff_ne_none.mpr waits, refusalsOf,
          CallOutcome.isRefusal]
      have may : (registryObject cfg s.sh.g.gStdout).may m call (.waitFails code) m := rfl
      refine ⟨_, m, atomic.next place stdout (decides (ahead.ofRegistry waits) phase decided may) ?_
        (own ?_) (fun _ _ _ => ?_) (atomic.table_kept place ?_ (isUnlocked unlocked))⟩
      · rw [refusalsOf_append, atomic.refusals, told]
      · rw [done]
        trivial
      · rw [same]
        exact ⟨rfl, rfl⟩
      · rw [same]
        exact .refl _
  | works locked locked' ahead' =>
      rw [refusal_away _ _ (ApiPc.waitsFor_of_locked locked), List.append_nil]
      refine ⟨order, m, atomic.next place stdout ?_ atomic.refusals (own (ahead' m ahead))
        (fun other different held => ?_) fun outside => (within locked' outside).elim⟩
      · have ofRegistry := ((ApiPc.ahead_locked locked).mp ahead).1
        have phase : ClientPc.phase (some (call, api')) = (s.inApi thread).phase := by
          rw [engaged, ClientPc.phase_registry ofRegistry, ClientPc.phase_registry ofRegistry,
            ApiPc.phase_locked locked', ApiPc.phase_locked locked]
        rwa [phase, Function.update_eq_self]
      · rw [exclusion.alone thread (isLocked locked) other different] at held
        contradiction
  | @takesEffect ret locked phase past unlocked effect =>
      obtain ⟨ofRegistry, result, table⟩ := effect m ahead
      have decided : api'.phase call = .decided call (CallOutcome.acts ret).answer := phase
      have may : (registryObject cfg s.sh.g.gStdout).may m call (.acts ret)
          (call.atomically s.sh.g.gStdout m).1 := Prod.ext rfl result
      refine ⟨_, _, atomic.next place stdout
        (decides ofRegistry (ApiPc.phase_locked locked) decided may) ?_ (own (past _))
        (fun other different held => ?_) fun _ => table⟩
      · rw [refusal_away _ _ (ApiPc.waitsFor_of_locked locked), refusalsOf_append, atomic.refusals]
        rfl
      · rw [exclusion.alone thread (isLocked locked) other different] at held
        contradiction

/-- A call or a return of a function that is not of the registry is no event of it. -/
theorem callEvents_other {event : Event} (history : List Event) {call : ApiCall}
    (other : call.ofRegistry = false)
    (is : event = .called thread call ∨ ∃ ret, event = .answered thread call ret)
    : callEvents (history ++ [event]) = callEvents history := by
  rcases is with rfl | ⟨ret, rfl⟩ <;> simp [callEvents, other]

/-- A step of a thread keeps the simulation; by cases of how it moves its call. -/
theorem Atomic.move (atomic : Atomic s refused order m) (exclusion : Exclusion s)
    (session : Session s) {before : ClientPc} (engaged : s.inApi thread = before)
    (place : t.inApi = Function.update s.inApi thread after)
    (stdout : t.sh.g.gStdout = s.sh.g.gStdout)
    (quiet : (s.inApi thread).locked = false → s.sh.SameTable t.sh)
    (move : CallMove thread s.sh t.sh before after)
    : ∃ order' m', Atomic t (refused ++ refusal s.sh thread before after) order' m' := by
  have unlocked (outside : before.locked = false) : (s.inApi thread).locked = false := by
    rwa [engaged]
  cases move with
  | outside history ofEventThread =>
      rw [refusal_self, List.append_nil]
      refine ⟨order, m, atomic.stays place stdout ?_ (by rw [engaged]) (quiet (unlocked rfl))
        (unlocked rfl) (by simp)⟩
      rw [history]
      exact callEvents_append _ fun event member =>
        (Event.silent_of_eventThread (ofEventThread event member)).1
  | @enter call entered =>
      have ahead : ∀ call' api, some (call, apiEntry s.sh call) = some (call', api) →
          api.Ahead t.sh.g m call' := by
        rintro _ _ ⟨rfl, rfl⟩
        rw [entered]
        exact apiEntry_ahead s.sh m call
      have same := quiet (unlocked rfl)
      have table := atomic.table_kept place same (unlocked rfl)
      by_cases ofRegistry : call.ofRegistry = true
      · have events : callEvents t.sh.history
            = callEvents s.sh.history ++ [.invoke thread call] := by
          simp [entered, callEvents, ofRegistry]
        have idle : (s.inApi thread).phase = .idle := by rw [engaged]; rfl
        have invoked : (registryObject cfg s.sh.g.gStdout).AtomicRun
            (callEvents s.sh.history ++ [.invoke thread call]) order
            (Function.update (fun other => (s.inApi other).phase) thread (.waiting call)) m :=
          atomic.run.invoke idle
        rw [← events] at invoked
        have others : ∀ other, other ≠ thread → (s.inApi other).locked = true →
            t.sh.g.table = s.sh.g.table ∧ m = m := fun _ _ _ => ⟨same.table, rfl⟩
        rcases apiEntry_phase thread s.sh m ofRegistry with
          ⟨waits, accepted⟩ | ⟨outcome, decided, may, told⟩
        · rw [accepted, List.append_nil]
          refine ⟨order, m, atomic.next place stdout ?_ atomic.refusals ahead others table⟩
          rwa [ClientPc.phase_registry ofRegistry, waits]
        · have effect := invoked.effect (Function.update_self _ _ _) may
          have decided' : (apiEntry s.sh call).phase call
              = .decided call ((registryObject cfg s.sh.g.gStdout).answer outcome) := decided
          rw [Function.update_idem, ← decided', ← ClientPc.phase_registry ofRegistry] at effect
          refine ⟨_, m, atomic.next place stdout effect ?_ ahead others table⟩
          rw [refusalsOf_append, atomic.refusals, told]
      · have other : call.ofRegistry = false := by simpa using ofRegistry
        have accepted : refusal s.sh thread none (some (call, apiEntry s.sh call)) = [] := by
          simp [refusal, other]
        rw [accepted, List.append_nil]
        refine ⟨order, m, atomic.stays place stdout ?_ ?_ same (unlocked rfl) ahead⟩
        · rw [entered]
          exact callEvents_other _ other (Or.inl rfl)
        · rw [engaged]
          simp [ClientPc.phase, other]
  | @run call api api' choice ran =>
      have signals (locked : api.locked = true) :
          0 ≤ (s.sh.k.sceKernelSignalSema s.sh.g.gSemid).2 :=
        exclusion.signals (show (s.inApi thread).locked = true by
          simpa [engaged, ClientPc.locked] using locked)
      obtain ⟨events, history, kinds⟩ := (apiStep_effect ran).events
      refine atomic.runs exclusion session engaged place stdout ?_ (apiStep_call ran signals call)
      rw [history]
      exact callEvents_append _ fun event member =>
        (Event.silent_of_api (kinds event member).1).1
  | @leave call ret left =>
      have same := quiet (unlocked rfl)
      rw [refusal_away s.sh thread rfl, List.append_nil]
      by_cases ofRegistry : call.ofRegistry = true
      · have events : callEvents t.sh.history
            = callEvents s.sh.history ++ [.respond thread call ret] := by
          simp [left, callEvents, ofRegistry]
        have decided : (s.inApi thread).phase = .decided call ret := by
          rw [engaged, ClientPc.phase_registry ofRegistry]
          rfl
        refine ⟨order, m, atomic.next place stdout ?_ atomic.refusals (by simp)
          (fun _ _ _ => ⟨same.table, rfl⟩) (atomic.table_kept place same (unlocked rfl))⟩
        rw [events]
        exact atomic.run.respond decided
      · have other : call.ofRegistry = false := by simpa using ofRegistry
        refine ⟨order, m, atomic.stays place stdout ?_ ?_ same (unlocked rfl) (by simp)⟩
        · rw [left]
          exact callEvents_other _ other (Or.inr ⟨ret, rfl⟩)
        · rw [engaged]
          simp [ClientPc.phase, other]

/-- A step that moves no thread, makes no call and leaves the table alone keeps the simulation. -/
theorem Atomic.quiet (atomic : Atomic s refused order m) (place : t.inApi = s.inApi)
    (stdout : t.sh.g.gStdout = s.sh.g.gStdout) (same : s.sh.SameTable t.sh)
    (events : callEvents t.sh.history = callEvents s.sh.history)
    : Atomic t refused order m := by
  refine ⟨?_, atomic.refusals, fun thread call api engaged => ?_, fun outside => ?_⟩
  · rw [stdout, place, events]
    exact atomic.run
  · rw [place] at engaged
    exact (atomic.ahead thread call api engaged).frame stdout fun _ => ⟨same.table, rfl⟩
  · rw [place] at outside
    exact (atomic.table outside).of_table same.table

/-- A step of one thread shows how it moves in its call. -/
theorem State.refusals_of_step {action : Action cfg} (taken : action.thread = some thread)
    (stepped : s.step action = some t)
    : s.refusals action = refusal s.sh thread (s.inApi thread) (t.inApi thread) := by
  simp only [State.refusals, taken, stepped]

/-- A step that moves no thread shows no refusal. -/
theorem State.refusals_stays {action : Action cfg} (stepped : s.step action = some t)
    (place : t.inApi = s.inApi)
    : s.refusals action = [] := by
  unfold State.refusals
  rw [stepped]
  split
  · rename_i same
    cases same
    rw [place, refusal_self]
  · rfl

/-- Every step in the session keeps the simulation; by cases of who takes it. -/
theorem Atomic.step (atomic : Atomic s refused order m) (exclusion : Exclusion s)
    (session : Session s) (inside : s.loader.inSession = true) {action : Action cfg}
    (single : SingleSession s action) (stepped : s.step action = some t)
    : ∃ order' m', Atomic t (refused ++ s.refusals action) order' m' := by
  have stays {u : State cfg} (moved : s.step action = some u) (place : u.inApi = s.inApi)
      (stdout : u.sh.g.gStdout = s.sh.g.gStdout) (same : s.sh.SameTable u.sh)
      (events : callEvents u.sh.history = callEvents s.sh.history) :
      ∃ order' m', Atomic u (refused ++ s.refusals action) order' m' := by
    rw [State.refusals_stays moved place, List.append_nil]
    exact ⟨order, m, atomic.quiet place stdout same events⟩
  have moved := stepped
  cases State.step_cases stepped with
  | crash =>
      exact stays moved (funext fun thread => by cases thread <;> rfl) rfl (.refl _) rfl
  | overRegister =>
      exact stays moved (funext fun thread => by cases thread <;> rfl) rfl ⟨rfl, rfl, rfl⟩ rfl
  | @kprintf call sh' printed =>
      obtain ⟨events, history, accepted⟩ := kprintf_events printed
      refine stays moved (funext fun thread => by cases thread <;> rfl) (kprintf_gStdout printed)
        (kprintf_table printed) ?_
      rw [history]
      refine callEvents_append _ fun event member => ?_
      obtain ⟨stamp, body, rfl⟩ := accepted event member
      rfl
  | @loader choice sh' threads' loader' ran =>
      obtain ⟨effect, rfl⟩ := loaderStep_effect ran inside (not_start single inside)
      obtain ⟨events, history, kinds⟩ := effect.events
      refine stays moved (funext fun thread => by cases thread <;> rfl) effect.gStdout effect.table
        ?_
      rw [history]
      exact callEvents_append _ fun event member => (kinds event member).1
  | @event thid choice sh' pc' ran =>
      have effect := eventStep_effect ran
      have place := inApi_event s sh' thid pc'
      rw [State.refusals_of_step rfl moved, place, Function.update_self]
      exact atomic.move exclusion session (rfl : s.inApi (.event thid) = _) place effect.gStdout
        effect.table_unlocked effect.callMove
  | @client n choice sh' pc' ran =>
      have effect := clientStep_effect ran
      have place := inApi_client s sh' n pc'
      rw [State.refusals_of_step rfl moved, place, Function.update_self]
      exact atomic.move exclusion session (rfl : s.inApi (.client n) = _) place effect.gStdout
        effect.table effect.callMove

end Simulation

-----------------------------------------------------------------------------------------
-- Before the session
-----------------------------------------------------------------------------------------

/-- The calls so far are those of an atomic run that has refused each of them, whatever descriptor
`g_stdout` will hold.
-/
def Refusing (cfg : Config) (refused : List CallRun) (inApi : ThreadRef → ClientPc)
    (history : List Event)
    : Prop :=
  ∃ order, refusalsOf order = refused
    ∧ ∀ stdout, (registryObject cfg stdout).AtomicRun (callEvents history) order
        (fun thread => (inApi thread).phase) .empty

/-- A client before the session makes calls that are refused at once. -/
theorem ClientEffect.refusing {refused : List CallRun} {n : Nat} {sh sh' : Shared cfg}
    {inApi : ThreadRef → ClientPc} {pc pc' : ClientPc} (effect : ClientEffect n sh pc sh' pc')
    (place : inApi (.client n) = pc) (before : pc.BeforeSession)
    (state : sh.g.gState ≠ .started) (refusing : Refusing cfg refused inApi sh.history)
    : Refusing cfg (refused ++ refusal sh (.client n) pc pc')
        (Function.update inApi (.client n) pc') sh'.history := by
  obtain ⟨order, told, run⟩ := refusing
  have same {after : ClientPc} {history : List Event} (phase : after.phase = pc.phase)
      (events : callEvents history = callEvents sh.history) :
      Refusing cfg refused (Function.update inApi (.client n) after) history := by
    refine ⟨order, told, fun stdout => ?_⟩
    rw [phase_update, phase, ← place, Function.update_eq_self, events]
    exact run stdout
  cases effect with
  | @enter call =>
      by_cases ofRegistry : call.ofRegistry = true
      · refine ⟨order ++ [(.client n, call, .notStarted)], ?_, fun stdout => ?_⟩
        · rw [refusalsOf_append, told]
          simp [refusal, ofRegistry, state, refusalsOf, CallOutcome.isRefusal]
        have entered : apiEntry sh call = .done kprintfErrNotStarted := by
          simpa [ofRegistry] using apiEntry_beforeSession state call call _ rfl
        have idle : (inApi (.client n)).phase = .idle := by rw [place]; rfl
        have may : (registryObject cfg stdout).may .empty call .notStarted .empty := rfl
        have effect := ((run stdout).invoke idle).effect (Function.update_self _ _ _) may
        rw [phase_update, ClientPc.phase_registry ofRegistry, entered]
        simpa [callEvents, ofRegistry, ApiPc.phase, registryObject, CallOutcome.answer] using effect
      · have other : call.ofRegistry = false := by simpa using ofRegistry
        have silent : refusal sh (.client n) none (some (call, apiEntry sh call)) = [] := by
          simp [refusal, other]
        rw [silent, List.append_nil]
        exact same (by simp [ClientPc.phase, other]) (callEvents_other _ other (Or.inl rfl))
  | @leave call ret =>
      rw [refusal_away sh _ rfl, List.append_nil]
      by_cases ofRegistry : call.ofRegistry = true
      · refine ⟨order, told, fun stdout => ?_⟩
        have decided : (inApi (.client n)).phase = .decided call ret := by
          rw [place, ClientPc.phase_registry ofRegistry]
          rfl
        rw [phase_update]
        simpa [callEvents, ofRegistry, ClientPc.phase] using (run stdout).respond decided
      · have other : call.ofRegistry = false := by simpa using ofRegistry
        exact same (by simp [ClientPc.phase, other])
          (callEvents_other _ other (Or.inr ⟨ret, rfl⟩))
  | @run call api sh' api' choice ran =>
      have free := before call api rfl
      split at free
      · subst free
        contradiction
      · rename_i other
        rw [refusal_away sh _ (ApiPc.free_iff.mp free).1, List.append_nil]
        obtain ⟨events, history, kinds⟩ := (apiStep_effect ran).events
        refine same (by simp [ClientPc.phase, other]) ?_
        rw [history]
        exact callEvents_append _ fun event member =>
          (Event.silent_of_api (kinds event member).1).1

/-- An event thread that polls is in no call. -/
theorem EventPc.inApi_early {pc : EventPc} (early : pc.early = true) : pc.inApi = none := by
  cases pc <;> first | rfl | contradiction

/-- A step of a thread before the session is refused if it is a call. -/
theorem Starting.refusing {refused : List CallRun} {s t : State cfg} {action : Action cfg}
    (starting : Starting s) (outside : s.loader.inSession = false)
    (single : SingleSession s action) (stepped : s.step action = some t)
    (refusing : Refusing cfg refused s.inApi s.sh.history)
    : Refusing cfg (refused ++ s.refusals action) t.inApi t.sh.history := by
  have state := starting.before.state
  have same {u : State cfg} {events : List Event} (moved : s.step action = some u)
      (places : u.inApi = s.inApi) (history : u.sh.history = s.sh.history ++ events)
      (silent : ∀ event ∈ events, event.callOf = none) :
      Refusing cfg (refused ++ s.refusals action) u.inApi u.sh.history := by
    obtain ⟨order, told, run⟩ := refusing
    rw [State.refusals_stays moved places, List.append_nil]
    refine ⟨order, told, fun stdout => ?_⟩
    rw [places, history, callEvents_append _ silent]
    exact run stdout
  have moved := stepped
  cases State.step_cases stepped with
  | crash faults => exact absurd faults (starting.no_fault outside)
  | kprintf printed =>
      obtain rfl := kprintf_unstarted state printed
      exact same moved (funext fun thread => by cases thread <;> rfl) (List.append_nil _).symm
        (List.forall_mem_nil _)
  | overRegister =>
      exact same moved (funext fun thread => by cases thread <;> rfl) (List.append_nil _).symm
        (List.forall_mem_nil _)
  | @event thid choice sh' pc' ran =>
      obtain ⟨rfl, polls, polls'⟩ := eventStep_early ran (starting.before.early thid) state
      have idle : pc'.inApi = s.inApi (.event thid) := by
        rcases polls with polls | polls <;> rcases polls' with rfl | rfl <;>
          simp [State.inApi, polls, EventPc.inApi, EventPc.nested]
      exact same moved (by rw [inApi_event, idle, Function.update_eq_self])
        (List.append_nil _).symm (List.forall_mem_nil _)
  | @client n choice sh' pc' ran =>
      rw [State.refusals_of_step rfl moved, inApi_client, Function.update_self]
      exact (clientStep_effect ran).refusing rfl (starting.before.clients n) state refusing
  | @loader choice sh' threads' loader' ran =>
      obtain ⟨⟨events, history, silent⟩, places⟩ := loaderStep_calls ran
      refine same moved (funext fun thread => ?_) history silent
      cases thread with
      | client n => rfl
      | event thid =>
          have idle : (s.threads thid).inApi = none :=
            EventPc.inApi_early (starting.before.early thid)
          rcases places thid with same | none
          · exact same
          · exact none.trans idle.symm

/-- The globals in which nothing has been registered hold the empty map. -/
theorem TableIs.empty {g : Globals cfg} (handlers : g.gHandlers = Vector.replicate _ .empty)
    (count : g.gHandlerCount = 0) (default : g.gDefaultHandlerIndex = -1)
    : TableIs g .empty :=
  FreshTable.represents ⟨rfl, handlers, count, default⟩

/-- A fresh session begins with an atomic run that has refused all calls. -/
theorem Fresh.atomic {refused order : List CallRun} {s : State cfg} (fresh : Fresh s)
    (told : refusalsOf order = refused)
    (run
      : ∀ stdout, (registryObject cfg stdout).AtomicRun (callEvents s.sh.history) order
          (fun thread => (s.inApi thread).phase) .empty)
    : Atomic s refused order .empty where
  run := run _
  refusals := told
  ahead := by
    rintro (thid | n) call api engaged
    · have early : (s.threads thid).early = true := by
        by_cases self : thid = s.sh.g.gThid
        · rcases fresh.polling with polls | polls <;> simp [self, polls, EventPc.early]
        · simp [fresh.others thid self, EventPc.early]
      rw [State.inApi, EventPc.inApi_early early] at engaged
      contradiction
    · have place := fresh.clients n call api engaged
      split at place
      · subst place
        trivial
      · rename_i other
        have notRegistry : call.ofRegistry = false := by simpa using other
        cases api <;> first | exact notRegistry | trivial
  table := fun _ => .empty fresh.table fresh.count fresh.default

-----------------------------------------------------------------------------------------
-- Whole runs
-----------------------------------------------------------------------------------------

/-- In every run the calls so far are those of an atomic run with the same refusals; in the session
it has led to what the table holds.
-/
theorem atomicity {s : State cfg} {refused : List CallRun}
    (observed : (machine cfg).Observed SingleSession State.refusals s refused)
    : (s.loader.inSession = false → Refusing cfg refused s.inApi s.sh.history)
      ∧ (s.loader.inSession = true → ∃ order m, Atomic s refused order m) := by
  refine observed.invariant (P := fun s refused =>
    (s.loader.inSession = false → Refusing cfg refused s.inApi s.sh.history)
      ∧ (s.loader.inSession = true → ∃ order m, Atomic s refused order m)) ?_ ?_
  · refine ⟨fun _ => ⟨[], rfl, fun stdout => ?_⟩, fun inside => by contradiction⟩
    have idle : (fun thread => ((machine cfg).init.inApi thread).phase) = fun _ => .idle := by
      funext thread
      cases thread <;> rfl
    rw [idle]
    exact .init
  · intro s action t refused reach earlier single stepped
    by_cases inside : s.loader.inSession = true
    · have inside' := inSession_step single inside stepped
      obtain ⟨order, m, atomic⟩ := earlier.2 inside
      refine ⟨fun outside => by simp [inside'] at outside, fun _ => ?_⟩
      exact atomic.step (exclusion reach inside) (session reach inside) inside single stepped
    · have outside : s.loader.inSession = false := by simpa using inside
      have refusing := (starting reach outside).refusing outside single stepped
        (earlier.1 outside)
      rcases (starting reach outside).step outside single stepped with ⟨outside', _⟩ | fresh
      · exact ⟨fun _ => refusing, fun inside' => by simp [inside'] at outside'⟩
      · obtain ⟨order, told, run⟩ := refusing
        exact ⟨fun _ => ⟨order, told, run⟩, fun _ => ⟨order, .empty, fresh.atomic told run⟩⟩

/-- The registry functions are linearizable: whatever threads call them at the same time, some
order of the calls that have taken effect, each between its call and its return, explains all
answers one after the other, and leads to what the table holds when nobody is writing it. The calls
that it takes as refused are those that were, by the module that is not started or by their own
sceKernelWaitSema.
-/
theorem registry_linearizable {s : State cfg} {refused : List CallRun}
    (observed : (machine cfg).Observed SingleSession State.refusals s refused)
    : ∃ order m, (registryObject cfg s.sh.g.gStdout).Serves order m
        ∧ Linearizes ((registryObject cfg s.sh.g.gStdout).answers order)
            (callEvents s.sh.history)
        ∧ refusalsOf order = refused
        ∧ ((∀ thread, (s.inApi thread).locked = false) → TableIs s.sh.g m) := by
  by_cases inside : s.loader.inSession = true
  · obtain ⟨order, m, atomic⟩ := (atomicity observed).2 inside
    exact ⟨order, m, atomic.run.serves, atomic.run.linearizes, atomic.refusals, atomic.table⟩
  · have outside : s.loader.inSession = false := by simpa using inside
    obtain ⟨order, told, run⟩ := (atomicity observed).1 outside
    have before := (starting observed.reachable outside).before
    exact ⟨order, .empty, (run _).serves, (run s.sh.g.gStdout).linearizes, told,
      fun _ => .empty before.table before.count before.default⟩

/-- Two clients call register_handler at the same time. The second one gets the semaphore first,
and has not returned when the first one does. Meanwhile the wait of a third client fails.
-/
def racingRun : List (Action .shipped) :=
  [.client 0 (.call (.registerHandler (some (.client 7)) 0)),
    .client 1 (.call (.registerHandler (some (.client 8)) 0)),
    .client 2 (.call (.unregisterHandler 0)), .client 2 (.fail (-5))]
    ++ List.replicate 10 (.client 1 .go) ++ List.replicate 12 (.client 0 .go)

/-- The calls of that run, and their returns. -/
def racingEvents : List (CallEvent ThreadRef ApiCall Int) :=
  [.invoke (.event 13) .registerDefaultHandler, .respond (.event 13) .registerDefaultHandler 0,
    .invoke (.client 0) (.registerHandler (some (.client 7)) 0),
    .invoke (.client 1) (.registerHandler (some (.client 8)) 0),
    .invoke (.client 2) (.unregisterHandler 0),
    .respond (.client 0) (.registerHandler (some (.client 7)) 0) 2]

/-- Witness: the first of two racing calls returns with the later slot, and a third is refused. -/
theorem registry_linearizable_race
    : ∃ (s : State .shipped) (refused : List CallRun),
        (callEvents s.sh.history = racingEvents
          ∧ refused = [(.client 2, .unregisterHandler 0, .waitFails (-5))])
        ∧ ∃ order m, (registryObject .shipped s.sh.g.gStdout).Serves order m
            ∧ Linearizes ((registryObject .shipped s.sh.g.gStdout).answers order)
                (callEvents s.sh.history)
            ∧ refusalsOf order = refused
            ∧ ((∀ thread, (s.inApi thread).locked = false) → TableIs s.sh.g m) := by
  have done : ((machine .shipped).runObserving SingleSession State.refusals
      (machine .shipped).init (loopRun ++ racingRun)).any (fun (s, refused) =>
        callEvents s.sh.history = racingEvents
          ∧ refused = [(.client 2, .unregisterHandler 0, .waitFails (-5))]) = true := by
    decide +kernel
  obtain ⟨s, refused, observed, holds⟩ := System.exists_of_runObserving done
  exact ⟨s, refused, of_decide_eq_true holds, registry_linearizable observed⟩

end LibKprintf
