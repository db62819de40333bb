import LibKprintf.Handlers.Sequential

/-! Starting the same loaded image again. The globals keep their values from the sessions
before; init stores to some of those that the handler table consists of, but not to its slots.
-/

namespace LibKprintf

open Foundation

variable {cfg : Config}

/-- No call of a registry function is between its entry and its return: the threads are
outside, or past the semaphore.
-/
def Settled (s : State cfg) : Prop :=
  ∀ thread call api, s.inApi thread = some (call, api) → api.free = true

/-- Any run of the module: no step is excluded. -/
def AnyRun (_ : State cfg) (_ : Action cfg) : Prop := True

/-- _start is not called. -/
def NoStart (_ : State cfg) (action : Action cfg) : Prop := action.isStart = false

instance (s : State cfg) (action : Action cfg) : Decidable (NoStart s action) :=
  inferInstanceAs (Decidable (_ = _))

/-- _start is called in the first state, and in the second one init has just stored
`STATE_STARTED` and returned 0.
-/
def Restarts (s t : State cfg) : Prop :=
  ∃ first last l choice, s.step (.loader .start) = some first
    ∧ (machine cfg).Path NoStart first last ∧ last.loader = .init .started l
    ∧ last.step (.loader choice) = some t

/-- What init has reset of the globals at each of its program points up to the success. -/
structure Reset (g : Globals cfg) (pc : InitPc) : Prop where
  default : 11 ≤ pc.rank → pc.rank ≤ 15 → g.gDefaultHandlerIndex = -1
  count : 12 ≤ pc.rank → pc.rank ≤ 15 → g.gHandlerCount = 0
  head : 13 ≤ pc.rank → pc.rank ≤ 15 → g.gHead = 0

/-- The same three globals are as much reset, at a program point that claims no more. -/
theorem Reset.of_same {g g' : Globals cfg} {pc pc' : InitPc} (reset : Reset g pc)
    (default : g'.gDefaultHandlerIndex = g.gDefaultHandlerIndex)
    (count : g'.gHandlerCount = g.gHandlerCount) (head : g'.gHead = g.gHead)
    (rank : pc'.rank ≤ 10 ∨ 15 < pc'.rank ∨ 13 ≤ pc.rank ∧ pc.rank ≤ 15)
    : Reset g' pc' where
  default := fun low high => default ▸ reset.default (by omega) (by omega)
  count := fun low high => count ▸ reset.count (by omega) (by omega)
  head := fun low high => head ▸ reset.head (by omega) (by omega)

/-- What holds while init runs after a start in a state with the slots of the table `before`. -/
structure Restarting (before : Vector RegHandler cfg.kprintfMaxHandlers) (sh : Shared cfg)
    (pc : InitPc)
    : Prop where
  state : sh.g.gState ≠ .started
  handlers : sh.g.gHandlers = before
  install : ∀ api, pc = .install api → api.free = true
  reset : Reset sh.g pc

/-- Every step of init that stays in init keeps it, by cases of the program point. -/
theorem Restarting.init {before : Vector RegHandler cfg.kprintfMaxHandlers}
    {sh sh' : Shared cfg} {threads threads' : Threads} {pc pc' : InitPc} {l l' : InitLocals}
    {choice : Choice cfg} (restarting : Restarting before sh pc)
    (stepped : initStep sh threads pc l choice = .next (sh', threads', .init pc' l'))
    : Restarting before sh' pc' := by
  obtain ⟨state, handlers, install, reset⟩ := restarting
  cases pc with
  | install api =>
      obtain ⟨ret, rfl, same⟩ | ⟨sh'', api', ran, same⟩ := initStep_install stepped
      · split at same <;> cases same
        · exact ⟨state, handlers, by simp, reset.of_same rfl rfl rfl (by simp [InitPc.rank])⟩
        · exact ⟨state, handlers, by simp, reset.of_same rfl rfl rfl (by simp [InitPc.rank])⟩
      · cases same
        obtain ⟨quiet, free⟩ := (apiStep_effect ran).quiet (install api rfl) state
        refine ⟨quiet.g ▸ state, quiet.g ▸ handlers, ?_, ?_⟩
        · rintro _ ⟨⟩
          exact free
        · rw [quiet.g]
          exact reset.of_same rfl rfl rfl (by simp [InitPc.rank])
  | stdout =>
      simp only [initStep] at stepped
      split at stepped
      · cases stepped
        exact ⟨state, handlers, by simp, reset.of_same rfl rfl rfl (by simp [InitPc.rank])⟩
      · contradiction
  | starting =>
      simp only [initStep, Choice.onGo_eq_next, StepResult.next.injEq] at stepped
      obtain ⟨_, same⟩ := stepped
      cases same
      exact ⟨by simp, handlers, by simp, reset.of_same rfl rfl rfl (by simp [InitPc.rank])⟩
  | createVpl | createEventFlag | createSema | createThread =>
      simp only [initStep, createStep_eq_next] at stepped
      obtain ⟨id, _, _, _, same⟩ | ⟨code, _, _, same⟩ := stepped <;> cases same <;>
        exact ⟨state, handlers, by simp, reset.of_same rfl rfl rfl (by simp [InitPc.rank])⟩
  | setVplid | setEvid | setSemid | setThid =>
      simp only [initStep, Choice.onGo_eq_next, StepResult.next.injEq] at stepped
      obtain ⟨_, same⟩ := stepped
      cases same
      exact ⟨state, handlers, by simp, reset.of_same rfl rfl rfl (by simp [InitPc.rank])⟩
  | setDefault =>
      simp only [initStep, Choice.onGo_eq_next, StepResult.next.injEq] at stepped
      obtain ⟨_, same⟩ := stepped
      cases same
      exact ⟨state, handlers, by simp, ⟨fun _ _ => rfl, by simp [InitPc.rank],
        by simp [InitPc.rank]⟩⟩
  | setCount =>
      simp only [initStep, Choice.onGo_eq_next, StepResult.next.injEq] at stepped
      obtain ⟨_, same⟩ := stepped
      cases same
      exact ⟨state, handlers, by simp, ⟨fun _ _ => reset.default (by decide) (by decide),
        fun _ _ => rfl, by simp [InitPc.rank]⟩⟩
  | setHead =>
      simp only [initStep, Choice.onGo_eq_next, StepResult.next.injEq] at stepped
      obtain ⟨_, same⟩ := stepped
      cases same
      exact ⟨state, handlers, by simp, ⟨fun _ _ => reset.default (by decide) (by decide),
        fun _ _ => reset.count (by decide) (by decide), fun _ _ => rfl⟩⟩
  | startThread =>
      simp only [initStep, Choice.onKernel_eq_next] at stepped
      obtain ⟨_, stepped⟩ | ⟨code, _, _, same⟩ := stepped
      · split at stepped
        · cases stepped
          refine ⟨state, handlers, ?_, reset.of_same rfl rfl rfl (by simp [InitPc.rank])⟩
          rintro _ ⟨⟩
          rfl
        · contradiction
      · cases same
        exact ⟨state, handlers, by simp, reset.of_same rfl rfl rfl (by simp [InitPc.rank])⟩
  | started | stopped => simp [initStep] at stepped
  | terminateThread | deleteSema | deleteEventFlag | deleteVpl =>
      simp only [initStep, Choice.onGo_eq_next, StepResult.next.injEq] at stepped
      obtain ⟨_, stepped⟩ := stepped
      split at stepped <;> cases stepped <;>
        exact ⟨state, handlers, by simp, reset.of_same rfl rfl rfl (by simp [InitPc.rank])⟩

/-- A function that is entered while the module is not started needs no semaphore. -/
theorem apiEntry_unstarted {sh : Shared cfg} (state : sh.g.gState ≠ .started) (call : ApiCall)
    : (apiEntry sh call).free = true := by
  rcases apiEntry_cases sh call with free | ⟨started, _⟩
  · exact free
  · exact absurd started state

/-- While the module is not started a thread outside the semaphore calls stays outside. -/
theorem CallMove.free {thread : ThreadRef} {sh sh' : Shared cfg} {before after : ClientPc}
    (move : CallMove thread sh sh' before after) (state : sh.g.gState ≠ .started)
    (free : ∀ call api, before = some (call, api) → api.free = true)
    : ∀ call api, after = some (call, api) → api.free = true := by
  intro call api engaged
  cases move with
  | outside | leave => contradiction
  | enter =>
      cases engaged
      exact apiEntry_unstarted state call
  | run ran =>
      cases engaged
      exact ((apiStep_effect ran).quiet (free _ _ rfl) state).2

/-- It changes nothing of the globals there. -/
theorem apiCallStep_unstarted {thread : ThreadRef} {call : ApiCall} {sh sh' : Shared cfg}
    {api : ApiPc} {api' : Option ApiPc} {choice : Choice cfg}
    (stepped : apiCallStep thread call sh api choice = .next (sh', api'))
    (state : sh.g.gState ≠ .started) (free : api.free = true)
    : sh'.g = sh.g := by
  obtain ⟨ret, rfl, rfl, rfl⟩ | ⟨pc', ran, rfl⟩ := apiCallStep_cases stepped
  · rfl
  · exact ((apiStep_effect ran).quiet free state).1.g

/-- Nor does a client. -/
theorem ClientEffect.unstarted {n : Nat} {sh sh' : Shared cfg} {pc pc' : ClientPc}
    (effect : ClientEffect n sh pc sh' pc') (state : sh.g.gState ≠ .started)
    (free : ∀ call api, pc = some (call, api) → api.free = true)
    : sh'.g = sh.g := by
  cases effect with
  | enter | leave => rfl
  | run ran => exact ((apiStep_effect ran).quiet (free _ _ rfl) state).1.g

/-- A flush of an event thread from an earlier session may still move `g_head`, unless the
queue is empty.
-/
theorem flushStep_unstarted {thid : Uid} {sh sh' : Shared cfg} {pc : FlushPc}
    {pc' : Option FlushPc} {choice : Choice cfg}
    (stepped : flushStep thid sh pc choice = .next (sh', pc')) (state : sh.g.gState ≠ .started)
    (free : ∀ call api, pc.nested = some (call, api) → api.free = true)
    : sh'.g = { sh.g with gHead := sh'.g.gHead } ∧ (sh.g.gHead = 0 → sh'.g.gHead = 0) := by
  have effect := flushStep_effect stepped
  cases effect with
  | read | observe | callbackReturns | callbackCalls => exact ⟨rfl, id⟩
  | nested called =>
      have same := apiCallStep_unstarted called state (free _ _ rfl)
      rw [same]
      exact ⟨rfl, id⟩
  | @remove m n head mem events freed =>
      refine ⟨rfl, fun empty => ?_⟩
      simp only [flushStep, removeDeleteMsg, empty, if_true, Choice.onGo_eq_next,
        StepResult.map_eq_next, StepResult.ofMemory_eq_next, Option.some.injEq] at stepped
      obtain ⟨_, _, rfl, same⟩ := stepped
      rw [← (Prod.mk.inj same).1]
      exact empty

/-- An event thread changes nothing else of the globals. -/
theorem eventStep_unstarted {thid : Uid} {sh sh' : Shared cfg} {pc pc' : EventPc}
    {choice : Choice cfg} (stepped : eventStep thid sh pc choice = .next (sh', pc'))
    (state : sh.g.gState ≠ .started)
    (free : ∀ call api, pc.inApi = some (call, api) → api.free = true)
    : sh'.g = { sh.g with gHead := sh'.g.gHead } ∧ (sh.g.gHead = 0 → sh'.g.gHead = 0) := by
  cases eventStep_effect stepped with
  | move | callRegister | wake | acquire | release | resend | stopOk => exact ⟨rfl, id⟩
  | register called =>
      have same := apiCallStep_unstarted called state (free _ _ rfl)
      rw [same]
      exact ⟨rfl, id⟩
  | flush flushed => exact flushStep_unstarted flushed state free

/-- Such a step keeps what init has reset. -/
theorem Restarting.other {before : Vector RegHandler cfg.kprintfMaxHandlers}
    {sh sh' : Shared cfg} {pc : InitPc} (restarting : Restarting before sh pc)
    (same : sh'.g = { sh.g with gHead := sh'.g.gHead })
    (head : sh.g.gHead = 0 → sh'.g.gHead = 0)
    : Restarting before sh' pc where
  state := by
    rw [same]
    exact restarting.state
  handlers := by
    rw [same]
    exact restarting.handlers
  install := restarting.install
  reset := by
    obtain ⟨default, count, empty⟩ := restarting.reset
    refine ⟨fun low high => ?_, fun low high => ?_, fun low high => head (empty low high)⟩
    · rw [same]
      exact default low high
    · rw [same]
      exact count low high

/-- init stores `STATE_STARTED` with its last statement only. -/
theorem initStep_state {sh sh' : Shared cfg} {threads threads' : Threads} {pc : InitPc}
    {l : InitLocals} {loader' : LoaderPc} {choice : Choice cfg}
    (stepped : initStep sh threads pc l choice = .next (sh', threads', loader'))
    (state : sh.g.gState ≠ .started)
    : sh'.g.gState ≠ .started ∨ loader' = .resident := by
  cases pc with
  | install api =>
      obtain ⟨ret, _, same⟩ | ⟨sh'', api', ran, same⟩ := initStep_install stepped
      · cases same
        exact Or.inl state
      · cases same
        rw [(apiStep_effect ran).frame.gState]
        exact Or.inl state
  | stdout =>
      simp only [initStep] at stepped
      split at stepped
      · cases stepped
        exact Or.inl state
      · contradiction
  | createVpl | createEventFlag | createSema | createThread =>
      simp only [initStep, createStep_eq_next] at stepped
      obtain ⟨id, _, _, _, same⟩ | ⟨code, _, _, same⟩ := stepped <;> cases same <;>
        exact Or.inl state
  | startThread =>
      simp only [initStep, Choice.onKernel_eq_next] at stepped
      obtain ⟨_, stepped⟩ | ⟨code, _, _, same⟩ := stepped
      · split at stepped <;> cases stepped
        exact Or.inl state
      · cases same
        exact Or.inl state
  | terminateThread | deleteSema | deleteEventFlag | deleteVpl =>
      simp only [initStep, Choice.onGo_eq_next, StepResult.next.injEq] at stepped
      obtain ⟨_, stepped⟩ := stepped
      split at stepped <;> cases stepped <;> exact Or.inl state
  | started =>
      simp only [initStep, Choice.onGo_eq_next, StepResult.next.injEq] at stepped
      obtain ⟨_, same⟩ := stepped
      cases same
      exact Or.inr rfl
  | starting | stopped =>
      simp only [initStep, Choice.onGo_eq_next, StepResult.next.injEq] at stepped
      obtain ⟨_, same⟩ := stepped
      cases same
      exact Or.inl (by simp [Shared.note])
  | setVplid | setEvid | setSemid | setThid | setDefault | setCount | setHead =>
      simp only [initStep, Choice.onGo_eq_next, StepResult.next.injEq] at stepped
      obtain ⟨_, same⟩ := stepped
      cases same
      exact Or.inl state

/-- _stop has stored `STATE_STOPPED` before it is past that statement. -/
theorem StopEffect.isStarted {sh sh' : Shared cfg} {pc pc' : LoaderPc} {choice : Choice cfg}
    (effect : StopEffect sh pc choice sh' pc')
    (before : sh.g.gState = .started → pc.isStarted = true)
    : sh'.g.gState = .started → pc'.isStarted = true := by
  intro started
  cases effect with
  | enter => simp [stopEntry, started, LoaderPc.isStarted]
  | announce printed => rfl
  | unhook => rfl
  | setStopped => contradiction
  | post => exact before started
  | acknowledged took => exact before started
  | giveUp => exact before started

/-- _start is called outside init and _stop only, and not on a started module. -/
theorem loaderStep_of_start (sh : Shared cfg) (threads : Threads) (pc : LoaderPc)
    : loaderStep sh threads pc .start = .disabled
      ∨ pc.isStarted = false
        ∧ loaderStep sh threads pc .start = .next (sh, threads, .init .stdout {}) := by
  cases pc with
  | loaded | failed | stopped => exact Or.inr ⟨rfl, rfl⟩
  | resident => exact Or.inl rfl
  | stop pc => cases pc <;> exact Or.inl rfl
  | init pc l =>
      cases pc with
      | install api => cases api <;> exact Or.inl rfl
      | _ => exact Or.inl rfl

/-- A started module is not started again. -/
theorem loaderStep_start {sh sh' : Shared cfg} {threads threads' : Threads} {pc pc' : LoaderPc}
    {choice : Choice cfg} (stepped : loaderStep sh threads pc choice = .next (sh', threads', pc'))
    (started : pc.isStarted = true)
    : pc'.inSession = true := by
  have inside : pc.inSession = true := by
    cases pc with
    | loaded | failed | init => simp [LoaderPc.isStarted] at started
    | resident | stop | stopped => rfl
  have single : (Action.loader choice).isStart = false := by
    cases choice with
    | start =>
        rcases loaderStep_of_start sh threads pc with disabled | ⟨unstarted, _⟩
        · simp [disabled] at stepped
        · simp [unstarted] at started
    | _ => rfl
  exact (loaderStep_effect stepped inside single).1.inSession

/-- In every run `g_state` is `STATE_STARTED` only between the end of init and the store of
_stop.
-/
theorem isStarted_of_started {guard : State cfg → Action cfg → Prop} {s : State cfg}
    (reach : (machine cfg).Reachable guard s)
    : s.sh.g.gState = .started → s.loader.isStarted = true := by
  refine System.Reachable.invariant
    (P := fun s : State cfg => s.sh.g.gState = .started → s.loader.isStarted = true) reach ?_ ?_
  · intro started
    contradiction
  · intro s action t _ before _ stepped
    cases State.step_cases stepped with
    | crash | overRegister => exact before
    | kprintf printed =>
        show _ = _ → _
        rw [(kprintf_frame printed).gState]
        exact before
    | event ran =>
        show _ = _ → _
        rw [(eventStep_effect ran).frame.gState]
        exact before
    | client ran =>
        show _ = _ → _
        rw [(clientStep_effect ran).frame.gState]
        exact before
    | @loader choice sh' threads' loader' ran =>
        rcases loaderStep_cases ran with ⟨ip, l, place, ran⟩ | ⟨rfl, rfl, rfl⟩ | ⟨effect, rfl⟩
        · have state : s.sh.g.gState ≠ .started := fun started => by
            simpa [place, LoaderPc.isStarted] using before started
          rcases initStep_state ran state with state' | rfl
          · exact fun started => absurd started state'
          · exact fun _ => rfl
        · intro started
          have begun := loaderStep_start ran (before started)
          simp [LoaderPc.inSession] at begun
        · exact effect.isStarted before

/-- What holds of the whole state while init runs. -/
def RestartingState (before : Vector RegHandler cfg.kprintfMaxHandlers) (s : State cfg) : Prop :=
  ∀ pc l, s.loader = .init pc l → Restarting before s.sh pc ∧ Settled s

/-- Without a call of _start only init leads to a statement of init. -/
theorem init_of_noStart {sh sh' : Shared cfg} {threads threads' : Threads} {pc : LoaderPc}
    {ip' : InitPc} {l' : InitLocals} {choice : Choice cfg}
    (stepped : loaderStep sh threads pc choice = .next (sh', threads', .init ip' l'))
    (noStart : (Action.loader choice : Action cfg).isStart = false)
    : ∃ ip l, pc = .init ip l
        ∧ initStep sh threads ip l choice = .next (sh', threads', .init ip' l') := by
  cases pc with
  | init ip l => exact ⟨ip, l, rfl, stepped⟩
  | loaded | failed => cases choice <;> simp_all [loaderStep, Action.isStart]
  | resident | stopped | stop =>
      have stays := (loaderStep_effect stepped rfl noStart).1.inSession
      simp [LoaderPc.inSession] at stays

/-- Another place of one thread outside the semaphore calls keeps all of them outside. -/
theorem Settled.update {s t : State cfg} {thread : ThreadRef} {after : ClientPc}
    (settled : Settled s) (moved : t.inApi = Function.update s.inApi thread after)
    (free : ∀ call api, after = some (call, api) → api.free = true)
    : Settled t := by
  intro other call api engaged
  rw [moved] at engaged
  by_cases same : other = thread
  · subst same
    exact free call api (by simpa using engaged)
  · exact settled other call api (by simpa [same] using engaged)

/-- Every step of the whole module keeps it: only init stores to the globals. -/
theorem RestartingState.step {before : Vector RegHandler cfg.kprintfMaxHandlers}
    {s t : State cfg} {action : Action cfg} (restarting : RestartingState before s)
    (noStart : NoStart s action) (stepped : s.step action = some t)
    : RestartingState before t := by
  intro pc' l' place'
  cases State.step_cases stepped with
  | crash | overRegister =>
      obtain ⟨holds, settled⟩ := restarting pc' l' place'
      refine ⟨holds.other rfl id, fun thread call api engaged => ?_⟩
      exact settled thread call api (by cases thread <;> exact engaged)
  | kprintf printed =>
      obtain ⟨holds, settled⟩ := restarting pc' l' place'
      rw [kprintf_unstarted holds.state printed]
      exact ⟨holds, fun thread call api engaged =>
        settled thread call api (by cases thread <;> exact engaged)⟩
  | @event thid choice sh' pc ran =>
      obtain ⟨holds, settled⟩ := restarting pc' l' place'
      obtain ⟨same, head⟩ := eventStep_unstarted ran holds.state (settled (.event thid))
      exact ⟨holds.other same head, settled.update (inApi_event s sh' thid pc)
        ((eventStep_effect ran).callMove.free holds.state (settled (.event thid)))⟩
  | @client n choice sh' pc ran =>
      obtain ⟨holds, settled⟩ := restarting pc' l' place'
      have same := (clientStep_effect ran).unstarted holds.state (settled (.client n))
      exact ⟨holds.other (by rw [same]) (by rw [same]; exact id),
        settled.update (inApi_client s sh' n pc)
          ((clientStep_effect ran).callMove.free holds.state (settled (.client n)))⟩
  | @loader choice sh' threads' loader' ran =>
      subst place'
      obtain ⟨ip, l, place, initRan⟩ := init_of_noStart ran noStart
      obtain ⟨holds, settled⟩ := restarting ip l place
      refine ⟨holds.init initRan, fun thread call api engaged => ?_⟩
      cases thread with
      | client n => exact settled (.client n) call api engaged
      | event thid =>
          rcases (initStep_events initRan).2 thid with same | outside
          · exact settled (.event thid) call api (same.symm.trans engaged)
          · exact absurd (outside.symm.trans engaged) (by simp)

/-- A call of _start enters init, and is not made on a started module. -/
theorem start_cases {s first : State cfg} (begun : s.step (.loader .start) = some first)
    : first = { s with loader := .init .stdout {} } ∧ s.loader.isStarted = false := by
  rcases loaderStep_of_start s.sh s.threads s.loader with disabled | ⟨unstarted, entered⟩
  · cases State.step_cases begun with
    | crash faults => simp [State.Faults, disabled] at faults
    | loader ran => simp [disabled] at ran
  · cases State.step_cases begun with
    | crash faults => simp [State.Faults, entered] at faults
    | loader ran =>
        rw [entered] at ran
        cases ran
        exact ⟨rfl, unstarted⟩

/-- It holds where init has just been entered. -/
theorem RestartingState.start {s first : State cfg} {guard : State cfg → Action cfg → Prop}
    (reach : (machine cfg).Reachable guard s) (settled : Settled s)
    (begun : s.step (.loader .start) = some first)
    : RestartingState s.sh.g.gHandlers first := by
  obtain ⟨rfl, unstarted⟩ := start_cases begun
  rintro _ _ ⟨⟩
  refine ⟨⟨fun started => ?_, rfl, by simp, ?_⟩, fun thread call api engaged => ?_⟩
  · simp [isStarted_of_started reach started] at unstarted
  · constructor <;> simp [InitPc.rank]
  · exact settled thread call api (by cases thread <;> exact engaged)

/-- It holds for as long as _start is not called again. -/
theorem RestartingState.run {s first t : State cfg} {guard : State cfg → Action cfg → Prop}
    (reach : (machine cfg).Reachable guard s) (settled : Settled s)
    (begun : s.step (.loader .start) = some first) (path : (machine cfg).Path NoStart first t)
    : RestartingState s.sh.g.gHandlers t :=
  path.preserves (P := RestartingState s.sh.g.gHandlers) (.start reach settled begun)
    (fun _ _ _ restarting noStart stepped => restarting.step noStart stepped)

/-- Right after a new start has succeeded: the module is started, no call is at the semaphore,
and of the table init has reset the count and the default index, and left the slots alone.
-/
theorem Restarts.reset {s t : State cfg} {guard : State cfg → Action cfg → Prop}
    (reach : (machine cfg).Reachable guard s) (settled : Settled s) (restarts : Restarts s t)
    : t.sh.g.gState = .started ∧ Settled t ∧ t.sh.g.gHandlers = s.sh.g.gHandlers
      ∧ t.sh.g.gDefaultHandlerIndex = -1 ∧ t.sh.g.gHandlerCount = 0 ∧ t.sh.g.gHead = 0
      ∧ t.loader = .resident := by
  obtain ⟨first, last, l, choice, begun, path, place, ended⟩ := restarts
  have kept : RestartingState s.sh.g.gHandlers last := .run reach settled begun path
  obtain ⟨⟨_, handlers, _, default, count, head⟩, settled'⟩ := kept _ l place
  cases State.step_cases ended with
  | crash faults => simp [State.Faults, place, loaderStep, initStep] at faults
  | @loader choice sh' threads' loader' ran =>
      simp only [place, loaderStep, initStep, Choice.onGo_eq_next, StepResult.next.injEq] at ran
      obtain ⟨_, same⟩ := ran
      cases same
      exact ⟨rfl, fun thread call api engaged =>
          settled' thread call api (by cases thread <;> exact engaged), handlers,
        default (by decide) (by decide), count (by decide) (by decide),
        head (by decide) (by decide), rfl⟩

end LibKprintf
