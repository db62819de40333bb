import LibKprintf.Session.Startup

/-! The session: from the end of init on, in a run that calls _start once. Its kernel
objects live on, and every id that a thread has read out of the globals is still theirs.
-/

namespace LibKprintf

open Foundation

variable {cfg : Config}

/-- Where the module manager's thread is while `g_state` is `STATE_STARTED`. -/
def LoaderPc.isStarted : LoaderPc → Bool
  | .resident | .stop .announce | .stop .unhook | .stop .setStopped => true
  | _ => false

/-- What one step of the module manager's thread can do in the session. -/
inductive StopEffect (sh : Shared cfg)
    : LoaderPc → Choice cfg → Shared cfg → LoaderPc → Prop
  | enter {pc choice} (outside : pc = .resident ∨ pc = .stopped)
    : StopEffect sh pc choice sh (stopEntry sh)
  | announce {choice sh'} (printed : sh' = sh ∨ ∃ during, kprintf sh during = .next sh')
    : StopEffect sh (.stop .announce) choice sh' (.stop .unhook)
  | unhook {choice}
    : StopEffect sh (.stop .unhook) choice
        ({ sh with k := { sh.k with hook := .none } }.note .stopUnhooks) (.stop .setStopped)
  | setStopped {choice}
    : StopEffect sh (.stop .setStopped) choice { sh with g := { sh.g with gState := .stopped } }
        (.stop .post)
  | post {choice}
    : StopEffect sh (.stop .post) choice (sh.setEventFlag (evFlush ||| evTerminate))
        (.stop (.waitStopOk sh.g.gEvid))
  | acknowledged {evid choice k bits} (took : sh.k.takeEventFlag evid evStopOk = some (k, bits))
    : StopEffect sh (.stop (.waitStopOk evid)) choice { sh with k := k } .stopped
  | giveUp {evid code}
    : StopEffect sh (.stop (.waitStopOk evid)) (.fail code) sh .stopped

/-- Unless it calls _start again, every step of the module manager's thread has one of these
effects in the session, and leaves the event threads alone.
-/
theorem loaderStep_effect {sh sh' : Shared cfg} {threads threads' : Threads} {pc pc' : LoaderPc}
    {choice : Choice cfg} (stepped : loaderStep sh threads pc choice = .next (sh', threads', pc'))
    (inside : pc.inSession = true) (single : (Action.loader choice).isStart = false)
    : StopEffect sh pc choice sh' pc' ∧ threads' = threads := by
  cases pc with
  | loaded | failed | init => simp [LoaderPc.inSession] at inside
  | resident =>
      simp only [loaderStep] at stepped
      split at stepped
      · cases stepped
        exact ⟨.enter (Or.inl rfl), rfl⟩
      · contradiction
  | stopped =>
      simp only [loaderStep] at stepped
      split at stepped
      · simp [Action.isStart] at single
      · cases stepped
        exact ⟨.enter (Or.inr rfl), rfl⟩
      · contradiction
  | stop pc =>
      simp only [loaderStep, StepResult.map_eq_next] at stepped
      obtain ⟨⟨next, pc''⟩, stepped, same⟩ := stepped
      cases same
      refine ⟨?_, rfl⟩
      cases pc with
      | announce =>
          simp only [stopStep, StepResult.map_eq_next, Choice.onKprintf_eq_next,
            Prod.mk.injEq] at stepped
          obtain ⟨_, ⟨_, rfl⟩ | ⟨during, _, printed⟩, rfl, rfl⟩ := stepped
          · exact .announce (Or.inl rfl)
          · exact .announce (Or.inr ⟨during, printed⟩)
      | unhook | setStopped | post =>
          simp only [stopStep, Choice.onGo_eq_next, StepResult.next.injEq,
            Prod.mk.injEq] at stepped
          obtain ⟨_, rfl, rfl⟩ := stepped
          constructor
      | waitStopOk evid =>
          simp only [stopStep, Choice.onKernel_eq_next, StepResult.map_eq_next,
            StepResult.ofBlocking_eq_next, Prod.mk.injEq] at stepped
          obtain ⟨_, ⟨k, bits⟩, took, rfl, rfl⟩ | ⟨code, _, rfl, rfl, rfl⟩ := stepped
          · exact .acknowledged took
          · exact .giveUp

/-- The only Kprintf call in _stop is its own message; else it cannot fault. -/
theorem loaderStep_fault {sh : Shared cfg} {threads : Threads} {pc : LoaderPc}
    {choice : Choice cfg} (fault : loaderStep sh threads pc choice = .fault)
    (inside : pc.inSession = true)
    : ∃ during, kprintf sh during = .fault := by
  cases pc with
  | loaded | failed | init => simp [LoaderPc.inSession] at inside
  | resident | stopped =>
      simp only [loaderStep] at fault
      split at fault <;> simp at fault
  | stop pc =>
      cases pc <;> simp [loaderStep, stopStep] at fault
      obtain ⟨during, _, fault⟩ := fault
      exact ⟨during, fault⟩

/-- A session does not end. -/
theorem StopEffect.inSession {sh sh' : Shared cfg} {pc pc' : LoaderPc} {choice : Choice cfg}
    (effect : StopEffect sh pc choice sh' pc')
    : pc'.inSession = true := by
  cases effect with
  | enter =>
      unfold stopEntry
      split <;> rfl
  | _ => rfl

/-- In the session a single run never calls _start. -/
theorem not_start {s : State cfg} {action : Action cfg} (single : SingleSession s action)
    (inside : s.loader.inSession = true)
    : action.isStart = false := by
  by_contra start
  simp [single (by simpa using start), LoaderPc.inSession] at inside

/-- In the session every step stays in the session. -/
theorem inSession_step {s t : State cfg} {action : Action cfg} (single : SingleSession s action)
    (inside : s.loader.inSession = true) (stepped : s.step action = some t)
    : t.loader.inSession = true := by
  cases State.step_cases stepped with
  | loader ran => exact (loaderStep_effect ran inside (not_start single inside)).1.inSession
  | _ => exact inside

/-- Before the session the invariant of the start-up holds; by the invariant rule. -/
theorem starting {s : State cfg} (reach : (machine cfg).Reachable SingleSession s)
    (outside : s.loader.inSession = false)
    : Starting s := by
  refine System.Reachable.invariant
    (P := fun s => s.loader.inSession = false → Starting s) reach ?_ ?_ outside
  · intro _
    refine ⟨⟨by simp [machine, State.loaded, Globals.loaded], rfl, rfl, rfl, rfl, rfl,
      by simp [machine, State.loaded], fun _ => rfl, ?_, ?_, rfl⟩, ?_, fun _ _ => rfl⟩
    · exact fun n call api place => by contradiction
    · simp [machine, State.loaded]
    · exact fun pc l place => by contradiction
  · intro s action t _ earlier single stepped outside
    by_cases inside : s.loader.inSession = true
    · simp [inSession_step single inside stepped] at outside
    · rcases (earlier (by simpa using inside)).step (by simpa using inside) single stepped with
        ⟨_, later⟩ | fresh
      · exact later
      · simp [fresh.loader, LoaderPc.inSession] at outside

/-- The invariant rule of the session: a property of every fresh session that the steps in
the session preserve holds throughout the session.
-/
theorem session_invariant {guard : State cfg → Action cfg → Prop} {P : State cfg → Prop}
    (single : ∀ s a, guard s a → SingleSession s a)
    (fresh : ∀ s, (machine cfg).Reachable guard s → Fresh s → P s)
    (step
      : ∀ s a t, (machine cfg).Reachable guard s → s.loader.inSession = true → P s →
          guard s a → s.step a = some t → P t)
    {s : State cfg} (reach : (machine cfg).Reachable guard s)
    (inside : s.loader.inSession = true)
    : P s := by
  refine System.Reachable.invariant
    (P := fun s => s.loader.inSession = true → P s) reach ?_ ?_ inside
  · intro inside
    contradiction
  · intro s a t reach earlier allowed stepped later
    by_cases inside : s.loader.inSession = true
    · exact step s a t reach inside (earlier inside) allowed stepped
    · have outside : s.loader.inSession = false := by simpa using inside
      have started := (starting (reach.mono single) outside).step outside
        (single s a allowed) stepped
      rcases started with ⟨outside', _⟩ | begins
      · simp [later] at outside'
      · exact fresh t (reach.step allowed stepped) begins

/-- The semaphore a thread is about to wait for. -/
def State.waitsFor (s : State cfg) : ThreadRef → Option Uid
  | .event thid => (s.threads thid).waitsFor
  | .client n => (s.clients n).bind (fun running => running.2.waitsFor)

/-- What holds of the objects and the ids in the whole session. -/
structure Session (s : State cfg) : Prop where
  state : s.sh.g.gState = .started ↔ s.loader.isStarted = true
  vpl : s.sh.k.vpls s.sh.g.gVplid = true
  evflag : (s.sh.k.evflags s.sh.g.gEvid).isSome = true
  sema : (s.sh.k.semas s.sh.g.gSemid).isSome = true
  alive : s.threads s.sh.g.gThid ≠ .absent ∧ s.threads s.sh.g.gThid ≠ .dormant
  others : ∀ thid, thid ≠ s.sh.g.gThid → s.threads thid = .absent
  semid : ∀ thread semid, s.waitsFor thread = some semid → semid = s.sh.g.gSemid
  evid : ∀ thid evid, s.threads thid = .waitFlag evid → evid = s.sh.g.gEvid
  stopEvid : ∀ evid, s.loader = .stop (.waitStopOk evid) → evid = s.sh.g.gEvid

/-- A fresh session has its objects, and no thread has read an id yet. -/
theorem Fresh.session {s : State cfg} (fresh : Fresh s) : Session s where
  state := by simp [fresh.state, fresh.loader, LoaderPc.isStarted]
  vpl := fresh.vpl
  evflag := by simp [fresh.evflag]
  sema := by simp [fresh.sema]
  alive := by rcases fresh.polling with polls | polls <;> simp [polls]
  others := fresh.others
  semid := by
    rintro (thid | n) semid waits
    · by_cases same : thid = s.sh.g.gThid
      · subst same
        rcases fresh.polling with polls | polls <;>
          simp [State.waitsFor, polls, EventPc.waitsFor] at waits
      · simp [State.waitsFor, fresh.others thid same, EventPc.waitsFor] at waits
    · simp only [State.waitsFor, Option.bind_eq_some_iff] at waits
      obtain ⟨⟨call, api⟩, engaged, waits⟩ := waits
      have place := fresh.clients n call api engaged
      split at place
      · subst place
        simp [ApiPc.waitsFor] at waits
      · simp [(ApiPc.free_iff.mp place).1] at waits
  evid := by
    intro thid evid waits
    by_cases same : thid = s.sh.g.gThid
    · subst same
      rcases fresh.polling with polls | polls <;> simp [polls] at waits
    · simp [fresh.others thid same] at waits
  stopEvid := by simp [fresh.loader]

/-- What a step within the frame keeps of the objects, for any new place of the threads. -/
theorem Session.of_frame {s : State cfg} {sh' : Shared cfg} (session : Session s)
    (frame : s.sh.Frame sh')
    : Session { s with sh := sh' } := by
  obtain ⟨gState, gVplid, gEvid, gSemid, gThid, vpls, evflags, semas⟩ := frame
  exact
    { state := by simpa only [gState] using session.state
      vpl := by simpa only [gVplid, vpls] using session.vpl
      evflag := by simpa only [gEvid, evflags] using session.evflag
      sema := by simpa only [gSemid, semas] using session.sema
      alive := by simpa only [gThid] using session.alive
      others := by simpa only [gThid] using session.others
      semid := fun thread semid waits => by
        simpa only [gSemid] using session.semid thread semid (by cases thread <;> exact waits)
      evid := by simpa only [gEvid] using session.evid
      stopEvid := by simpa only [gEvid] using session.stopEvid }

/-- Where a step of the event thread can lead: no new place is a thread that does not run,
and an id it is about to use has just been read or was there before.
-/
theorem EventEffect.places {thid : Uid} {sh sh' : Shared cfg} {pc pc' : EventPc}
    (effect : EventEffect thid sh pc sh' pc')
    : (pc'.waitsFor = none ∨ pc'.waitsFor = some sh.g.gSemid)
      ∧ (∀ evid, pc' = .waitFlag evid → evid = sh.g.gEvid) := by
  have entry (call : ApiCall) :
      (apiEntry sh call).waitsFor = none ∨ (apiEntry sh call).waitsFor = some sh.g.gSemid := by
    rcases apiEntry_cases sh call with free | ⟨_, waits⟩
    · exact Or.inl (ApiPc.free_iff.mp free).1
    · exact Or.inr waits
  cases effect with
  | move move =>
      cases move with
      | starts =>
          rcases afterPoll_cases cfg with same | same <;> rw [same] <;> simp [EventPc.waitsFor]
      | waits | flushes => simp [EventPc.waitsFor]
      | _ => exact ⟨Or.inl rfl, by simp⟩
  | callRegister => exact ⟨entry _, by simp⟩
  | register stepped =>
      obtain ⟨ret, rfl, rfl, rfl⟩ | ⟨pc', ran, rfl⟩ := apiCallStep_cases stepped
      · exact ⟨Or.inl rfl, by simp⟩
      · exact ⟨Or.inl (apiStep_effect ran).waitsFor, by simp⟩
  | @flush ev pc sh' pc' choice stepped =>
      have elsewhere (outside : ∀ next, pc' = some next → next.nested = none) :
          (pc'.elim (EventPc.signal ev) (EventPc.flush ev)).waitsFor = none := by
        cases pc' with
        | none => rfl
        | some next => simp [EventPc.waitsFor, outside next rfl]
      have noFlag (evid : Uid) : pc'.elim (.signal ev) (.flush ev) ≠ EventPc.waitFlag evid := by
        cases pc' <;> simp
      refine ⟨?_, fun evid same => absurd same (noFlag evid)⟩
      cases flushStep_effect stepped with
      | callbackCalls => exact entry _
      | nested called =>
          obtain ⟨ret, rfl, rfl, rfl⟩ | ⟨pc', ran, rfl⟩ := apiCallStep_cases called
          · exact Or.inl rfl
          · exact Or.inl (apiStep_effect ran).waitsFor
      | callbackReturns => exact Or.inl (by simp only [Option.elim]; split <;> rfl)
      | remove => exact Or.inl rfl
      | read _ outside => exact Or.inl (elsewhere outside)
      | observe _ _ outside => exact Or.inl (elsewhere outside)
  | wake | acquire | release | resend | stopOk => exact ⟨Or.inl rfl, by simp⟩

/-- Nor does a step lead to a thread that does not run. -/
theorem EventEffect.alive {thid : Uid} {sh sh' : Shared cfg} {pc pc' : EventPc}
    (effect : EventEffect thid sh pc sh' pc')
    : pc' ≠ .absent ∧ pc' ≠ .dormant := by
  cases effect with
  | move move => constructor <;> rintro rfl <;> exact absurd move.free.2 (by simp [EventPc.free])
  | @register api sh' api' choice stepped => cases api' <;> simp
  | @flush ev pc sh' pc' choice stepped => cases pc' <;> simp
  | callRegister | wake | acquire | release | resend | stopOk => simp

/-- The place a step of a client can lead to waits, if at all, for `g_semid`. -/
theorem ClientEffect.places {n : Nat} {sh sh' : Shared cfg} {pc pc' : ClientPc}
    (effect : ClientEffect n sh pc sh' pc')
    : ∀ semid, pc'.bind (fun running => running.2.waitsFor) = some semid → semid = sh.g.gSemid := by
  intro semid waits
  cases effect with
  | @enter call =>
      rcases apiEntry_cases sh call with free | ⟨_, entered⟩
      · simp [(ApiPc.free_iff.mp free).1] at waits
      · simpa [entered] using waits.symm
  | leave => contradiction
  | run stepped => simp [(apiStep_effect stepped).waitsFor] at waits

/-- In the session only the thread `g_thid` runs the event thread's code. -/
theorem Session.runs {s : State cfg} {thid : Uid} {choice : Choice cfg}
    {next : Shared cfg × EventPc} (session : Session s)
    (stepped : eventStep thid s.sh (s.threads thid) choice = .next next)
    : thid = s.sh.g.gThid := by
  by_contra other
  rw [session.others thid other] at stepped
  contradiction

/-- _stop does not replace the event thread. -/
theorem StopEffect.frame_gThid {sh sh' : Shared cfg} {pc pc' : LoaderPc} {choice : Choice cfg}
    (effect : StopEffect sh pc choice sh' pc')
    : sh'.g.gThid = sh.g.gThid := by
  cases effect with
  | announce printed =>
      rcases printed with rfl | ⟨during, printed⟩
      · rfl
      · exact (kprintf_frame printed).gThid
  | enter | unhook | setStopped | post | acknowledged | giveUp => rfl

/-- The session keeps its objects and ids, by cases of the effect of each thread. -/
theorem Session.step {s t : State cfg} {action : Action cfg} (session : Session s)
    (inside : s.loader.inSession = true) (single : SingleSession s action)
    (stepped : s.step action = some t)
    : Session t := by
  cases State.step_cases stepped with
  | crash => exact { session with }
  | kprintf printed => exact session.of_frame (kprintf_frame printed)
  | @event thid choice sh' pc' ran =>
      have effect := eventStep_effect ran
      have framed := session.of_frame effect.frame
      obtain rfl := session.runs ran
      have gThid := effect.frame.gThid
      have evid := effect.frame.gEvid
      refine { framed with alive := ?_, others := ?_, semid := ?_, evid := ?_ }
      · simpa [gThid] using effect.alive
      · intro other different
        simp only [gThid] at different
        simpa [Function.update_of_ne different] using session.others other different
      · rintro (other | n) semid waits
        · by_cases same : other = s.sh.g.gThid
          · subst same
            simp only [State.waitsFor, Function.update_self] at waits
            have read := effect.places.1
            rw [waits] at read
            rw [effect.frame.gSemid]
            simpa using read
          · simp only [State.waitsFor, Function.update_of_ne same] at waits
            exact framed.semid (.event other) semid waits
        · exact framed.semid (.client n) semid waits
      · intro other evid waits
        by_cases same : other = s.sh.g.gThid
        · subst same
          simp only [Function.update_self] at waits
          rw [effect.frame.gEvid]
          exact effect.places.2 evid waits
        · simp only [Function.update_of_ne same] at waits
          exact framed.evid other evid waits
  | @client n choice sh' pc' ran =>
      have effect := clientStep_effect ran
      have framed := session.of_frame effect.frame
      refine { framed with semid := ?_ }
      rintro (thid | other) semid waits
      · exact framed.semid (.event thid) semid waits
      · by_cases same : other = n
        · subst same
          simp only [State.waitsFor, Function.update_self] at waits
          exact (effect.places semid waits).trans effect.frame.gSemid.symm
        · simp only [State.waitsFor, Function.update_of_ne same] at waits
          exact framed.semid (.client other) semid waits
  | @loader choice sh' threads' loader' ran =>
      obtain ⟨effect, rfl⟩ := loaderStep_effect ran inside (not_start single inside)
      have state := session.state
      generalize place : s.loader = pc at effect
      cases effect with
      | enter outside =>
          have frame : Session { s with loader := stopEntry s.sh } :=
            { session with
              state := by
                unfold stopEntry
                split <;> simp_all [LoaderPc.isStarted]
              stopEvid := by
                unfold stopEntry
                split <;> simp }
          exact frame
      | announce printed =>
          have frame : s.sh.Frame sh' := by
            rcases printed with rfl | ⟨during, printed⟩
            · exact .refl _
            · exact kprintf_frame printed
          have framed := session.of_frame frame
          refine { framed with state := ?_, stopEvid := by simp }
          simpa [frame.gState, place, LoaderPc.isStarted] using state
      | unhook =>
          have framed := session.of_frame
            (.of_same rfl rfl : s.sh.Frame
              ({ s.sh with k := { s.sh.k with hook := .none } }.note .stopUnhooks))
          refine { framed with state := ?_, stopEvid := by simp }
          simpa [Shared.note, place, LoaderPc.isStarted] using state
      | setStopped =>
          refine { session with state := ?_, stopEvid := by simp }
          simp [LoaderPc.isStarted]
      | post =>
          have frame := Shared.frame_setEventFlag s.sh (evFlush ||| evTerminate)
          have framed := session.of_frame frame
          refine { framed with state := ?_, stopEvid := ?_ }
          · simpa [frame.gState, place, LoaderPc.isStarted] using state
          · rintro _ ⟨⟩
            exact frame.gEvid.symm
      | acknowledged took =>
          have framed := session.of_frame (Shared.frame_takeEventFlag took)
          refine { framed with state := ?_, stopEvid := by simp }
          simpa [place, LoaderPc.isStarted] using state
      | giveUp =>
          refine { session with state := ?_, stopEvid := by simp }
          simpa [place, LoaderPc.isStarted] using state
  | overRegister => exact session.of_frame (.of_same rfl rfl)

/-- The objects and ids of the session hold in every state of it. -/
theorem session {s : State cfg} (reach : (machine cfg).Reachable SingleSession s)
    (inside : s.loader.inSession = true)
    : Session s :=
  session_invariant (fun _ _ single => single) (fun _ _ fresh => fresh.session)
    (fun _ _ _ _ inside session single stepped => session.step inside single stepped)
    reach inside

/-- A run that starts the module as shipped, with pool 10, event flag 11, semaphore 12 and
event thread 13.
-/
def startRun : List (Action .shipped) :=
  [.loader .start, .loader (.answer 1), .loader .go]
    ++ [10, 11, 12, 13].map (fun id => .loader (.answer id))
    ++ List.replicate 12 (.loader .go)

/-- The plain steps of the event thread of that run. -/
def eventRun (steps : Nat) : List (Action .shipped) :=
  List.replicate steps (.event 13 .go)

/-- The event thread registers the default handler, finds PSPLINK and waits for a flag. -/
def loopRun : List (Action .shipped) :=
  startRun ++ eventRun 13 ++ [.event 13 (.found true)] ++ eventRun 2

/-- Kprintf is called with a text of three letters, for which the pool answers a block. -/
def kprintfRun (block : Addr) : List (Action .shipped) :=
  [.kprintf ⟨0, 3, Vector.replicate 256 65, .ok block⟩]

/-- _stop is called, and runs up to its wait for EV_STOP_OK. -/
def stopRun : List (Action .shipped) :=
  [.loader .stop] ++ List.replicate 4 (.loader .go)

end LibKprintf
