import LibKprintf.Handlers.Reentry
import LibKprintf.Stop.Drain

/-! Delivery stays possible. In a started module whose callbacks do not re-enter it, the threads
that are inside the library can run on by plain steps until everything accepted has been passed to
the handlers: the holder of the semaphore gives it back, the event thread gets through its start-up
and to its wait, EV_FLUSH wakes it up, and its pass empties the queue.
-/

namespace LibKprintf

open Foundation

variable {cfg : Config}

-----------------------------------------------------------------------------------------
-- Plain steps accept nothing
-----------------------------------------------------------------------------------------

section Plain

variable {thread : ThreadRef} {thid : Uid} {n : Nat} {sh sh' : Shared cfg} {choice : Choice cfg}

/-- The Kprintf call of a plain announcement does not reach the handler of the library. -/
theorem apiStep_plain_announce {pc' : ApiPc} (plain : choice.plain = true)
    (stepped : apiStep thread sh .announce choice = .next (sh', pc'))
    : sh' = sh := by
  simp only [apiStep, StepResult.map_eq_next, Choice.onKprintf_eq_next, Prod.mk.injEq] at stepped
  obtain ⟨_, ⟨rfl, rfl⟩ | ⟨_, rfl, _⟩, rfl, rfl⟩ := stepped
  · rfl
  · contradiction

/-- A plain step of an API function accepts nothing. -/
theorem apiStep_plain {pc pc' : ApiPc} (plain : choice.plain = true)
    (stepped : apiStep thread sh pc choice = .next (sh', pc'))
    : accepted sh'.history = accepted sh.history := by
  cases apiStep_effect stepped with
  | announce => rw [apiStep_plain_announce plain stepped]
  | work _ _ ofTable =>
      refine (messages_append sh.history fun event member => ?_).1
      have table := ofTable event member
      cases event <;> first | rfl | contradiction
  | acquire | refuse | release | dipsw | hook => rfl

/-- Neither does one of a running API call. -/
theorem apiCallStep_plain {call : ApiCall} {api : ApiPc} {api' : Option ApiPc}
    (plain : choice.plain = true)
    (stepped : apiCallStep thread call sh api choice = .next (sh', api'))
    : accepted sh'.history = accepted sh.history := by
  obtain ⟨ret, rfl, rfl, rfl⟩ | ⟨pc', ran, rfl⟩ := apiCallStep_cases stepped
  · exact (messages_append sh.history (by simp [Event.ofQueue])).1
  · exact apiStep_plain plain ran

/-- Events without an acceptance accept nothing. -/
theorem accepted_append {history events : List Event}
    (quiet : ∀ event ∈ events, ∀ stamp body, event ≠ .accepted stamp body)
    : accepted (history ++ events) = accepted history := by
  simp only [accepted, List.filterMap_append, List.append_right_eq_self,
    List.filterMap_eq_nil_iff]
  intro event member
  cases event with
  | accepted stamp body => exact absurd rfl (quiet _ member stamp body)
  | _ => rfl

/-- Neither does one of flush_messages. -/
theorem flushStep_plain {pc : FlushPc} {pc' : Option FlushPc} (plain : choice.plain = true)
    (stepped : flushStep thid sh pc choice = .next (sh', pc'))
    : accepted sh'.history = accepted sh.history := by
  cases flushStep_effect stepped with
  | read => rfl
  | @observe _ _ event ofDelivery =>
      refine accepted_append fun noted member stamp body same => ?_
      obtain rfl := List.mem_singleton.mp member
      subst same
      contradiction
  | callbackReturns | callbackCalls => exact accepted_append (by simp)
  | nested =>
      simp only [flushStep, StepResult.map_eq_next, Prod.exists, Prod.mk.injEq] at stepped
      obtain ⟨_, _, ran, rfl, _⟩ := stepped
      exact apiCallStep_plain plain ran
  | remove freed =>
      refine accepted_append fun noted member stamp body same => ?_
      obtain ⟨_, told⟩ := freed noted member
      simp [same] at told

/-- Neither does one of the event thread. -/
theorem eventStep_plain {pc pc' : EventPc} (plain : choice.plain = true)
    (stepped : eventStep thid sh pc choice = .next (sh', pc'))
    : accepted sh'.history = accepted sh.history := by
  cases eventStep_effect stepped with
  | register =>
      simp only [eventStep, StepResult.map_eq_next] at stepped
      obtain ⟨⟨next, api'⟩, ran, same⟩ := stepped
      obtain rfl : next = sh' := by cases api' <;> exact congrArg Prod.fst same
      exact apiCallStep_plain plain ran
  | flush =>
      simp only [eventStep, StepResult.map_eq_next] at stepped
      obtain ⟨⟨next, place⟩, ran, same⟩ := stepped
      obtain rfl : next = sh' := by cases place <;> exact congrArg Prod.fst same
      exact flushStep_plain plain ran
  | callRegister | stopOk => exact accepted_append (by simp)
  | move | wake | acquire | release | resend => rfl

/-- Neither does one of a client. -/
theorem clientStep_plain {pc pc' : ClientPc} (plain : choice.plain = true)
    (stepped : clientStep n sh pc choice = .next (sh', pc'))
    : accepted sh'.history = accepted sh.history := by
  cases pc with
  | none => cases choice <;> contradiction
  | some running =>
      obtain ⟨call, api⟩ := running
      simp only [clientStep, StepResult.map_eq_next, Prod.exists, Prod.mk.injEq] at stepped
      obtain ⟨_, api', ran, rfl, rfl⟩ := stepped
      exact apiCallStep_plain plain ran

/-- A thread's own plain step accepts nothing, and stores neither `g_state` nor `g_semid`. -/
theorem OwnStep.keeps {s t : State cfg} {action : Action cfg} (own : OwnStep thread s action)
    (stepped : s.step action = some t)
    : t.sh.g.gState = s.sh.g.gState ∧ t.sh.g.gSemid = s.sh.g.gSemid
      ∧ accepted t.sh.history = accepted s.sh.history := by
  cases State.step_cases stepped with
  | crash => exact ⟨rfl, rfl, rfl⟩
  | event ran =>
      have frame := (eventStep_effect ran).frame
      exact ⟨frame.gState, frame.gSemid, eventStep_plain own.2 ran⟩
  | client ran =>
      have frame := (clientStep_effect ran).frame
      exact ⟨frame.gState, frame.gSemid, clientStep_plain own.2 ran⟩
  | kprintf | loader | overRegister => exact own.elim

end Plain

-----------------------------------------------------------------------------------------
-- The event thread of a started module does not end
-----------------------------------------------------------------------------------------

/-- EV_TERMINATE is posted, and taken by the event thread, only after the module has been stopped.
-/
structure EndsStopped (sh : Shared cfg) (pc : EventPc) : Prop where
  posted : sh.flagged evTerminate → sh.g.gState ≠ .started
  taken : pc.Terminates → sh.g.gState ≠ .started

section EndsStopped

variable {sh sh' : Shared cfg} {pc pc' : EventPc}

/-- What leaves the module state alone and posts no EV_TERMINATE keeps the invariant. -/
theorem EndsStopped.of_same (ends : EndsStopped sh pc) (gState : sh'.g.gState = sh.g.gState)
    (terminate : sh'.flagged evTerminate → sh.flagged evTerminate)
    : EndsStopped sh' pc where
  posted := fun set => gState ▸ ends.posted (terminate set)
  taken := fun terminates => gState ▸ ends.taken terminates

/-- A Kprintf call sets EV_FLUSH only. -/
theorem EndsStopped.kprintf {during} (ends : EndsStopped sh pc)
    (flag : (sh.k.evflags sh.g.gEvid).isSome = true)
    (printed : kprintf sh during = .next sh')
    : EndsStopped sh' pc :=
  ends.of_same (kprintf_frame printed).gState
    ((kprintf_flag printed flag).2 evTerminate (by decide)).mp

/-- The event thread sets no EV_TERMINATE, and takes the one that was posted. -/
theorem EndsStopped.event {thid : Uid} (ends : EndsStopped sh pc)
    (flag : (sh.k.evflags sh.g.gEvid).isSome = true)
    (captured : ∀ evid, pc = .waitFlag evid → evid = sh.g.gEvid)
    (effect : EventEffect thid sh pc sh' pc')
    : EndsStopped sh' pc' := by
  have gState := effect.frame.gState
  refine ⟨fun set => ?_, fun terminates => ?_⟩
  · rw [gState]
    cases effect.flags captured with
    | stays same =>
        simp only [Shared.flagged, same] at set
        exact ends.posted set
    | prints printed =>
        exact ends.posted (((kprintf_flag printed flag).2 evTerminate (by decide)).mp set)
    | wakes _ now =>
        have cleared : ~~~(evFlush ||| evTerminate) &&& evTerminate = 0 := by decide
        simp [Shared.flagged, now, BitVec.and_assoc, cleared] at set
    | resends same | stopOk same =>
        refine ends.posted (((flagged_of_set flag same).mp set).resolve_right ?_)
        decide
  · rw [gState]
    rcases effect.terminates terminates with before | ⟨evid, ev, rfl, rfl, k, took⟩
    · exact ends.taken before
    · have before := (takeEventFlag_flag took (captured _ rfl)).1
      refine ends.posted ?_
      rw [Shared.flagged, before]
      exact terminates

/-- No client sets EV_TERMINATE. -/
theorem EndsStopped.client {n : Nat} {place place' : ClientPc} (ends : EndsStopped sh pc)
    (flag : (sh.k.evflags sh.g.gEvid).isSome = true)
    (effect : ClientEffect n sh place sh' place')
    : EndsStopped sh' pc := by
  rcases effect.flags with kept | ⟨during, printed⟩
  · exact ends.of_same effect.frame.gState (by simp only [Shared.flagged, kept, imp_self])
  · exact ends.kprintf flag printed

/-- _stop posts EV_TERMINATE after it has stored `STATE_STOPPED`. -/
theorem EndsStopped.stop {place place' : LoaderPc} {choice : Choice cfg}
    (ends : EndsStopped sh pc) (flag : (sh.k.evflags sh.g.gEvid).isSome = true)
    (captured : ∀ evid, place = .stop (.waitStopOk evid) → evid = sh.g.gEvid)
    (state : sh.g.gState = .started ↔ place.isStarted = true)
    (effect : StopEffect sh place choice sh' place')
    : EndsStopped sh' pc := by
  cases effect with
  | enter | giveUp => exact ends
  | announce printed =>
      rcases printed with rfl | ⟨during, printed⟩
      · exact ends
      · exact ends.kprintf flag printed
  | unhook => exact ends.of_same rfl id
  | setStopped => exact ⟨fun _ => by simp, fun _ => by simp⟩
  | post =>
      have stopped : sh.g.gState ≠ .started := by simp [state, LoaderPc.isStarted]
      exact ⟨fun _ => stopped, fun _ => stopped⟩
  | acknowledged took =>
      exact ends.of_same rfl
        (takeEventFlag_flagged evTerminate took (captured _ rfl) (by decide)).mp

/-- Every step in the session keeps the invariant. -/
theorem EndsStopped.step {s t : State cfg} {action : Action cfg}
    (ends : EndsStopped s.sh (s.threads s.sh.g.gThid)) (session : Session s)
    (inside : s.loader.inSession = true) (single : SingleSession s action)
    (stepped : s.step action = some t)
    : EndsStopped t.sh (t.threads t.sh.g.gThid) := by
  cases State.step_cases stepped with
  | crash => exact ends
  | kprintf printed =>
      have gThid := (kprintf_frame printed).gThid
      simpa only [gThid] using ends.kprintf session.evflag printed
  | event ran =>
      obtain rfl := session.runs ran
      have effect := eventStep_effect ran
      simpa only [effect.frame.gThid, Function.update_self] using
        ends.event session.evflag (session.evid _) effect
  | client ran =>
      have effect := clientStep_effect ran
      simpa only [effect.frame.gThid] using ends.client session.evflag effect
  | loader ran =>
      obtain ⟨effect, rfl⟩ := loaderStep_effect ran inside (not_start single inside)
      simpa only [effect.frame_gThid] using
        ends.stop session.evflag session.stopEvid session.state effect
  | overRegister => exact ends.of_same rfl id

/-- So it holds in every state of the session. -/
theorem ends_stopped {s : State cfg} (reach : (machine cfg).Reachable SingleSession s)
    (inside : s.loader.inSession = true)
    : EndsStopped s.sh (s.threads s.sh.g.gThid) := by
  refine session_invariant (P := fun s => EndsStopped s.sh (s.threads s.sh.g.gThid))
    (fun _ _ single => single) ?_ ?_ reach inside
  · intro s _ fresh
    refine ⟨by simp [Shared.flagged, Shared.flag, fresh.evflag], fun terminates => ?_⟩
    rcases fresh.polling with polls | polls <;> rw [polls] at terminates <;>
      exact terminates.elim
  · exact fun _ _ _ reach inside ends single stepped =>
      ends.step (session reach inside) inside single stepped

/-- The event thread of a started module has not been told to end. -/
theorem not_terminating {s : State cfg} (reach : (machine cfg).Reachable SingleSession s)
    (inside : s.loader.inSession = true) (started : s.sh.g.gState = .started)
    : ¬ (s.threads s.sh.g.gThid).Terminates :=
  fun terminates => (ends_stopped reach inside).taken terminates started

end EndsStopped

-----------------------------------------------------------------------------------------
-- The event thread on its own
-----------------------------------------------------------------------------------------

/-- The plain steps of the threads that are inside the library. -/
def OwnSteps (s : State cfg) (action : Action cfg) : Prop := ∃ thread, OwnStep thread s action

/-- A started module that has accepted these messages, in which no client is between its semaphore
calls.
-/
structure Running (messages : List (Nat × MsgBody)) (s : State cfg) : Prop where
  reach : (machine cfg).Reachable NoReentry s
  started : s.sh.g.gState = .started
  accepted : accepted s.sh.history = messages
  clients : ∀ n, s.locked (.client n) = false

/-- Whether the event thread has not entered its registration yet. -/
def EventPc.settingOut : EventPc → Bool
  | .poll | .pollDelay | .callRegister => true
  | _ => false

/-- The event thread gets to its registration from its start-up loop only. -/
theorem EventEffect.settingOut {thid : Uid} {sh sh' : Shared cfg} {pc pc' : EventPc}
    (effect : EventEffect thid sh pc sh' pc') (later : pc'.settingOut = true)
    : pc.settingOut = true := by
  cases effect with
  | move move =>
      cases move with
      | sleeps | polls | starts => rfl
      | _ => contradiction
  | callRegister => rfl
  | @register api sh' api' choice => cases api' <;> contradiction
  | @flush ev pc sh' pc' choice => cases pc' <;> contradiction
  | wake | acquire | release | resend | stopOk => contradiction

/-- How many steps the event thread has left, at most, to its wait for the event flag. -/
def EventPc.wakeRank (slots queued : Nat) : EventPc → Nat
  | .pollDelay => queued * messageRank slots + slots + 27
  | .poll => queued * messageRank slots + slots + 26
  | .callRegister => queued * messageRank slots + slots + 25
  | pc => pc.rank slots queued

/-- Past its start-up the event thread has as many steps left as to its end. -/
theorem EventPc.wakeRank_eq {pc : EventPc} (past : pc.settingOut = false) (slots queued : Nat)
    : pc.wakeRank slots queued = pc.rank slots queued := by
  cases pc <;> first | rfl | contradiction

section Running

variable {messages : List (Nat × MsgBody)} {s t : State cfg} {action : Action cfg}

/-- A started module is in its session. -/
theorem inSession_of_started (reach : (machine cfg).Reachable SingleSession s)
    (started : s.sh.g.gState = .started)
    : s.loader.inSession = true := by
  by_contra outside
  exact (starting reach (by simpa using outside)).before.state started

/-- So it has what every state of a single session has. -/
theorem Running.single (running : Running messages s)
    : (machine cfg).Reachable SingleSession s ∧ s.loader.inSession = true :=
  have reach := running.reach.mono (fun _ _ reentry => reentry.1)
  ⟨reach, inSession_of_started reach running.started⟩

/-- The event thread's own plain steps keep it running. -/
theorem Running.step {thid : Uid} (running : Running messages s)
    (own : OwnStep (.event thid) s action) (stepped : s.step action = some t)
    : Running messages t := by
  obtain ⟨reach, started, accepted, clients⟩ := running
  obtain ⟨gState, _, same⟩ := own.keeps stepped
  refine ⟨reach.step own.noReentry stepped, gState.trans started, same.trans accepted, fun n => ?_⟩
  cases State.step_cases stepped with
  | crash => exact clients n
  | event =>
      rw [locked_event, Function.update_of_ne (by simp)]
      exact clients n
  | client => exact absurd own.1 (by simp)
  | kprintf | loader | overRegister => exact own.elim

/-- While no client is between its semaphore calls, the event thread finds the semaphore free,
because nobody else can hold it.
-/
theorem semaphore_open (single : (machine cfg).Reachable SingleSession s)
    (inside : s.loader.inSession = true) (clients : ∀ n, s.locked (.client n) = false)
    (outside : (s.threads s.sh.g.gThid).locked = false) {semid : Uid}
    (waits : (s.threads s.sh.g.gThid).waitsFor = some semid)
    : ∃ k, s.sh.k.takeSema semid (.event s.sh.g.gThid) = some k := by
  have session := session single inside
  obtain ⟨holder, sema, guarded⟩ := (exclusion single inside).owned
  obtain rfl := session.semid (.event s.sh.g.gThid) semid waits
  cases holder with
  | none => simp [Kernel.takeSema, sema, Sema.binary]
  | some thread =>
      have held := (guarded thread).mpr rfl
      cases thread with
      | event thid =>
          by_cases self : thid = s.sh.g.gThid
          · subst self
            simp [State.locked, outside] at held
          · simp [State.locked, session.others thid self, EventPc.locked] at held
      | client n => simp [clients n] at held

/-- Past its start-up, nothing but its wait for the event flag blocks the event thread. -/
theorem Running.unblocked (running : Running messages s)
    (past : (s.threads s.sh.g.gThid).settingOut = false)
    (awake : ∀ evid, s.threads s.sh.g.gThid ≠ .waitFlag evid)
    : (s.threads s.sh.g.gThid).Unblocked s.sh.g.gThid s.sh := by
  obtain ⟨single, inside⟩ := running.single
  have session := session single inside
  have lasting := not_terminating single inside running.started
  cases place : s.threads s.sh.g.gThid with
  | absent => exact absurd place session.alive.1
  | dormant => exact absurd place session.alive.2
  | poll | pollDelay | callRegister => simp [place, EventPc.settingOut] at past
  | exited =>
      rw [place] at lasting
      exact absurd trivial lasting
  | waitFlag evid => exact absurd place (awake evid)
  | register api =>
      intro semid waits
      refine semaphore_open single inside running.clients ?_ ?_
      · simpa [place, EventPc.locked] using ApiPc.not_locked_of_waitsFor waits
      · simpa [place, EventPc.waitsFor] using waits
  | waitSema ev semid =>
      exact semaphore_open single inside running.clients (by simp [place, EventPc.locked])
        (by simp [place, EventPc.waitsFor])
  | flush ev pc =>
      intro call api nested
      exact callbacks_run running.reach inside s.sh.g.gThid call api
        (by simp [place, EventPc.nested, nested])
  | _ => exact trivial

/-- So it takes a plain step that brings it nearer its end. -/
theorem Running.progress (running : Running messages s)
    (past : (s.threads s.sh.g.gThid).settingOut = false)
    (awake : ∀ evid, s.threads s.sh.g.gThid ≠ .waitFlag evid)
    : ∃ choice sh' pc', choice.plain = true
        ∧ eventStep s.sh.g.gThid s.sh (s.threads s.sh.g.gThid) choice = .next (sh', pc')
        ∧ eventRank sh' pc' < eventRank s.sh (s.threads s.sh.g.gThid) := by
  obtain ⟨single, inside⟩ := running.single
  obtain ⟨_, ready, nodes, delivery⟩ := delivering single inside
  obtain ⟨choice, plain, sh', pc', ran, lower⟩ := eventStep_progress s.sh.g.gThid delivery
    (session single inside).vpl (ready _) (running.unblocked past awake)
  exact ⟨choice, sh', pc', plain, ran, lower⟩

/-- A plain step of the event thread, as a step of the module. -/
theorem Running.moves (running : Running messages s) {choice : Choice cfg} {sh' : Shared cfg}
    {pc' : EventPc} (plain : choice.plain = true)
    (ran
      : eventStep s.sh.g.gThid s.sh (s.threads s.sh.g.gThid) choice = .next (sh', pc'))
    : ∃ action t, OwnStep (.event s.sh.g.gThid) s action ∧ (machine cfg).step s action = some t
        ∧ Running messages t ∧ t.sh = sh' ∧ t.threads t.sh.g.gThid = pc' := by
  obtain ⟨single, inside⟩ := running.single
  have own : OwnStep (.event s.sh.g.gThid) s (.event s.sh.g.gThid choice) := ⟨rfl, plain⟩
  have stepped := State.step_event (delivering single inside).running ran
  refine ⟨_, _, own, stepped, running.step own stepped, rfl, ?_⟩
  simp only [(eventStep_effect ran).frame.gThid, Function.update_self]

-----------------------------------------------------------------------------------------
-- To the wake-up, and through the pass
-----------------------------------------------------------------------------------------

/-- A step of the start-up, while the module is started, or a step of the main loop outside a pass
that will reach the end of the queue: it brings the event thread nearer its wait.
-/
theorem Running.nears_wait (running : Running messages s)
    (awake : ∀ evid, s.threads s.sh.g.gThid ≠ .waitFlag evid)
    : ∃ action t, OwnStep (.event s.sh.g.gThid) s action ∧ (machine cfg).step s action = some t
        ∧ Running messages t
        ∧ (t.threads t.sh.g.gThid).wakeRank cfg.kprintfMaxHandlers t.sh.k.mem.live.card
          < (s.threads s.sh.g.gThid).wakeRank cfg.kprintfMaxHandlers s.sh.k.mem.live.card := by
  have started := running.started
  -- The steps before the registration are taken one by one.
  have sets_out {sh' : Shared cfg} {pc' : EventPc}
      (ran : eventStep s.sh.g.gThid s.sh (s.threads s.sh.g.gThid) .go = .next (sh', pc'))
      (lower : pc'.wakeRank cfg.kprintfMaxHandlers sh'.k.mem.live.card
        < (s.threads s.sh.g.gThid).wakeRank cfg.kprintfMaxHandlers s.sh.k.mem.live.card) :
      ∃ action t, OwnStep (.event s.sh.g.gThid) s action ∧ (machine cfg).step s action = some t
        ∧ Running messages t
        ∧ (t.threads t.sh.g.gThid).wakeRank cfg.kprintfMaxHandlers t.sh.k.mem.live.card
          < (s.threads s.sh.g.gThid).wakeRank cfg.kprintfMaxHandlers s.sh.k.mem.live.card := by
    obtain ⟨action, t, own, stepped, running', rfl, rfl⟩ := running.moves rfl ran
    exact ⟨action, t, own, stepped, running', lower⟩
  cases past : (s.threads s.sh.g.gThid).settingOut with
  | false =>
      obtain ⟨choice, sh', pc', plain, ran, lower⟩ := running.progress past awake
      have past' : pc'.settingOut = false := by
        by_contra later
        have before := (eventStep_effect ran).settingOut (by simpa using later)
        simp [past] at before
      obtain ⟨action, t, own, stepped, running', rfl, rfl⟩ := running.moves plain ran
      refine ⟨action, t, own, stepped, running', ?_⟩
      rw [EventPc.wakeRank_eq past, EventPc.wakeRank_eq past']
      exact lower
  | true =>
      cases place : s.threads s.sh.g.gThid with
      | pollDelay =>
          rw [place] at sets_out
          exact sets_out rfl (by simp [EventPc.wakeRank])
      | poll =>
          rw [place] at sets_out
          have ran : eventStep s.sh.g.gThid s.sh .poll .go = .next (s.sh, afterPoll cfg) := by
            simp [eventStep, started]
          refine sets_out ran ?_
          rcases afterPoll_cases cfg with same | same <;> rw [same] <;>
            simp only [EventPc.wakeRank, EventPc.rank] <;> omega
      | callRegister =>
          rw [place] at sets_out
          refine sets_out rfl ?_
          simp only [apiEntry, registerEntry, started, EventPc.wakeRank, EventPc.rank, ApiPc.rank,
            ne_eq, not_true_eq_false, if_false, Shared.note_k]
          omega
      | _ => simp [place, EventPc.settingOut] at past

/-- Where the event thread waits while messages are queued, it is woken up with EV_FLUSH. -/
theorem Running.wakes (running : Running messages s) {evid : Uid}
    (waiting : s.threads s.sh.g.gThid = .waitFlag evid) (queued : s.sh.g.gHead ≠ 0)
    : ∃ action t ev, OwnStep (.event s.sh.g.gThid) s action
        ∧ (machine cfg).step s action = some t ∧ Running messages t
        ∧ t.threads t.sh.g.gThid = .testFlush ev ∧ ev &&& evFlush ≠ 0 := by
  obtain ⟨bits, flag, set⟩ := no_lost_wake_up running.single.1 waiting queued
  have awake : bits &&& (evFlush ||| evTerminate) ≠ 0 := by
    rw [BitVec.and_or_distrib_left]
    simp only [ne_eq, BitVec.ofNat_eq_ofNat, BitVec.or_eq_zero_iff, not_and]
    exact fun unset => absurd unset set
  obtain ⟨k, took⟩ : ∃ k, s.sh.k.takeEventFlag evid (evFlush ||| evTerminate)
      = some (k, bits) := by
    simp only [Kernel.takeEventFlag, flag, if_neg awake, Option.some.injEq, Prod.mk.injEq,
      and_true, exists_eq']
  have ran : eventStep s.sh.g.gThid s.sh (s.threads s.sh.g.gThid) .go
      = .next ({ s.sh with k := k }, .testFlush bits) := by
    simp [waiting, eventStep, took]
  obtain ⟨action, t, own, stepped, running', _, place⟩ := running.moves rfl ran
  exact ⟨action, t, bits, own, stepped, running', place, set⟩

/-- While messages are queued, the event thread gets to a pass that will reach the end of the queue:
where it waits it finds EV_FLUSH set.
-/
theorem Running.covers (running : Running messages s)
    : ∃ t, (machine cfg).Path OwnSteps s t ∧ Running messages t
        ∧ Covered t.sh (t.threads t.sh.g.gThid) := by
  have nearer (t : State cfg) (running' : Running messages t)
      (short : ¬ (Covered t.sh (t.threads t.sh.g.gThid)
        ∨ ∃ evid, t.threads t.sh.g.gThid = .waitFlag evid)) :
      ∃ action u, OwnSteps t action ∧ (machine cfg).step t action = some u ∧ Running messages u
        ∧ (u.threads u.sh.g.gThid).wakeRank cfg.kprintfMaxHandlers u.sh.k.mem.live.card
          < (t.threads t.sh.g.gThid).wakeRank cfg.kprintfMaxHandlers t.sh.k.mem.live.card := by
    obtain ⟨action, u, own, later⟩ :=
      running'.nears_wait fun evid place => short (Or.inr ⟨evid, place⟩)
    exact ⟨action, u, ⟨_, own⟩, later⟩
  obtain ⟨t, path, running', goal⟩ := System.exists_path_of_rank
    (Q := fun t : State cfg => Covered t.sh (t.threads t.sh.g.gThid)
      ∨ ∃ evid, t.threads t.sh.g.gThid = .waitFlag evid)
    (fun t => (t.threads t.sh.g.gThid).wakeRank cfg.kprintfMaxHandlers t.sh.k.mem.live.card)
    nearer running
  rcases goal with covered | ⟨evid, waiting⟩
  · exact ⟨t, path, running', covered⟩
  · by_cases empty : t.sh.g.gHead = 0
    · exact ⟨t, path, running', Or.inl empty⟩
    · obtain ⟨action, u, ev, own, stepped, running'', place, set⟩ := running'.wakes waiting empty
      refine ⟨u, path.tail ⟨action, ⟨_, own⟩, stepped⟩, running'', Or.inr ?_⟩
      rw [place]
      exact set

/-- The start-up is over in such a pass. -/
theorem EventPc.Passing.past {sh : Shared cfg} {pc : EventPc} (passing : pc.Passing sh)
    : pc.settingOut = false := by
  cases pc with
  | poll | pollDelay | callRegister => exact passing.elim
  | _ => rfl

/-- A plain step of such a pass stays on its way to the end of the queue. -/
theorem EventPc.Passing.step {thid : Uid} {sh sh' : Shared cfg} {pc pc' : EventPc}
    {choice : Choice cfg} {nodes : List Addr} (passing : pc.Passing sh)
    (delivery : Delivery sh pc nodes) (pool : sh.k.vpls sh.g.gVplid = true)
    (plain : choice.plain = true) (stepped : eventStep thid sh pc choice = .next (sh', pc'))
    : Covered sh' pc' := by
  cases pc with
  | testFlush ev =>
      simp only [eventStep, Choice.onGo_eq_next, StepResult.next.injEq, Prod.mk.injEq] at stepped
      obtain ⟨_, rfl, rfl⟩ := stepped
      have set : ev &&& evFlush ≠ 0 := passing
      rw [if_pos set]
      exact Or.inr trivial
  | waitSema ev semid =>
      simp only [eventStep, Choice.onKernel_eq_next, StepResult.map_eq_next,
        StepResult.ofBlocking_eq_next, Prod.mk.injEq] at stepped
      obtain ⟨_, k, took, rfl, rfl⟩ | ⟨code, _, rfl, _⟩ := stepped
      · exact Or.inr trivial
      · contradiction
  | flush ev place =>
      simp only [eventStep, StepResult.map_eq_next] at stepped
      obtain ⟨⟨next, place'⟩, flushed, same⟩ := stepped
      have later := Covered.flush (Or.inr passing) delivery pool flushed
      cases place' <;> cases same <;> exact later
  | _ => exact passing.elim

/-- Such a pass empties the queue. -/
theorem Running.empties (running : Running messages s)
    (covered : Covered s.sh (s.threads s.sh.g.gThid))
    : ∃ t, (machine cfg).Path OwnSteps s t ∧ Running messages t ∧ t.sh.g.gHead = 0 := by
  have progress : ∀ t : State cfg,
      Running messages t ∧ Covered t.sh (t.threads t.sh.g.gThid) → t.sh.g.gHead ≠ 0 →
        ∃ action u, OwnSteps t action ∧ (machine cfg).step t action = some u
          ∧ (Running messages u ∧ Covered u.sh (u.threads u.sh.g.gThid))
          ∧ eventRank u.sh (u.threads u.sh.g.gThid) < eventRank t.sh (t.threads t.sh.g.gThid) := by
    intro t both queued
    obtain ⟨running', covered'⟩ := both
    have passing := covered'.resolve_left queued
    obtain ⟨single, inside⟩ := running'.single
    obtain ⟨_, nodes, delivery⟩ := delivery single
    obtain ⟨choice, sh', pc', plain, ran, lower⟩ :=
      running'.progress passing.past (fun evid place => by simp [place, EventPc.Passing] at passing)
    have later := passing.step delivery (session single inside).vpl plain ran
    obtain ⟨action, u, own, stepped, running'', rfl, rfl⟩ := running'.moves plain ran
    exact ⟨action, u, ⟨_, own⟩, stepped, ⟨running'', later⟩, lower⟩
  obtain ⟨t, path, ⟨running', _⟩, empty⟩ := System.exists_path_of_rank
    (Q := fun t : State cfg => t.sh.g.gHead = 0)
    (fun t => eventRank t.sh (t.threads t.sh.g.gThid)) progress ⟨running, covered⟩
  exact ⟨t, path, running', empty⟩

end Running

-----------------------------------------------------------------------------------------
-- From any state of a started module
-----------------------------------------------------------------------------------------

/-- A client that holds the semaphore gives it back first. -/
theorem clients_leave {s : State cfg} (reach : (machine cfg).Reachable NoReentry s)
    (started : s.sh.g.gState = .started)
    : ∃ t, (machine cfg).Path OwnSteps s t ∧ Running (accepted s.sh.history) t := by
  have single := reach.mono (fun _ _ reentry => reentry.1)
  have inside := inSession_of_started single started
  by_cases outside : ∀ n, s.locked (.client n) = false
  · exact ⟨s, .refl, reach, started, rfl, outside⟩
  · push Not at outside
    obtain ⟨n, locked⟩ := outside
    obtain ⟨t, path, free⟩ := holder_releases reach inside (by simpa using locked)
    have reach' := reach.path (path.mono fun _ _ own => own.noReentry)
    obtain ⟨gState, gSemid, same⟩ : t.sh.g.gState = s.sh.g.gState
        ∧ t.sh.g.gSemid = s.sh.g.gSemid ∧ accepted t.sh.history = accepted s.sh.history := by
      refine System.Path.preserves (P := fun t : State cfg => t.sh.g.gState = s.sh.g.gState
        ∧ t.sh.g.gSemid = s.sh.g.gSemid ∧ accepted t.sh.history = accepted s.sh.history)
        path ⟨rfl, rfl, rfl⟩ ?_
      intro u action v ⟨gState, gSemid, same⟩ own stepped
      obtain ⟨gState', gSemid', same'⟩ := own.keeps stepped
      exact ⟨gState'.trans gState, gSemid'.trans gSemid, same'.trans same⟩
    refine ⟨t, path.mono fun _ _ own => ⟨_, own⟩, reach', gState.trans started, same, ?_⟩
    intro other
    have single' := reach'.mono (fun _ _ reentry => reentry.1)
    obtain ⟨holder, sema, guarded⟩ :=
      (exclusion single' (inSession_of_started single' (gState.trans started))).owned
    rw [gSemid, free, Option.some.injEq] at sema
    by_contra held
    obtain rfl := (guarded (.client other)).mp (by simpa using held)
    simp [Sema.binary] at sema

/-- By plain steps of the threads inside the library, everything accepted so far is passed to the
handlers, nothing else is, and the queue is empty.
-/
def CanDeliver (s : State cfg) : Prop :=
  ∃ t, (machine cfg).Path OwnSteps s t ∧ t.sh.g.gHead = 0
    ∧ accepted t.sh.history = accepted s.sh.history
    ∧ delivered t.sh.history = accepted s.sh.history

/-- In every run in which no callback re-enters a started module, delivery stays possible. -/
theorem can_deliver {s : State cfg} (reach : (machine cfg).Reachable NoReentry s)
    (started : s.sh.g.gState = .started)
    : CanDeliver s := by
  obtain ⟨t, release, running⟩ := clients_leave reach started
  obtain ⟨u, wake, running, covered⟩ := running.covers
  obtain ⟨v, pass, running, empty⟩ := running.empties covered
  obtain ⟨_, nodes, delivery⟩ := delivery running.single.1
  have passed := delivery.passed
  rw [delivery.queue.head_eq_null.mp empty] at passed
  refine ⟨v, (release.trans wake).trans pass, empty, running.accepted, ?_⟩
  rw [← running.accepted]
  simpa using passed

/-- Witness: two messages are queued, and a client that registers a callback holds the semaphore,
while the event thread is still in its start-up loop.
-/
theorem can_deliver_run
    : ∃ s : State .shipped,
        (s.threads 13 = .poll ∧ s.locked (.client 0) = true
          ∧ (accepted s.sh.history).length = 2)
        ∧ CanDeliver s := by
  have done : ((machine .shipped).run NoReentry (machine .shipped).init
      (startRun ++ kprintfRun 100 ++ kprintfRun 101 ++ registerRun.take 5)).any
      (fun s => (s.threads 13 = .poll ∧ s.locked (.client 0) = true
        ∧ (accepted s.sh.history).length = 2) ∧ s.sh.g.gState = .started) = true := by
    decide +kernel
  obtain ⟨s, reach, holds⟩ := System.exists_of_run done
  obtain ⟨place, started⟩ := of_decide_eq_true holds
  exact ⟨s, place, can_deliver reach started⟩

end LibKprintf
