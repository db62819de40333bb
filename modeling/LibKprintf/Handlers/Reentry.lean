import LibKprintf.Queue.Progress

/-! Re-entry: the event thread calls the handlers while it holds the semaphore, so a callback
that calls a registry function waits for its own thread. Without such a call every holder of
the semaphore runs on until it gives it back.
-/

namespace LibKprintf

open Foundation

variable {cfg : Config}

/-- Whether an exported function gets to its wait for the semaphore in a started module. -/
def ApiCall.needsSema : ApiCall → Bool
  | .registerHandler cb _ => cb.isSome
  | .registerDefaultHandler | .unregisterHandler _ => true
  | .install | .isStarted => false

/-- A callback calls a function that gets to its wait for the semaphore. -/
def State.reenters (s : State cfg) : Action cfg → Bool
  | .event _ (.call call) => call.needsSema && s.sh.g.gState = .started
  | _ => false

/-- A single session in which no callback does so. -/
def NoReentry (s : State cfg) (action : Action cfg) : Prop :=
  SingleSession s action ∧ s.reenters action = false

instance (s : State cfg) (action : Action cfg) : Decidable (NoReentry s action) :=
  inferInstanceAs (Decidable (_ ∧ _))

/-- An exported function that needs no semaphore does not wait at its entry. -/
theorem apiEntry_waitsFor_none {sh : Shared cfg} {call : ApiCall}
    (free : (call.needsSema && sh.g.gState = .started) = false)
    : (apiEntry sh call).waitsFor = none := by
  by_cases started : sh.g.gState = .started
  · cases call with
    | registerHandler cb arg => cases cb <;> simp_all [ApiCall.needsSema, apiEntry, registerEntry,
        ApiPc.waitsFor]
    | registerDefaultHandler | unregisterHandler => simp [ApiCall.needsSema, started] at free
    | install | isStarted => rfl
  · rcases apiEntry_cases sh call with outside | ⟨entered, _⟩
    · exact (ApiPc.free_iff.mp outside).1
    · exact absurd entered started

/-- A thread's own plain steps are among the actions of such a session. -/
theorem OwnStep.noReentry {thread : ThreadRef} {s : State cfg} {action : Action cfg}
    (own : OwnStep thread s action)
    : NoReentry s action := by
  refine ⟨own.single, ?_⟩
  cases action with
  | event thid choice => cases choice <;> simp_all [OwnStep, Choice.plain, State.reenters]
  | kprintf | client | loader | overRegister => rfl

/-- The event thread waits for the semaphore that it holds itself. -/
def SelfDeadlocked (s : State cfg) : Prop :=
  ∃ thid sema, s.sh.k.semas s.sh.g.gSemid = some sema ∧ sema.holder = some (.event thid)
    ∧ s.waitsFor (.event thid) = some s.sh.g.gSemid

/-- No callback is at a wait for the semaphore. -/
def CallbacksRun (s : State cfg) : Prop :=
  ∀ thid call api, (s.threads thid).nested = some (call, api) → api.waitsFor = none

/-- Every step without re-entry keeps it: a function waits at its entry only. -/
theorem CallbacksRun.step {s t : State cfg} {action : Action cfg} (run : CallbacksRun s)
    (inside : s.loader.inSession = true) (reentry : NoReentry s action)
    (stepped : s.step action = some t)
    : CallbacksRun t := by
  obtain ⟨single, keeps⟩ := reentry
  cases State.step_cases stepped with
  | crash | kprintf | client | overRegister => exact run
  | @event thid choice sh' pc' ran =>
      intro other call api nested
      by_cases same : other = thid
      · subst same
        simp only [Function.update_self] at nested
        rcases eventStep_nested ran nested with ⟨_, free⟩ | ⟨rfl, rfl⟩
        · exact free
        · exact apiEntry_waitsFor_none (by simpa [State.reenters] using keeps)
      · exact run other call api (by simpa [Function.update_of_ne same] using nested)
  | loader ran =>
      obtain ⟨_, rfl⟩ := loaderStep_effect ran inside (not_start single inside)
      exact run

/-- Without re-entry no callback ever waits. -/
theorem callbacks_run {s : State cfg} (reach : (machine cfg).Reachable NoReentry s)
    (inside : s.loader.inSession = true)
    : CallbacksRun s := by
  refine session_invariant (P := CallbacksRun) (fun _ _ reentry => reentry.1) ?_ ?_ reach inside
  · intro s _ fresh thid call api nested
    by_cases same : thid = s.sh.g.gThid
    · subst same
      rcases fresh.polling with polls | polls <;> simp [polls, EventPc.nested] at nested
    · simp [fresh.others thid same, EventPc.nested] at nested
  · exact fun _ _ _ _ inside run reentry stepped => run.step inside reentry stepped

/-- A thread between its semaphore calls does not wait, if the callbacks do not. -/
theorem not_waiting_of_locked {s : State cfg} {thread : ThreadRef} (run : CallbacksRun s)
    (locked : s.locked thread = true)
    : s.waitsFor thread = none := by
  cases thread with
  | client n =>
      cases place : s.clients n with
      | none => simp [State.waitsFor, place]
      | some running =>
          simp only [State.locked, place, Option.any_some] at locked
          simpa [State.waitsFor, place] using ApiPc.waitsFor_of_locked locked
  | event thid =>
      simp only [State.locked, State.waitsFor] at locked ⊢
      cases place : s.threads thid with
      | register api =>
          rw [place] at locked
          exact ApiPc.waitsFor_of_locked locked
      | flush ev pc =>
          cases nested : pc.nested with
          | none => simp [EventPc.waitsFor, nested]
          | some running =>
              have free := run thid running.1 running.2 (by simp [place, EventPc.nested, nested])
              simp [EventPc.waitsFor, nested, free]
      | _ => first | rfl | simp [place, EventPc.locked] at locked

/-- The semaphore has a holder only in the session, and it is a thread between its semaphore
calls.
-/
theorem holder_locked {s : State cfg} (reach : (machine cfg).Reachable SingleSession s)
    {thread : ThreadRef} {sema : Sema} (found : s.sh.k.semas s.sh.g.gSemid = some sema)
    (held : sema.holder = some thread)
    : s.loader.inSession = true ∧ s.locked thread = true := by
  have inside : s.loader.inSession = true := by
    by_contra outside
    have idle := (starting reach (by simpa using outside)).before.units _ sema found
    simp [idle] at held
  obtain ⟨holder, binary, guarded⟩ := (exclusion reach inside).owned
  rw [found, Option.some.injEq] at binary
  subst binary
  exact ⟨inside, (guarded thread).mpr held⟩

/-- How many plain steps a thread has left, at most, up to the release of the semaphore. -/
def State.rank (s : State cfg) : ThreadRef → Nat
  | .event thid => eventRank s.sh (s.threads thid)
  | .client n => (s.clients n).elim 0 (fun running => running.2.rank cfg.kprintfMaxHandlers + 1)

/-- A thread between its semaphore calls has a plain step that brings it nearer the release,
and moves no other thread.
-/
theorem locked_progress {s : State cfg} {thread : ThreadRef} (session : Session s)
    (delivering : Delivering s) (run : CallbacksRun s) (locked : s.locked thread = true)
    : ∃ action t, OwnStep thread s action ∧ s.step action = some t
        ∧ t.sh.g.gSemid = s.sh.g.gSemid ∧ t.loader = s.loader
        ∧ (∀ other, other ≠ thread → t.locked other = s.locked other)
        ∧ t.rank thread < s.rank thread := by
  have waits := not_waiting_of_locked run locked
  obtain ⟨crashed, ready, nodes, delivery⟩ := delivering
  cases thread with
  | event thid =>
      have self : thid = s.sh.g.gThid := by
        by_contra other
        simp [State.locked, session.others thid other, EventPc.locked] at locked
      subst self
      have unblocked : (s.threads s.sh.g.gThid).Unblocked s.sh.g.gThid s.sh := by
        simp only [State.locked, State.waitsFor] at locked waits
        cases place : s.threads s.sh.g.gThid with
        | register api =>
            intro semid wait
            simp [place, EventPc.waitsFor, wait] at waits
        | flush ev pc =>
            intro call api nested
            exact run s.sh.g.gThid call api (by simp [place, EventPc.nested, nested])
        | signal => exact trivial
        | _ => simp [place, EventPc.locked] at locked
      obtain ⟨choice, plain, sh', pc', ran, lower⟩ :=
        eventStep_progress s.sh.g.gThid delivery session.vpl (ready _) unblocked
      have own : OwnStep (.event s.sh.g.gThid) s (.event s.sh.g.gThid choice) := ⟨rfl, plain⟩
      refine ⟨_, _, own, State.step_event crashed ran, ?_, rfl, ?_, ?_⟩
      · exact (eventStep_effect ran).frame.gSemid
      · intro other different
        rw [locked_event, Function.update_of_ne different]
      · simpa [State.rank] using lower
  | client n =>
      cases place : s.clients n with
      | none => simp [State.locked, place] at locked
      | some running =>
          obtain ⟨call, api⟩ := running
          have free : ∀ semid, api.waitsFor = some semid →
              ∃ k, s.sh.k.takeSema semid (.client n) = some k := by
            have none : api.waitsFor = none := by simpa [State.waitsFor, place] using waits
            simp [none]
          obtain ⟨sh', api', stepped, _, lower⟩ := apiCallStep_progress (.client n) call free
          have ran : clientStep n s.sh (s.clients n) .go = .next (sh', api'.map (call, ·)) := by
            simp [clientStep, place, stepped]
          have own : OwnStep (.client n) s (.client n .go) := ⟨rfl, rfl⟩
          refine ⟨_, _, own, State.step_client crashed ran, ?_, rfl, ?_, ?_⟩
          · exact (clientStep_effect ran).frame.gSemid
          · intro other different
            rw [locked_client, Function.update_of_ne different]
          · cases api' with
            | none => simp [State.rank, place]
            | some api' => simpa [State.rank, place] using lower

/-- Without re-entry the holder of the semaphore can always run on, by plain steps of its own,
until it has given the semaphore back; by the progress rule for its rank.
-/
theorem holder_releases {s : State cfg} (reach : (machine cfg).Reachable NoReentry s)
    {thread : ThreadRef} (inside : s.loader.inSession = true) (locked : s.locked thread = true)
    : ∃ t, (machine cfg).Path (OwnStep thread) s t
        ∧ t.sh.k.semas s.sh.g.gSemid = some (.binary none) := by
  have progress : ∀ t : State cfg,
      (machine cfg).Reachable NoReentry t ∧ t.loader.inSession = true
          ∧ t.sh.g.gSemid = s.sh.g.gSemid
          ∧ (∀ other, other ≠ thread → t.locked other = s.locked other) →
        t.locked thread ≠ false →
        ∃ action u, OwnStep thread t action ∧ (machine cfg).step t action = some u
          ∧ ((machine cfg).Reachable NoReentry u ∧ u.loader.inSession = true
              ∧ u.sh.g.gSemid = s.sh.g.gSemid
              ∧ ∀ other, other ≠ thread → u.locked other = s.locked other)
          ∧ u.rank thread < t.rank thread := by
    intro t ⟨reach, inside, gSemid, others⟩ locked
    have single := reach.mono (fun _ _ reentry => reentry.1)
    obtain ⟨action, u, own, stepped, gSemid', loader, others', lower⟩ :=
      locked_progress (session single inside) (delivering single inside)
        (callbacks_run reach inside) (by simpa using locked)
    refine ⟨action, u, own, stepped, ⟨reach.step own.noReentry stepped, loader ▸ inside,
      gSemid'.trans gSemid, fun other different => ?_⟩, lower⟩
    exact (others' other different).trans (others other different)
  obtain ⟨t, path, ⟨reach', inside', gSemid, others⟩, released⟩ := System.exists_path_of_rank
    (Q := fun t : State cfg => t.locked thread = false) (fun t => t.rank thread) progress
    ⟨reach, inside, rfl, fun _ _ => rfl⟩
  refine ⟨t, path, ?_⟩
  -- Nobody else has entered, so the semaphore has no holder left.
  obtain ⟨holder, sema, guarded⟩ :=
    (exclusion (reach'.mono (fun _ _ reentry => reentry.1)) inside').owned
  obtain ⟨before, _, guardedBefore⟩ :=
    (exclusion (reach.mono (fun _ _ reentry => reentry.1)) inside).owned
  rw [gSemid] at sema
  cases holder with
  | none => exact sema
  | some other =>
      have entered := (guarded other).mpr rfl
      by_cases same : other = thread
      · subst same
        simp [released] at entered
      · rw [others other same] at entered
        exact absurd (guardedBefore.exclusive entered locked) same

/-- The event thread does not wait for itself, and whoever holds the semaphore can run on by
itself until the semaphore is free.
-/
structure DeadlockFree (s : State cfg) : Prop where
  noSelfDeadlock : ¬ SelfDeadlocked s
  released
    : ∀ thread sema, s.sh.k.semas s.sh.g.gSemid = some sema → sema.holder = some thread →
        ∃ t, (machine cfg).Path (OwnStep thread) s t
          ∧ t.sh.k.semas s.sh.g.gSemid = some (.binary none)

/-- In every run in which no callback calls a function that gets to its wait for the
semaphore, the semaphore is free of deadlock.
-/
theorem deadlock_free {s : State cfg} (reach : (machine cfg).Reachable NoReentry s)
    : DeadlockFree s where
  noSelfDeadlock := by
    intro ⟨thid, sema, found, held, waits⟩
    obtain ⟨inside, locked⟩ :=
      holder_locked (reach.mono (fun _ _ reentry => reentry.1)) found held
    rw [not_waiting_of_locked (callbacks_run reach inside) locked] at waits
    contradiction
  released := by
    intro thread sema found held
    obtain ⟨inside, locked⟩ :=
      holder_locked (reach.mono (fun _ _ reentry => reentry.1)) found held
    exact holder_releases reach inside locked

/-- A client registers a callback, while the event thread is at its wait. -/
def registerRun : List (Action .shipped) :=
  [.client 0 (.call (.registerHandler (some (.client 7)) 0))]
    ++ List.replicate 11 (.client 0 .go)

/-- The event thread passes a message on to the default handler and then to the client's
callback, which it is about to enter.
-/
def dispatchRun : List (Action .shipped) :=
  eventRun 7 ++ [.event 13 (.ret 0 3 (List.replicate 19 66))] ++ eventRun 2

/-- Witness: the event thread holds the semaphore inside the client's callback. -/
theorem deadlock_free_run
    : ∃ s : State .shipped,
        s.threads 13 = .flush 1 (.callback 100 1 (.client 7) none) ∧ DeadlockFree s := by
  have done : ((machine .shipped).run NoReentry (machine .shipped).init
      (loopRun ++ registerRun ++ kprintfRun 100 ++ dispatchRun)).any
      (fun s => s.threads 13 = .flush 1 (.callback 100 1 (.client 7) none)) = true := by
    decide +kernel
  obtain ⟨s, reach, place⟩ := System.exists_of_run done
  exact ⟨s, by simpa using place, deadlock_free reach⟩

/-- Counterexample: the client's callback unregisters itself. The event thread holds the
semaphore and waits for it.
-/
theorem not_deadlock_free
    : ¬ ∀ s : State .shipped, (machine .shipped).Reachable SingleSession s → DeadlockFree s := by
  intro always
  have done : ((machine .shipped).run SingleSession (machine .shipped).init
      (loopRun ++ registerRun ++ kprintfRun 100 ++ dispatchRun
        ++ [.event 13 (.call (.unregisterHandler 1))])).any
      (fun s => (s.sh.k.semas s.sh.g.gSemid = some (.binary (some (.event 13)))
        ∧ s.waitsFor (.event 13) = some s.sh.g.gSemid)) = true := by
    decide +kernel
  obtain ⟨s, reach, holds⟩ := System.exists_of_run done
  obtain ⟨held, waits⟩ := of_decide_eq_true holds
  exact (always s reach).noSelfDeadlock ⟨13, _, held, rfl, waits⟩

end LibKprintf
