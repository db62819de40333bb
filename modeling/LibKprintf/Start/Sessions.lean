import LibKprintf.Handlers.CleanRestart
import LibKprintf.Queue.Guarantees
import LibKprintf.Queue.WakeUp
import LibKprintf.Start.Initializing

/-! Any number of sessions of one loaded image. Where every new start finds the module at rest and
its queue empty, each session is as safe as the first: the messages of all sessions are delivered
in order and once, no wake-up is lost, and the semaphore excludes.
-/

namespace LibKprintf

open Foundation

variable {cfg : Config}

/-- A start of an image that has been started before finds it at rest, with an empty queue. -/
def Orderly (s : State cfg) (action : Action cfg) : Prop :=
  action.isStart = true → s.loader = .loaded ∨ AtRest s ∧ s.sh.g.gHead = 0

-----------------------------------------------------------------------------------------
-- Outside the sessions
-----------------------------------------------------------------------------------------

/-- The threads, without those that have nothing left to do but to return. -/
def withoutEnded (threads : Threads) : Threads :=
  fun thid => if (threads thid).ended then .absent else threads thid

/-- A thread that comes to another place is not among those. -/
theorem withoutEnded_update (threads : Threads) (thid : Uid) {place : EventPc}
    (runs : place.ended = false)
    : withoutEnded (Function.update threads thid place)
      = Function.update (withoutEnded threads) thid place := by
  funext other
  by_cases same : other = thid
  · subst same
    simp [withoutEnded, runs]
  · simp [withoutEnded, same]

/-- Without those threads nothing is seen of their return. -/
theorem withoutEnded_returns {threads : Threads} {thid : Uid} (ended : (threads thid).ended = true)
    : withoutEnded (Function.update threads thid .exited) = withoutEnded threads := by
  funext other
  by_cases same : other = thid
  · subst same
    rw [withoutEnded, withoutEnded, if_pos ended, Function.update_self]
    rfl
  · simp [withoutEnded, same]

/-- init touches at most one thread, and that does not run past its first loop. -/
theorem initStep_threads {sh sh' : Shared cfg} {threads threads' : Threads} {pc : InitPc}
    {l : InitLocals} {loader' : LoaderPc} {choice : Choice cfg}
    (stepped : initStep sh threads pc l choice = .next (sh', threads', loader'))
    : threads' = threads
      ∨ ∃ thid place, place.early = true ∧ threads' = Function.update threads thid place := by
  cases pc with
  | install api =>
      obtain ⟨ret, _, same⟩ | ⟨sh'', api', _, same⟩ := initStep_install stepped <;> cases same <;>
        exact Or.inl rfl
  | stdout =>
      simp only [initStep] at stepped
      split at stepped <;> cases stepped
      exact Or.inl rfl
  | createVpl | createEventFlag | createSema =>
      simp only [initStep, createStep_eq_next] at stepped
      obtain ⟨id, _, _, _, same⟩ | ⟨code, _, _, same⟩ := stepped <;> cases same <;>
        exact Or.inl rfl
  | createThread =>
      simp only [initStep, createStep_eq_next] at stepped
      obtain ⟨id, _, _, _, same⟩ | ⟨code, _, _, same⟩ := stepped <;> cases same
      · exact Or.inr ⟨id, _, rfl, rfl⟩
      · exact Or.inl rfl
  | startThread =>
      simp only [initStep, Choice.onKernel_eq_next] at stepped
      obtain ⟨_, stepped⟩ | ⟨code, _, _, same⟩ := stepped
      · split at stepped <;> cases stepped
        exact Or.inr ⟨l.thid, _, rfl, rfl⟩
      · cases same
        exact Or.inl rfl
  | terminateThread =>
      simp only [initStep, Choice.onGo_eq_next, StepResult.next.injEq] at stepped
      obtain ⟨_, stepped⟩ := stepped
      split at stepped <;> cases stepped
      · exact Or.inr ⟨l.thid, _, rfl, rfl⟩
      · exact Or.inl rfl
  | deleteSema | deleteEventFlag | deleteVpl =>
      simp only [initStep, Choice.onGo_eq_next, StepResult.next.injEq] at stepped
      obtain ⟨_, stepped⟩ := stepped
      split at stepped <;> cases stepped <;> exact Or.inl rfl
  | _ =>
      simp only [initStep, Choice.onGo_eq_next, StepResult.next.injEq] at stepped
      obtain ⟨_, same⟩ := stepped
      cases same
      exact Or.inl rfl

/-- init goes on as if the threads that only return did not exist. -/
theorem initStep_withoutEnded {sh sh' : Shared cfg} {threads threads' : Threads} {pc : InitPc}
    {l : InitLocals} {loader' : LoaderPc} {choice : Choice cfg}
    (stepped : initStep sh threads pc l choice = .next (sh', threads', loader'))
    : initStep sh (withoutEnded threads) pc l choice
      = .next (sh', withoutEnded threads', loader') := by
  cases pc with
  | install api =>
      obtain ⟨ret, rfl, same⟩ | ⟨sh'', api', ran, same⟩ := initStep_install stepped
      · simp only [initStep, Choice.onGo_eq_next, StepResult.next.injEq] at stepped ⊢
        cases same
        exact ⟨stepped.1, rfl⟩
      · cases same
        rw [initStep, ran]
        · rfl
        · rintro ret rfl
          simp [apiStep] at ran
  | stdout =>
      simp only [initStep] at stepped ⊢
      split at stepped <;> cases stepped
      rfl
  | createVpl | createEventFlag | createSema =>
      simp only [initStep, createStep_eq_next] at stepped ⊢
      obtain ⟨id, rfl, positive, fresh, same⟩ | ⟨code, negative, rfl, same⟩ := stepped <;>
        cases same
      · exact Or.inl ⟨id, rfl, positive, fresh, rfl⟩
      · exact Or.inr ⟨code, negative, rfl, rfl⟩
  | createThread =>
      simp only [initStep, createStep_eq_next] at stepped ⊢
      obtain ⟨id, rfl, positive, fresh, same⟩ | ⟨code, negative, rfl, same⟩ := stepped <;>
        cases same
      · refine Or.inl ⟨id, rfl, positive, by simp [withoutEnded, fresh], ?_⟩
        rw [withoutEnded_update _ _ rfl]
      · exact Or.inr ⟨code, negative, rfl, rfl⟩
  | startThread =>
      simp only [initStep, Choice.onKernel_eq_next] at stepped ⊢
      obtain ⟨go, stepped⟩ | ⟨code, negative, rfl, same⟩ := stepped
      · split at stepped <;> cases stepped
        rename_i dormant
        refine Or.inl ⟨go, ?_⟩
        rw [withoutEnded_update _ _ rfl, if_pos (by simp [withoutEnded, dormant, EventPc.ended])]
      · cases same
        exact Or.inr ⟨code, negative, rfl, rfl⟩
  | terminateThread =>
      simp only [initStep, Choice.onGo_eq_next, StepResult.next.injEq] at stepped ⊢
      obtain ⟨go, stepped⟩ := stepped
      refine ⟨go, ?_⟩
      split_ifs at stepped ⊢ <;> cases stepped
      · rw [withoutEnded_update _ _ rfl]
      · rfl
  | deleteSema | deleteEventFlag | deleteVpl =>
      simp only [initStep, Choice.onGo_eq_next, StepResult.next.injEq] at stepped ⊢
      obtain ⟨go, stepped⟩ := stepped
      refine ⟨go, ?_⟩
      split_ifs at stepped ⊢ <;> cases stepped <;> rfl
  | _ =>
      simp only [initStep, Choice.onGo_eq_next, StepResult.next.injEq] at stepped ⊢
      obtain ⟨go, same⟩ := stepped
      cases same
      exact ⟨go, rfl⟩

/-- While the module is not started, init touches no memory of the queue. -/
theorem initStep_ne_fault {sh : Shared cfg} {threads : Threads} {pc : InitPc} {l : InitLocals}
    {choice : Choice cfg} (state : sh.g.gState ≠ .started)
    : initStep sh threads pc l choice ≠ .fault := by
  intro faults
  cases pc with
  | install api =>
      by_cases returns : ∃ ret, api = .done ret
      · obtain ⟨ret, rfl⟩ := returns
        simp [initStep] at faults
      · rw [initStep, StepResult.map_eq_fault] at faults
        · obtain ⟨during, faults⟩ := apiStep_fault faults
          exact kprintf_unstarted_ne_fault state faults
        · exact fun ret same => returns ⟨ret, same⟩
  | stdout => cases choice <;> simp [initStep] at faults
  | createVpl | createEventFlag | createSema | createThread =>
      cases choice with
      | answer | fail =>
          simp only [initStep, createStep] at faults
          split at faults <;> contradiction
      | _ => simp [initStep, createStep] at faults
  | startThread =>
      simp only [initStep, Choice.onKernel_eq_fault] at faults
      obtain ⟨_, faults⟩ := faults
      split at faults <;> contradiction
  | _ => simp [initStep] at faults

/-- The queue stays drained, where no message comes and nothing is stored to it but `NULL`. -/
theorem Delivery.stays_empty {sh sh' : Shared cfg} {place : EventPc}
    (drained : Delivery sh .absent []) (head : sh'.g.gHead = 0) (live : sh'.k.mem.live = ∅)
    (history
      : ∃ events, sh'.history = sh.history ++ events ∧ ∀ event ∈ events, event.ofQueue = false)
    (known : place.known = [])
    : Delivery sh' place [] := by
  obtain ⟨events, appended, silent⟩ := history
  obtain ⟨acceptedSame, deliveredSame, freedSame⟩ := messages_append sh.history silent
  obtain ⟨_, _, removed, passed, numbered⟩ := drained
  refine ⟨⟨chain_nil.mpr head, by simp [live], by simp⟩, by simp [known], ?_, ?_, ?_⟩
  · rw [appended, acceptedSame, freedSame]
    exact removed
  · simpa [appended, acceptedSame, deliveredSame] using passed
  · rw [appended, acceptedSame]
    exact numbered

/-- An empty queue has no live block. -/
theorem Delivery.empty {sh : Shared cfg} {place : EventPc} (drained : Delivery sh place [])
    : sh.g.gHead = 0 ∧ sh.k.mem.live = ∅ := by
  refine ⟨chain_nil.mp drained.queue.chain, Finset.eq_empty_iff_forall_notMem.mpr fun a => ?_⟩
  simp [drained.queue.live a]

/-- init keeps the queue drained, by cases of its program point. -/
theorem initStep_drained {sh sh' : Shared cfg} {threads threads' : Threads} {pc : InitPc}
    {l : InitLocals} {loader' : LoaderPc} {choice : Choice cfg}
    (stepped : initStep sh threads pc l choice = .next (sh', threads', loader'))
    (state : sh.g.gState ≠ .started) (install : ∀ api, pc = .install api → api.free = true)
    (drained : Delivery sh .absent [])
    : Delivery sh' .absent [] := by
  obtain ⟨head, live⟩ := drained.empty
  have still : ∃ events, sh.history = sh.history ++ events
      ∧ ∀ event ∈ events, event.ofQueue = false := ⟨[], by simp, by simp⟩
  have noted {event : Event} (silent : event.ofQueue = false) :
      ∃ events, sh.history ++ [event] = sh.history ++ events
        ∧ ∀ event ∈ events, event.ofQueue = false :=
    ⟨[event], rfl, List.forall_mem_singleton.mpr silent⟩
  cases pc with
  | install api =>
      obtain ⟨ret, _, same⟩ | ⟨sh'', api', ran, same⟩ := initStep_install stepped <;> cases same
      · exact drained
      · obtain ⟨quiet, _⟩ := (apiStep_effect ran).quiet (install api rfl) state
        obtain ⟨events, appended, before⟩ := quiet.history
        refine drained.stays_empty (quiet.g ▸ head) (quiet.mem ▸ live)
          ⟨events, appended, fun event member => ?_⟩ rfl
        have fits := before event member
        cases event <;> first | rfl | exact fits.elim
  | stdout =>
      simp only [initStep] at stepped
      split at stepped <;> cases stepped
      exact drained.stays_empty head live still rfl
  | createVpl | createEventFlag | createSema | createThread =>
      simp only [initStep, createStep_eq_next] at stepped
      obtain ⟨id, _, _, _, same⟩ | ⟨code, _, _, same⟩ := stepped <;> cases same
      · exact drained.stays_empty head live (noted rfl) rfl
      · exact drained
  | startThread =>
      simp only [initStep, Choice.onKernel_eq_next] at stepped
      obtain ⟨_, stepped⟩ | ⟨code, _, _, same⟩ := stepped
      · split at stepped <;> cases stepped
        exact drained
      · cases same
        exact drained
  | terminateThread | deleteSema | deleteEventFlag | deleteVpl =>
      simp only [initStep, Choice.onGo_eq_next, StepResult.next.injEq] at stepped
      obtain ⟨_, stepped⟩ := stepped
      split at stepped <;> cases stepped
      · exact drained.stays_empty head (by simp [Shared.note, live]) (noted rfl) rfl
      · exact drained
  | starting | started | stopped =>
      simp only [initStep, Choice.onGo_eq_next, StepResult.next.injEq] at stepped
      obtain ⟨_, same⟩ := stepped
      cases same
      exact drained.stays_empty head live (noted rfl) rfl
  | setHead =>
      simp only [initStep, Choice.onGo_eq_next, StepResult.next.injEq] at stepped
      obtain ⟨_, same⟩ := stepped
      cases same
      exact drained.stays_empty rfl live still rfl
  | setVplid | setEvid | setSemid | setThid | setDefault | setCount =>
      simp only [initStep, Choice.onGo_eq_next, StepResult.next.injEq] at stepped
      obtain ⟨_, same⟩ := stepped
      cases same
      exact drained.stays_empty head live still rfl

/-- While the module is not started a client changes nothing but the history, and notes its calls
only.
-/
theorem ClientEffect.idle {n : Nat} {sh sh' : Shared cfg} {pc pc' : ClientPc}
    (effect : ClientEffect n sh pc sh' pc') (state : sh.g.gState ≠ .started)
    (free : ∀ call api, pc = some (call, api) → api.free = true)
    : sh.Quiet { sh' with history := sh.history }
      ∧ ∃ events, sh'.history = sh.history ++ events
        ∧ ∀ event ∈ events, event.ofQueue = false := by
  cases effect with
  | enter | leave =>
      exact ⟨⟨rfl, rfl, rfl, rfl, rfl, [], by simp, by simp⟩, [_], rfl,
        List.forall_mem_singleton.mpr rfl⟩
  | run ran =>
      have effect := apiStep_effect ran
      obtain ⟨g, mem, vpls, evflags, semas, _⟩ := (effect.quiet (free _ _ rfl) state).1
      exact ⟨⟨g, mem, vpls, evflags, semas, [], by simp, by simp⟩, [],
        by simp [effect.silent (free _ _ rfl) state], by simp⟩

/-- What holds outside the sessions, with what init has achieved: no message is queued, and every
thread but that of init has nothing left to do but to return.
-/
structure Preparing (s : State cfg) : Prop where
  state : s.sh.g.gState ≠ .started
  emptied : Delivery s.sh .absent []
  idle : ∀ thid, (s.threads thid).early = true ∨ (s.threads thid).ended = true
  settled : Settled s
  running : s.crashed = false
  init
    : ∀ pc l, s.loader = .init pc l → pc.rank ≤ 15 →
        InitDone s.sh (withoutEnded s.threads) pc l

/-- It holds where init is entered in a module at rest. -/
theorem AtRest.preparing {s : State cfg} (rest : AtRest s) (state : s.sh.g.gState ≠ .started)
    (drained : Delivery s.sh .absent []) (running : s.crashed = false)
    : Preparing { s with loader := .init .stdout {} } where
  state := state
  emptied := drained
  idle thid := (rest.threads thid).imp_left fun absent => by rw [absent]; rfl
  settled thread call api engaged :=
    rest.settled thread call api (by cases thread <;> exact engaged)
  running := running
  init := by
    rintro _ _ ⟨⟩ _
    refine .beforeThread (by decide) (fun thid => ?_) (fun reached => absurd reached (by decide))
      (fun reached => absurd reached (by decide)) (fun reached => absurd reached (by decide))
    rcases rest.threads thid with absent | ended <;> simp [withoutEnded, *]

/-- No thread touches the memory of the queue outside the sessions. -/
theorem Preparing.no_fault {s : State cfg} {action : Action cfg} (preparing : Preparing s)
    (outside : s.loader.inSession = false)
    : ¬ s.Faults action := by
  have state := preparing.state
  intro faults
  cases action with
  | kprintf call => exact kprintf_unstarted_ne_fault state faults
  | event thid choice =>
      have idle := preparing.idle thid
      simp only [State.Faults] at faults
      cases pc : s.threads thid <;>
        simp [pc, EventPc.early, EventPc.ended, eventStep] at idle faults
  | client n choice =>
      simp only [State.Faults, clientStep] at faults
      split at faults
      · split at faults <;> contradiction
      · obtain ⟨during, faults⟩ := apiCallStep_fault (StepResult.map_eq_fault.mp faults)
        exact kprintf_unstarted_ne_fault state faults
  | loader choice =>
      simp only [State.Faults, loaderStep] at faults
      split at faults
      · exact initStep_ne_fault state faults
      · rename_i place
        simp [place, LoaderPc.inSession] at outside
      · split at faults <;> contradiction
      · split at faults <;> contradiction
      · rename_i place
        simp [place, LoaderPc.inSession] at outside
      · rename_i place
        simp [place, LoaderPc.inSession] at outside
  | overRegister => exact faults

/-- The state right after init has stored `STATE_STARTED`, in whichever session. -/
structure Begins (s : State cfg) : Prop where
  loader : s.loader = .resident
  state : s.sh.g.gState = .started
  emptied : Delivery s.sh .absent []
  vpl : s.sh.k.vpls s.sh.g.gVplid = true
  evflag : s.sh.k.evflags s.sh.g.gEvid = some 0
  sema : s.sh.k.semas s.sh.g.gSemid = some ⟨1, 1, none⟩
  polling : s.threads s.sh.g.gThid = .poll ∨ s.threads s.sh.g.gThid = .pollDelay
  others
    : ∀ thid ≠ s.sh.g.gThid, s.threads thid = .absent ∨ (s.threads thid).ended = true
  settled : Settled s
  running : s.crashed = false

/-- A thread that is not there without those that only return is absent, or one of them. -/
theorem withoutEnded_absent {threads : Threads} {thid : Uid}
    (gone : withoutEnded threads thid = .absent)
    : threads thid = .absent ∨ (threads thid).ended = true := by
  unfold withoutEnded at gone
  split at gone
  · exact Or.inr ‹_›
  · exact Or.inl gone

/-- A thread that runs is where it is also without those that only return. -/
theorem withoutEnded_of_runs {threads : Threads} {thid : Uid} {place : EventPc}
    (here : withoutEnded threads thid = place) (runs : place ≠ .absent)
    : threads thid = place := by
  unfold withoutEnded at here
  split at here
  · exact absurd here.symm runs
  · exact here

/-- The last store of init begins a session. -/
theorem Preparing.begins {s : State cfg} {sh' : Shared cfg} {threads' : Threads} {l : InitLocals}
    {loader' : LoaderPc} {choice : Choice cfg} (preparing : Preparing s)
    (place : s.loader = .init .started l)
    (stepped : initStep s.sh s.threads .started l choice = .next (sh', threads', loader'))
    : Begins { s with sh := sh', threads := threads', loader := loader' } := by
  obtain ⟨vpl, evflag, sema, alone, others, dormant, polling, gVplid, gEvid, gSemid, gThid,
    install⟩ := preparing.init _ l place (by decide)
  have drained := initStep_drained stepped preparing.state (by simp) preparing.emptied
  simp only [initStep, Choice.onGo_eq_next, StepResult.next.injEq] at stepped
  obtain ⟨_, same⟩ := stepped
  cases same
  simp only [InitPc.rank, Nat.reduceLeDiff, forall_const] at *
  exact
    { loader := rfl
      state := rfl
      emptied := drained
      vpl := by simpa only [Shared.note, gVplid] using vpl
      evflag := by simpa only [Shared.note, gEvid] using evflag
      sema := by simpa only [Shared.note, gSemid] using sema
      polling := by
        simp only [Shared.note, gThid]
        exact polling.imp (withoutEnded_of_runs · (by simp)) (withoutEnded_of_runs · (by simp))
      others := fun thid other => by
        simp only [Shared.note, gThid] at other
        exact withoutEnded_absent (others thid other)
      settled := fun thread call api engaged =>
        preparing.settled thread call api (by cases thread <;> exact engaged)
      running := preparing.running }

/-- Every step of init short of success prepares on. -/
theorem Preparing.initStep {s : State cfg} {sh' : Shared cfg} {threads' : Threads} {pc : InitPc}
    {l : InitLocals} {loader' : LoaderPc} {choice : Choice cfg} (preparing : Preparing s)
    (place : s.loader = .init pc l) (short : pc ≠ .started)
    (stepped : initStep s.sh s.threads pc l choice = .next (sh', threads', loader'))
    : loader'.inSession = false
      ∧ Preparing { s with sh := sh', threads := threads', loader := loader' } := by
  obtain ⟨state, drained, idle, settled, running, init⟩ := preparing
  have outside := (initStep_loader stepped).1.resolve_left short
  have install : ∀ api, pc = .install api → api.free = true := by
    rintro api rfl
    exact (init _ l place (by simp [InitPc.rank])).install api rfl
  refine ⟨outside, ?_, initStep_drained stepped state install drained, fun thid => ?_, ?_, running,
    ?_⟩
  · refine (initStep_state stepped state).resolve_right fun resident => ?_
    simp [resident, LoaderPc.inSession] at outside
  · obtain rfl | ⟨touched, pc', early, rfl⟩ := initStep_threads stepped
    · exact idle thid
    · by_cases same : thid = touched
      · subst same
        exact Or.inl (by simpa using early)
      · simpa [same] using idle thid
  · rintro (thid | n) call api engaged
    · rcases (initStep_events stepped).2 thid with same | none
      · exact settled (.event thid) call api (same.symm.trans engaged)
      · exact absurd (none.symm.trans engaged) (by simp)
    · exact settled (.client n) call api engaged
  · rintro pc' l' rfl ahead
    exact initStep_done (initStep_withoutEnded stepped) state (init pc l place) ahead

/-- Outside the sessions every step prepares on, or begins a session. -/
theorem Preparing.step {s t : State cfg} {action : Action cfg} (preparing : Preparing s)
    (outside : s.loader.inSession = false) (orderly : action.isStart = true → AtRest s)
    (stepped : s.step action = some t)
    : t.loader.inSession = false ∧ Preparing t ∨ Begins t := by
  have safe : ¬ s.Faults action := preparing.no_fault outside
  obtain ⟨state, drained, idle, settled, running, init⟩ := id preparing
  obtain ⟨head, live⟩ := drained.empty
  cases State.step_cases stepped with
  | crash faults => exact absurd faults safe
  | kprintf printed =>
      rw [kprintf_unstarted state printed]
      exact Or.inl ⟨outside, preparing⟩
  | overRegister =>
      refine Or.inl ⟨outside, state, drained.stays_empty head live ⟨[], by simp, by simp⟩ rfl, idle,
        fun thread call api engaged =>
          settled thread call api (by cases thread <;> exact engaged), running,
        fun pc l place ahead =>
          (init pc l place ahead).quiet ⟨rfl, rfl, rfl, rfl, rfl, [], by simp, by simp⟩⟩
  | @event thid choice sh' pc' ran =>
      -- The thread of the running init polls, and those of earlier sessions return.
      have settled' := settled.update (inApi_event s s.sh thid pc')
        ((eventStep_effect ran).callMove.free state (settled (.event thid)))
      rcases idle thid with early | ended
      · obtain ⟨rfl, polls, polls'⟩ := eventStep_early ran early state
        have runs : pc'.ended = false := by rcases polls' with rfl | rfl <;> rfl
        refine Or.inl ⟨outside, state, drained, fun other => ?_, settled', running,
          fun pc l place ahead => ?_⟩
        · by_cases same : other = thid
          · subst same
            rcases polls' with rfl | rfl <;> simp [EventPc.early]
          · simpa [same] using idle other
        · rw [withoutEnded_update _ _ runs]
          refine (init pc l place ahead).poll ?_ polls'
          rcases polls with polls | polls <;> simp [withoutEnded, polls, EventPc.ended]
      · obtain ⟨_, rfl, rfl⟩ := (eventStep_effect ran).idle ended
        refine Or.inl ⟨outside, state, drained, fun other => ?_, settled', running,
          fun pc l place ahead => ?_⟩
        · by_cases same : other = thid
          · subst same
            simp [EventPc.ended]
          · simpa [same] using idle other
        · rw [withoutEnded_returns ended]
          exact init pc l place ahead
  | @client n choice sh' pc' ran =>
      have effect := clientStep_effect ran
      obtain ⟨quiet, silent⟩ := effect.idle state (settled (.client n))
      refine Or.inl ⟨outside, quiet.g ▸ state,
        drained.stays_empty (quiet.g ▸ head) (quiet.mem ▸ live) silent rfl, idle,
        settled.update (inApi_client s sh' n pc') (effect.callMove.free state
          (settled (.client n))), running, fun pc l place ahead => ?_⟩
      exact { (init pc l place ahead).quiet quiet with }
  | @loader choice sh' threads' loader' ran =>
      cases place : s.loader with
      | init ip l =>
          simp only [loaderStep, place] at ran
          by_cases starts : ip = .started
          · subst starts
            exact Or.inr (preparing.begins place ran)
          · exact Or.inl (preparing.initStep place starts ran)
      | loaded | failed =>
          simp only [loaderStep, place] at ran
          split at ran
          · cases ran
            exact Or.inl ⟨rfl, (orderly rfl).preparing state drained running⟩
          · contradiction
      | resident | stop | stopped => simp [place, LoaderPc.inSession] at outside

-----------------------------------------------------------------------------------------
-- The sessions
-----------------------------------------------------------------------------------------

/-- The state without the threads of earlier sessions. -/
def State.alone (s : State cfg) : State cfg :=
  { s with threads := fun thid => if thid = s.sh.g.gThid then s.threads thid else .absent }

/-- The thread of the session stays. -/
@[simp]
theorem State.alone_self (s : State cfg)
    : s.alone.threads s.sh.g.gThid = s.threads s.sh.g.gThid := by
  simp [State.alone]

/-- The others are gone. -/
theorem State.alone_other (s : State cfg) {thid : Uid} (other : thid ≠ s.sh.g.gThid)
    : s.alone.threads thid = .absent := by
  simp [State.alone, other]

/-- In a session the module manager's thread leaves the event threads alone, whatever they are. -/
theorem loaderStep_inSession {sh : Shared cfg} {pc : LoaderPc} {choice : Choice cfg}
    (inside : pc.inSession = true) (threads threads' : Threads)
    : loaderStep sh threads' pc choice
      = (loaderStep sh threads pc choice).map (fun (sh', _, pc') => (sh', threads', pc')) := by
  cases pc with
  | loaded | failed | init => contradiction
  | resident | stopped => cases choice <;> rfl
  | stop pc =>
      simp only [loaderStep]
      cases stopStep sh pc choice <;> rfl

/-- In a session each step, but those of the threads of earlier sessions, is the same without these
threads.
-/
theorem alone_step {s : State cfg} {action : Action cfg}
    (own : ∀ thid choice, action = .event thid choice → thid = s.sh.g.gThid)
    (inside : s.loader.inSession = true) (noStart : action.isStart = false)
    : s.alone.step action = (s.step action).map State.alone := by
  by_cases crashed : s.crashed = true
  · simp [State.step, State.alone, crashed]
  cases action with
  | kprintf call =>
      cases result : kprintf s.sh call with
      | next sh' =>
          simp [State.step, State.apply, State.alone, crashed, result, (kprintf_frame result).gThid]
      | _ => simp [State.step, State.apply, State.alone, crashed, result]
  | event thid choice =>
      obtain rfl := own thid choice rfl
      cases result : eventStep s.sh.g.gThid s.sh (s.threads s.sh.g.gThid) choice with
      | next moved =>
          have gThid := (eventStep_effect result).frame.gThid
          simp only [State.step, State.apply, State.alone, crashed, result, if_true,
            Bool.false_eq_true, if_false, Option.map_some, gThid, Option.some.injEq,
            State.mk.injEq, true_and, and_true]
          funext other
          by_cases same : other = s.sh.g.gThid <;> simp [same]
      | _ => simp [State.step, State.apply, State.alone, crashed, result]
  | client n choice =>
      cases result : clientStep n s.sh (s.clients n) choice with
      | next moved =>
          have gThid := (clientStep_effect result).frame.gThid
          simp [State.step, State.apply, State.alone, crashed, result, gThid]
      | _ => simp [State.step, State.apply, State.alone, crashed, result]
  | loader choice =>
      have same : loaderStep s.sh s.alone.threads s.loader choice = _ :=
        loaderStep_inSession inside s.threads s.alone.threads
      cases result : loaderStep s.sh s.threads s.loader choice with
      | next moved =>
          obtain ⟨sh', threads', pc'⟩ := moved
          obtain ⟨effect, rfl⟩ := loaderStep_effect result inside noStart
          rw [result] at same
          have alone : loaderStep s.alone.sh s.alone.threads s.alone.loader choice
              = .next (sh', s.alone.threads, pc') := same
          simp only [State.step, State.apply, alone, result]
          simp [State.alone, crashed, effect.frame_gThid]
      | disabled | fault =>
          rw [result] at same
          have alone : loaderStep s.alone.sh s.alone.threads s.alone.loader choice = _ := same
          simp only [State.step, State.apply, alone, result, StepResult.map]
          simp [State.alone, crashed]
  | overRegister => simp [State.step, State.alone, crashed]

/-- A thread of an earlier session can only return, and without those threads nothing is seen of it.
-/
theorem old_thread_step {s t : State cfg} {thid : Uid} {choice : Choice cfg}
    (old : thid ≠ s.sh.g.gThid)
    (gone : s.threads thid = .absent ∨ (s.threads thid).ended = true)
    (stepped : s.step (.event thid choice) = some t)
    : t = { s with threads := Function.update s.threads thid .exited } ∧ t.alone = s.alone := by
  have returned : t = { s with threads := Function.update s.threads thid .exited } := by
    cases State.step_cases stepped with
    | crash faults =>
        simp only [State.Faults] at faults
        cases place : s.threads thid <;>
          simp [place, EventPc.ended, eventStep] at gone faults
    | event ran =>
        rcases gone with absent | ended
        · rw [absent] at ran
          contradiction
        · obtain ⟨_, rfl, rfl⟩ := (eventStep_effect ran).idle ended
          rfl
  refine ⟨returned, ?_⟩
  subst returned
  simp only [State.alone, State.mk.injEq, true_and, and_true]
  funext other
  by_cases own : other = s.sh.g.gThid
  · simp [own, Ne.symm old]
  · simp [own]

/-- A session begins with its objects, and no thread has read an id yet. -/
theorem Begins.session {s : State cfg} (begins : Begins s) : Session s.alone where
  state := by simp [State.alone, begins.state, begins.loader, LoaderPc.isStarted]
  vpl := begins.vpl
  evflag := Option.isSome_iff_exists.mpr ⟨0, begins.evflag⟩
  sema := Option.isSome_iff_exists.mpr ⟨_, begins.sema⟩
  alive := by
    show s.alone.threads s.sh.g.gThid ≠ _ ∧ s.alone.threads s.sh.g.gThid ≠ _
    rw [s.alone_self]
    rcases begins.polling with polls | polls <;> simp [polls]
  others thid other := s.alone_other other
  semid := by
    rintro (thid | n) semid waits
    · by_cases same : thid = s.sh.g.gThid
      · subst same
        rcases begins.polling with polls | polls <;>
          simp [State.waitsFor, polls, EventPc.waitsFor] at waits
      · simp [State.waitsFor, s.alone_other same, EventPc.waitsFor] at waits
    · obtain ⟨⟨call, api⟩, engaged, waits⟩ := Option.bind_eq_some_iff.mp waits
      simp [(ApiPc.free_iff.mp (begins.settled (.client n) call api engaged)).1] at waits
  evid := by
    intro thid evid waits
    by_cases same : thid = s.sh.g.gThid
    · subst same
      rcases begins.polling with polls | polls <;> simp [polls] at waits
    · simp [s.alone_other same] at waits
  stopEvid := by simp [State.alone, begins.loader]

/-- Where no call is at the semaphore, no client is between its semaphore calls. -/
theorem Settled.unlocked {s : State cfg} (settled : Settled s) (n : Nat)
    : s.locked (.client n) = false := by
  cases engaged : s.clients n with
  | none => simp [State.locked, engaged]
  | some running =>
      obtain ⟨call, api⟩ := running
      have free : api.free = true := settled (.client n) call api engaged
      simp [State.locked, engaged, (ApiPc.free_iff.mp free).2]

/-- At first the semaphore is free and nobody is between its semaphore calls. -/
theorem Begins.exclusion {s : State cfg} (begins : Begins s) : Exclusion s.alone where
  owned := by
    refine ⟨none, begins.sema, ?_⟩
    rintro (thid | n)
    · by_cases same : thid = s.sh.g.gThid
      · subst same
        rcases begins.polling with polls | polls <;> simp [State.locked, polls, EventPc.locked]
      · simp [State.locked, s.alone_other same, EventPc.locked]
    · have unlocked : s.alone.locked (.client n) = false := begins.settled.unlocked n
      simp [unlocked]
  nested := by
    intro thid call api inner
    by_cases same : thid = s.sh.g.gThid
    · subst same
      rcases begins.polling with polls | polls <;> simp [polls, EventPc.nested] at inner
    · simp [s.alone_other same, EventPc.nested] at inner

/-- At first the queue is drained. -/
theorem Begins.delivering {s : State cfg} (begins : Begins s) : Delivering s.alone where
  running := begins.running
  ready := by
    intro thid ev m i place
    by_cases same : thid = s.sh.g.gThid
    · subst same
      rcases begins.polling with polls | polls <;> simp [polls] at place
    · simp [s.alone_other same] at place
  delivery := by
    obtain ⟨head, live⟩ := begins.emptied.empty
    refine ⟨[], begins.emptied.stays_empty head live ⟨[], (List.append_nil _).symm, by simp⟩ ?_⟩
    show (s.alone.threads s.sh.g.gThid).known = []
    rw [s.alone_self]
    rcases begins.polling with polls | polls <;> simp [polls, EventPc.known]

/-- What holds in a session, whichever it is: without the threads of earlier sessions, which only
return, everything is as in a first session.
-/
structure InSession (s : State cfg) : Prop where
  others
    : ∀ thid ≠ s.sh.g.gThid, s.threads thid = .absent ∨ (s.threads thid).ended = true
  session : Session s.alone
  exclusion : Exclusion s.alone
  delivering : Delivering s.alone
  awake : Awake s.sh (s.threads s.sh.g.gThid)

/-- A session begins so. -/
theorem Begins.inSession {s : State cfg} (begins : Begins s) : InSession s where
  others := begins.others
  session := begins.session
  exclusion := begins.exclusion
  delivering := begins.delivering
  awake := Or.inr (Or.inl (Or.inl begins.emptied.empty.1))

/-- In a session a thread that exists and does more than return is the thread `g_thid`. -/
theorem InSession.self {s : State cfg} {thid : Uid} {place : EventPc} (inSession : InSession s)
    (here : s.threads thid = place) (present : place ≠ .absent) (runs : place.ended = false)
    : thid = s.sh.g.gThid := by
  by_contra other
  rcases inSession.others thid other with gone | gone
  · exact present (here.symm.trans gone)
  · simp [here, runs] at gone

/-- A step in a session, but of a thread of an earlier one, keeps those threads and remembers the
queued messages.
-/
theorem InSession.awake_step {s t : State cfg} {action : Action cfg} (inSession : InSession s)
    (own : ∀ thid choice, action = .event thid choice → thid = s.sh.g.gThid)
    (inside : s.loader.inSession = true) (noStart : action.isStart = false)
    (stepped : s.step action = some t)
    : (∀ thid ≠ t.sh.g.gThid, t.threads thid = .absent ∨ (t.threads thid).ended = true)
      ∧ Awake t.sh (t.threads t.sh.g.gThid) := by
  have others := inSession.others
  have awake := inSession.awake
  have flag : (s.sh.k.evflags s.sh.g.gEvid).isSome = true := inSession.session.evflag
  cases State.step_cases stepped with
  | crash => exact ⟨others, awake⟩
  | overRegister => exact ⟨others, awake.of_same id rfl rfl⟩
  | kprintf printed =>
      simp only [(kprintf_frame printed).gThid]
      exact ⟨others, awake.kprintf flag printed⟩
  | @event thid choice sh' pc' ran =>
      obtain rfl := own thid choice rfl
      simp only [(eventStep_effect ran).frame.gThid, Function.update_self]
      refine ⟨fun thid other => by simpa [other] using others thid other, ?_⟩
      obtain ⟨nodes, delivery⟩ := inSession.delivering.delivery
      have captured (evid : Uid) (waits : s.threads s.sh.g.gThid = .waitFlag evid) :
          evid = s.sh.g.gEvid :=
        inSession.session.evid s.sh.g.gThid evid (by simpa using waits)
      have delivery : Delivery s.sh (s.alone.threads s.sh.g.gThid) nodes := delivery
      rw [s.alone_self] at delivery
      exact awake.event delivery inSession.session.vpl flag captured ran
  | @client n choice sh' pc' ran =>
      have effect := clientStep_effect ran
      simp only [effect.frame.gThid]
      exact ⟨others, awake.client flag effect⟩
  | @loader choice sh' threads' loader' ran =>
      obtain ⟨effect, rfl⟩ := loaderStep_effect ran inside noStart
      simp only [effect.frame_gThid]
      exact ⟨others, awake.stop flag inSession.session.stopEvid effect⟩

/-- Every step in a session keeps what holds in it. -/
theorem InSession.step {s t : State cfg} {action : Action cfg} (inSession : InSession s)
    (inside : s.loader.inSession = true) (noStart : action.isStart = false)
    (stepped : s.step action = some t)
    : InSession t := by
  by_cases own : ∀ thid choice, action = .event thid choice → thid = s.sh.g.gThid
  · have alone : s.alone.step action = some t.alone := by
      rw [alone_step own inside noStart, stepped]
      rfl
    have single : SingleSession s.alone action := fun start => by simp [noStart] at start
    obtain ⟨others, awake⟩ := inSession.awake_step own inside noStart stepped
    obtain ⟨_, session, exclusion, delivering, _⟩ := inSession
    exact
      { others := others
        session := session.step inside single alone
        exclusion := exclusion.step session inside single alone
        delivering := delivering.step session exclusion inside single alone
        awake := awake }
  · -- A thread of an earlier session returns, and the session does not see it.
    push Not at own
    obtain ⟨thid, choice, rfl, old⟩ := own
    obtain ⟨others, session, exclusion, delivering, awake⟩ := inSession
    obtain ⟨returned, same⟩ := old_thread_step old (others thid old) stepped
    rw [← same] at session exclusion delivering
    subst returned
    refine ⟨fun other earlier => ?_, session, exclusion, delivering, ?_⟩
    · by_cases here : other = thid
      · subst here
        simp [EventPc.ended]
      · simpa [here] using others other earlier
    · simpa [Ne.symm old] using awake

/-- Where the module is at rest with an empty queue at the end of a session, a new start prepares
the next one.
-/
theorem InSession.restarts {s t : State cfg} (inSession : InSession s) (rest : AtRest s)
    (empty : s.sh.g.gHead = 0) (begun : s.step (.loader .start) = some t)
    : Preparing t := by
  obtain ⟨rfl, unstarted⟩ := start_cases begun
  have state : s.sh.g.gState ≠ .started := fun started => by
    have isStarted : s.loader.isStarted = true := inSession.session.state.mp started
    simp [isStarted] at unstarted
  obtain ⟨running, _, nodes, delivery⟩ := inSession.delivering
  obtain rfl : nodes = [] := delivery.queue.head_eq_null.mp empty
  have delivery : Delivery s.sh (s.alone.threads s.sh.g.gThid) [] := delivery
  exact rest.preparing state
    { delivery with known := List.prefix_rfl, passed := by simpa using delivery.passed } running

/-- The freshly loaded image is ready for the first session. -/
theorem preparing_loaded (cfg : Config) : Preparing (State.loaded cfg) := by
  have before : BeforeSession (State.loaded cfg) := (starting .init rfl).before
  refine ⟨before.state, delivery_empty before.head before.live before.history rfl,
    fun thid => Or.inl (before.early thid), ?_, rfl, fun pc l place => ?_⟩
  · intro thread call api engaged
    cases thread <;> contradiction
  · contradiction

/-- What holds at a point of a run, in a session or between two. -/
def Staged (s : State cfg) : Prop :=
  if s.loader.inSession then InSession s else Preparing s

/-- Every step of an orderly run keeps it. -/
theorem Staged.step {s t : State cfg} {action : Action cfg} (staged : Staged s)
    (reach : (machine cfg).Reachable Orderly s) (orderly : Orderly s action)
    (stepped : s.step action = some t)
    : Staged t := by
  unfold Staged at staged ⊢
  by_cases inside : s.loader.inSession = true
  · rw [if_pos inside] at staged
    cases start : action.isStart with
    | true =>
        obtain rfl : action = .loader .start := by
          cases action with
          | loader choice => cases choice <;> first | rfl | contradiction
          | _ => contradiction
        obtain ⟨entered, _⟩ := start_cases stepped
        rcases orderly start with loaded | ⟨rest, empty⟩
        · simp [loaded, LoaderPc.inSession] at inside
        · rw [if_neg (by simp [entered, LoaderPc.inSession])]
          exact staged.restarts rest empty stepped
    | false =>
        have single : SingleSession s action := fun begins => by simp [start] at begins
        rw [if_pos (inSession_step single inside stepped)]
        exact staged.step inside start stepped
  · rw [if_neg inside] at staged
    have rest (start : action.isStart = true) : AtRest s :=
      (orderly start).elim (atRest_of_loaded reach) And.left
    rcases staged.step (by simpa using inside) rest stepped with ⟨outside, preparing⟩ | begins
    · rwa [if_neg (by simp [outside])]
    · rw [if_pos (by simp [begins.loader, LoaderPc.inSession])]
      exact begins.inSession

/-- In every run of orderly sessions: between the sessions the next one is prepared, and in each
session everything is as in a first one.
-/
theorem staged {s : State cfg} (reach : (machine cfg).Reachable Orderly s) : Staged s :=
  System.Reachable.invariant reach (preparing_loaded cfg)
    (fun _ _ _ reach staged orderly stepped => staged.step reach orderly stepped)

-----------------------------------------------------------------------------------------
-- What all sessions guarantee
-----------------------------------------------------------------------------------------

/-- The guarantees for the whole history, over all sessions: the queue is memory safe and holds the
accepted messages that have not been freed, in the order of acceptance; the messages passed to the
handlers are the first accepted ones, each once; a waiting event thread has been woken up for what
is queued; and one thread at a time is between its semaphore calls.
-/
structure Guarantees (s : State cfg) : Prop where
  queue
    : ∃ nodes, QueueSafe s nodes
        ∧ s.sh.k.mem.stamps nodes
          = ((accepted s.sh.history).map Prod.fst).filter
              (fun stamp => stamp ∉ freed s.sh.history)
  inOrder : delivered s.sh.history <+: accepted s.sh.history
  once : ((delivered s.sh.history).map Prod.fst).Nodup
  wakeUp
    : ∀ thid evid, s.threads thid = .waitFlag evid → s.sh.g.gHead ≠ 0 →
        ∃ bits, s.sh.k.evflags evid = some bits ∧ bits &&& evFlush ≠ 0
  exclusive
    : ∀ thread other, s.locked thread = true → s.locked other = true → thread = other

/-- Where the queue, the event thread and the history agree, the queue is memory safe. -/
theorem Delivery.queueSafe {s : State cfg} {nodes : List Addr}
    (delivery : Delivery s.sh (s.threads s.sh.g.gThid) nodes) (running : s.crashed = false)
    (pool : nodes ≠ [] → s.sh.k.vpls s.sh.g.gVplid = true)
    : QueueSafe s nodes := by
  have unique := delivery.stamps_nodup
  rw [delivery.removed] at unique
  obtain ⟨freedOnce, _, apart⟩ := List.nodup_append.mp unique
  exact
    { running := running
      chain := delivery.queue.chain
      acyclic := delivery.queue.chain.nodup
      live := fun a => (delivery.queue.live a).symm
      pool := fun a live => delivery.queue.pool a ((delivery.queue.live a).mp live)
      locals := delivery.known
      freedOnce := freedOnce
      freedOrLive := fun stamp => by
        rw [delivery.removed, List.mem_append]
        rfl
      notBoth := fun stamp gone queued => apart stamp gone stamp queued rfl
      unlinkedFirst := fun ev m n place => by
        rw [place] at delivery
        obtain ⟨rest, rfl, _⟩ := delivery.removing
        have queue : Queue s.sh ([] ++ m :: rest) := delivery.queue
        obtain ⟨sh', removed, removes⟩ := removeDeleteMsg_removes queue (pool (by simp))
        exact ⟨sh', rest, rfl, removed, removes⟩ }

/-- The same agreement orders the history. -/
theorem Delivery.inOrder {sh : Shared cfg} {place : EventPc} {nodes : List Addr}
    (delivery : Delivery sh place nodes)
    : delivered sh.history <+: accepted sh.history
      ∧ ((delivered sh.history).map Prod.fst).Nodup := by
  have inOrder : delivered sh.history <+: accepted sh.history := ⟨_, delivery.passed⟩
  exact ⟨inOrder, delivery.stamps_nodup.sublist (inOrder.map Prod.fst).sublist⟩

/-- The guarantees between the sessions: nobody is inside, and nothing is queued. -/
theorem Preparing.guarantees {s : State cfg} (preparing : Preparing s) : Guarantees s := by
  obtain ⟨head, live⟩ := preparing.emptied.empty
  have known : (s.threads s.sh.g.gThid).known = [] := by
    have idle := preparing.idle s.sh.g.gThid
    cases place : s.threads s.sh.g.gThid <;>
      simp_all [EventPc.early, EventPc.ended, EventPc.known]
  have delivery : Delivery s.sh (s.threads s.sh.g.gThid) [] :=
    preparing.emptied.stays_empty head live ⟨[], by simp, by simp⟩ known
  have unlocked (thread : ThreadRef) : s.locked thread = false := by
    cases thread with
    | event thid =>
        have idle := preparing.idle thid
        cases place : s.threads thid <;>
          simp_all [EventPc.early, EventPc.ended, State.locked, EventPc.locked]
    | client n => exact preparing.settled.unlocked n
  exact
    { queue := ⟨[], delivery.queueSafe preparing.running (by simp), delivery.stamps_eq⟩
      inOrder := delivery.inOrder.1
      once := delivery.inOrder.2
      wakeUp := fun thid evid waits => by
        have idle := preparing.idle thid
        simp [waits, EventPc.early, EventPc.ended] at idle
      exclusive := fun thread other locked => by simp [unlocked thread] at locked }

/-- The guarantees in a session. -/
theorem InSession.guarantees {s : State cfg} (inSession : InSession s) : Guarantees s := by
  obtain ⟨others, session, exclusion, ⟨running, _, nodes, delivery⟩, awake⟩ := id inSession
  have delivery : Delivery s.sh (s.alone.threads s.sh.g.gThid) nodes := delivery
  rw [s.alone_self] at delivery
  have locked (thread : ThreadRef) : s.alone.locked thread = s.locked thread := by
    cases thread with
    | client n => rfl
    | event thid =>
        by_cases own : thid = s.sh.g.gThid
        · subst own
          simp [State.locked]
        · rw [State.locked, s.alone_other own, State.locked]
          rcases others thid own with gone | gone
          · rw [gone]
          · cases place : s.threads thid <;> simp_all [EventPc.ended, EventPc.locked]
  refine
    { queue := ⟨nodes, delivery.queueSafe running fun _ => session.vpl, delivery.stamps_eq⟩
      inOrder := delivery.inOrder.1
      once := delivery.inOrder.2
      wakeUp := fun thid evid waits queued => ?_
      exclusive := fun thread other first second => ?_ }
  · obtain rfl := inSession.self waits (by simp) rfl
    obtain rfl : evid = s.sh.g.gEvid :=
      session.evid s.sh.g.gThid evid (by simpa using waits)
    obtain ⟨bits, flag⟩ := Option.isSome_iff_exists.mp session.evflag
    have flag : s.sh.k.evflags s.sh.g.gEvid = some bits := flag
    refine ⟨bits, flag, ?_⟩
    rw [waits] at awake
    rcases awake with set | covered | ⟨ev, other⟩
    · simpa [Shared.flagged, Shared.flag, flag] using set
    · exact absurd covered (by simp [Covered, EventPc.Passing, queued])
    · simp at other
  · obtain ⟨holder, _, guarded⟩ := exclusion.owned
    exact guarded.exclusive ((locked thread).trans first) ((locked other).trans second)

/-- In every run of any number of sessions, successful or failed starts and calls of _stop, in which
each new start finds the module at rest with an empty queue, the guarantees hold for the whole
history: the sessions before do not disturb a later one.
-/
theorem sessions_safe {s : State cfg} (reach : (machine cfg).Reachable Orderly s)
    : Guarantees s := by
  have holds := staged reach
  unfold Staged at holds
  split at holds
  · exact holds.guarantees
  · exact holds.guarantees

/-- The first session: a message is delivered, the event thread answers EV_STOP_OK, and _stop
returns before that thread does.
-/
def firstSession : List (Action .shipped) :=
  loopRun ++ kprintfRun 100 ++ eventRun 7 ++ [.event 13 (.ret 0 3 (List.replicate 19 66))]
    ++ eventRun 14 ++ stopRun ++ eventRun 8 ++ [.loader .go]

/-- The second one, from its start up to the delivery of another message. The thread of the first
one returns in it.
-/
def secondSession : List (Action .shipped) :=
  restartRun ++ [.loader .go, .event 13 .go] ++ List.replicate 13 (.event 23 .go)
    ++ [.event 23 (.found true)] ++ List.replicate 2 (.event 23 .go) ++ kprintfRun 300
    ++ List.replicate 5 (.event 23 .go)

/-- Witness: the message of a second session is being delivered after that of the first one. -/
theorem sessions_safe_run
    : ∃ s : State .shipped,
        ((s.sh.history.filter (· = .initReturns 0)).length = 2
          ∧ delivered s.sh.history = accepted s.sh.history
          ∧ (accepted s.sh.history).map Prod.fst = [0, 1] ∧ freed s.sh.history = [0])
        ∧ Guarantees s := by
  have done : ((machine .shipped).run OneClient (machine .shipped).init firstSession).any
      (fun s => s.loader = .stopped ∧ s.threads s.sh.g.gThid = .returning ∧ s.clients 0 = none
        ∧ s.sh.g.gHead = 0
        ∧ (s.step (.loader .start)).any (fun first =>
          ((machine .shipped).run NoStart first secondSession).any (fun t =>
            (t.sh.history.filter (· = .initReturns 0)).length = 2
            ∧ delivered t.sh.history = accepted t.sh.history
            ∧ (accepted t.sh.history).map Prod.fst = [0, 1]
            ∧ freed t.sh.history = [0])) = true) = true := by
    decide +kernel
  obtain ⟨s, reach, holds⟩ := System.exists_of_run done
  obtain ⟨stopped, returning, outside, empty, restarts⟩ := of_decide_eq_true holds
  obtain ⟨first, begun, later⟩ := Option.any_eq_true _ _ |>.mp restarts
  obtain ⟨t, path, counts⟩ := System.exists_path_of_run later
  have inside : s.loader.inSession = true := by rw [stopped]; rfl
  have single : (machine .shipped).Reachable SingleSession s := reach.mono fun _ _ one => one.1
  have rest : AtRest s := by
    refine ⟨fun thid => ?_, settled_of_oneClient reach inside outside (by rw [returning]; rfl)⟩
    by_cases own : thid = s.sh.g.gThid
    · subst own
      rw [returning]
      exact Or.inr rfl
    · exact Or.inl ((session single inside).others thid own)
  have orderly : (machine .shipped).Reachable Orderly s :=
    single.mono fun _ _ single start => Or.inl (single start)
  have begun : (machine .shipped).step s (.loader .start) = some first := begun
  have restarted : (machine .shipped).Reachable Orderly t :=
    (orderly.step (fun _ => Or.inr ⟨rest, empty⟩) begun).path
      (path.mono fun _ _ noStart start => absurd (start.symm.trans noStart) (by simp))
  exact ⟨t, of_decide_eq_true counts, sessions_safe restarted⟩

end LibKprintf
