import LibKprintf.Queue.Progress
import LibKprintf.Stop.Drain

/-! The handshake of _stop with the event thread: once EV_TERMINATE is posted the event thread
can run on until it has set EV_STOP_OK, unless _stop has overtaken its start-up loop.
-/

namespace LibKprintf

open Foundation

variable {cfg : Config}

/-- Whether the event thread is in its start-up loop. -/
def EventPc.polls : EventPc → Bool
  | .poll | .pollDelay => true
  | _ => false

/-- Whether _stop has posted EV_FLUSH and EV_TERMINATE. -/
def LoaderPc.posted : LoaderPc → Bool
  | .stop (.waitStopOk _) | .stopped => true
  | _ => false

/-- The events are posted at the end of a session that has left `STATE_STARTED`. -/
theorem LoaderPc.of_posted {pc : LoaderPc} (posted : pc.posted = true)
    : pc.inSession = true ∧ pc.isStarted = false := by
  cases pc with
  | stop pc => cases pc <;> simp_all [LoaderPc.posted, LoaderPc.inSession, LoaderPc.isStarted]
  | stopped => exact ⟨rfl, rfl⟩
  | loaded | init | resident | failed => contradiction

/-- The actions of init, the event thread, _stop and Kprintf: no client and no callback calls
an exported function.
-/
def Action.ofHandshake : Action cfg → Bool
  | .client .. | .event _ (.call _) => false
  | _ => true

/-- A single session of init, the event thread, _stop and Kprintf. -/
def Handshaking (s : State cfg) (action : Action cfg) : Prop :=
  SingleSession s action ∧ action.ofHandshake = true

/-- Such a session in which _stop stores `STATE_STOPPED` only after the event thread has left
its start-up loop.
-/
def NotOvertaking (s : State cfg) (action : Action cfg) : Prop :=
  Handshaking s action
    ∧ match action, s.loader with
      | .loader _, .stop .setStopped => (s.threads s.sh.g.gThid).polls = false
      | _, _ => True

instance (s : State cfg) (action : Action cfg) : Decidable (Handshaking s action) :=
  inferInstanceAs (Decidable (_ ∧ _))

instance (s : State cfg) (action : Action cfg) : Decidable (NotOvertaking s action) := by
  unfold NotOvertaking
  split <;> infer_instance

/-- The event thread's own plain steps are among these actions. -/
theorem OwnStep.notOvertaking {thid : Uid} {s : State cfg} {action : Action cfg}
    (own : OwnStep (.event thid) s action)
    : NotOvertaking s action := by
  refine ⟨⟨own.single, ?_⟩, ?_⟩
  · cases action with
    | event id choice => cases choice <;> simp_all [OwnStep, Choice.plain, Action.ofHandshake]
    | client n choice => simp [OwnStep] at own
    | kprintf | loader | overRegister => exact own.elim
  · cases action with
    | event | client | kprintf | overRegister => exact trivial
    | loader => exact own.elim

/-- No callback is inside an exported function, EV_TERMINATE is not lost once it is posted,
and the event thread is past its start-up loop once the module is stopped.
-/
structure Completing (sh : Shared cfg) (pc : EventPc) (loader : LoaderPc) : Prop where
  nested : pc.nested = none
  posted : loader.posted = true → sh.flagged evTerminate ∨ pc.Terminates
  past : loader.isStarted = false → pc.polls = false

/-- The start-up loop is entered from itself only. -/
theorem EventEffect.polls {thid : Uid} {sh sh' : Shared cfg} {pc pc' : EventPc}
    (effect : EventEffect thid sh pc sh' pc') (polls : pc'.polls = true)
    : pc.polls = true := by
  cases effect with
  | move move =>
      cases move with
      | sleeps | polls | starts => rfl
      | _ => contradiction
  | @register api sh' api' choice => cases api' <;> contradiction
  | @flush ev pc sh' pc' choice => cases pc' <;> contradiction
  | callRegister | wake | acquire | release | resend | stopOk => contradiction

/-- A posted EV_TERMINATE stays in the event flag until it wakes the event thread up, which
then ends.
-/
theorem EventEffect.keepsPosted {thid : Uid} {sh sh' : Shared cfg} {pc pc' : EventPc}
    (effect : EventEffect thid sh pc sh' pc')
    (flag : (sh.k.evflags sh.g.gEvid).isSome = true)
    (captured : ∀ evid, pc = .waitFlag evid → evid = sh.g.gEvid)
    (posted : sh.flagged evTerminate ∨ pc.Terminates)
    : sh'.flagged evTerminate ∨ pc'.Terminates := by
  rcases posted with set | terminates
  · cases effect.flags captured with
    | stays same => exact Or.inl (by rwa [Shared.flagged, same])
    | prints printed =>
        exact Or.inl (((kprintf_flag printed flag).2 evTerminate (by decide)).mpr set)
    | wakes before =>
        subst before
        exact Or.inr set
    | resends same | stopOk same => exact Or.inl ((flagged_of_set flag same).mpr (Or.inl set))
  · refine Or.inr ?_
    cases effect with
    | move move =>
        cases move with
        | flushes | skips | semaFails | resent => exact terminates
        | ends | returns => exact trivial
        | continues unset => exact absurd terminates unset
        | _ => exact terminates.elim
    | register | callRegister | wake => exact terminates.elim
    | @flush ev pc sh' pc' choice => cases pc' <;> exact terminates
    | acquire | release | resend => exact terminates
    | stopOk => exact trivial

/-- A Kprintf call does not take EV_TERMINATE back. -/
theorem Completing.kprintf {sh sh' : Shared cfg} {pc : EventPc} {loader : LoaderPc} {during}
    (completing : Completing sh pc loader) (flag : (sh.k.evflags sh.g.gEvid).isSome = true)
    (printed : kprintf sh during = .next sh')
    : Completing sh' pc loader := by
  refine { completing with posted := fun posted => (completing.posted posted).imp_left ?_ }
  exact ((kprintf_flag printed flag).2 evTerminate (by decide)).mpr

/-- The event thread's steps keep the invariant, unless a callback calls an exported
function.
-/
theorem Completing.event {thid : Uid} {sh sh' : Shared cfg} {pc pc' : EventPc}
    {loader : LoaderPc} {choice : Choice cfg} (completing : Completing sh pc loader)
    (flag : (sh.k.evflags sh.g.gEvid).isSome = true)
    (captured : ∀ evid, pc = .waitFlag evid → evid = sh.g.gEvid)
    (quiet : ∀ call, choice ≠ .call call)
    (stepped : eventStep thid sh pc choice = .next (sh', pc'))
    : Completing sh' pc' loader where
  nested := by
    cases nested : pc'.nested with
    | none => rfl
    | some running =>
        rcases eventStep_nested stepped nested with ⟨before, _⟩ | ⟨called, _⟩
        · exact absurd completing.nested before
        · exact absurd called (quiet _)
  posted := fun posted =>
    (eventStep_effect stepped).keepsPosted flag captured (completing.posted posted)
  past := fun stopped => by
    by_contra polls
    have before := (eventStep_effect stepped).polls (by simpa using polls)
    simp [completing.past stopped] at before

/-- _stop keeps the invariant, unless it overtakes the start-up loop. -/
theorem Completing.stop {sh sh' : Shared cfg} {pc : EventPc} {place place' : LoaderPc}
    {choice : Choice cfg} (completing : Completing sh pc place)
    (flag : (sh.k.evflags sh.g.gEvid).isSome = true)
    (captured : ∀ evid, place = .stop (.waitStopOk evid) → evid = sh.g.gEvid)
    (state : sh.g.gState = .started ↔ place.isStarted = true)
    (behind : place = .stop .setStopped → pc.polls = false)
    (effect : StopEffect sh place choice sh' place')
    : Completing sh' pc place' := by
  obtain ⟨nested, posted, past⟩ := completing
  cases effect with
  | enter outside =>
      by_cases started : sh.g.gState = .started
      · simp only [stopEntry, started, if_true]
        exact ⟨nested, by simp [LoaderPc.posted], by simp [LoaderPc.isStarted]⟩
      · have stopped : place = .stopped := by
          refine outside.resolve_left ?_
          rintro rfl
          exact started (state.mpr rfl)
        subst stopped
        simp only [stopEntry, started, if_false]
        exact ⟨nested, posted, past⟩
  | announce printed =>
      exact ⟨nested, by simp [LoaderPc.posted], by simp [LoaderPc.isStarted]⟩
  | unhook => exact ⟨nested, by simp [LoaderPc.posted], by simp [LoaderPc.isStarted]⟩
  | setStopped => exact ⟨nested, by simp [LoaderPc.posted], fun _ => behind rfl⟩
  | post =>
      refine ⟨nested, fun _ => Or.inl ?_, fun _ => past rfl⟩
      exact (flagged_setEventFlag flag).mpr (Or.inr (by decide))
  | acknowledged took =>
      have kept := takeEventFlag_flagged evTerminate took (captured _ rfl) (by decide)
      exact ⟨nested, fun _ => (posted rfl).imp_left kept.mpr, fun _ => past rfl⟩
  | giveUp => exact ⟨nested, fun _ => posted rfl, fun _ => past rfl⟩

/-- Every step of such a session keeps the invariant. -/
theorem Completing.step {s t : State cfg} {action : Action cfg}
    (completing : Completing s.sh (s.threads s.sh.g.gThid) s.loader) (session : Session s)
    (inside : s.loader.inSession = true) (behind : NotOvertaking s action)
    (stepped : s.step action = some t)
    : Completing t.sh (t.threads t.sh.g.gThid) t.loader := by
  obtain ⟨⟨single, ofHandshake⟩, behind⟩ := behind
  cases State.step_cases stepped with
  | crash => exact completing
  | kprintf printed =>
      have gThid := (kprintf_frame printed).gThid
      simpa only [gThid] using completing.kprintf session.evflag printed
  | @event thid choice sh' pc' ran =>
      obtain rfl := session.runs ran
      have gThid := (eventStep_effect ran).frame.gThid
      have quiet (call : ApiCall) : choice ≠ .call call := by
        rintro rfl
        simp [Action.ofHandshake] at ofHandshake
      simpa only [gThid, Function.update_self] using
        completing.event session.evflag (session.evid _) quiet ran
  | client => simp [Action.ofHandshake] at ofHandshake
  | @loader choice sh' threads' loader' ran =>
      obtain ⟨effect, rfl⟩ := loaderStep_effect ran inside (not_start single inside)
      have gThid := effect.frame_gThid
      simp only [gThid]
      refine completing.stop session.evflag session.stopEvid session.state ?_ effect
      intro place
      simpa [place] using behind
  | overRegister => exact ⟨completing.nested, completing.posted, completing.past⟩

/-- The invariant holds in every state of such a session. -/
theorem completing {s : State cfg} (reach : (machine cfg).Reachable NotOvertaking s)
    (inside : s.loader.inSession = true)
    : Completing s.sh (s.threads s.sh.g.gThid) s.loader := by
  refine session_invariant
    (P := fun s => Completing s.sh (s.threads s.sh.g.gThid) s.loader)
    (fun _ _ behind => behind.1.1) ?_ ?_ reach inside
  · intro s _ fresh
    refine ⟨?_, by simp [fresh.loader, LoaderPc.posted],
      by simp [fresh.loader, LoaderPc.isStarted]⟩
    rcases fresh.polling with polls | polls <;> simp [polls, EventPc.nested]
  · exact fun _ _ _ reach inside completing behind stepped =>
      completing.step (session (reach.mono (fun _ _ behind => behind.1.1)) inside) inside behind
        stepped

/-- Without client steps no client is inside an exported function. -/
theorem no_clients {s : State cfg} (reach : (machine cfg).Reachable Handshaking s) (n : Nat)
    : s.clients n = none := by
  refine System.Reachable.invariant (P := fun s => ∀ n, s.clients n = none) reach
    (fun _ => rfl) ?_ n
  intro s action t _ nobody allowed stepped
  cases State.step_cases stepped with
  | client => simp [Handshaking, Action.ofHandshake] at allowed
  | crash | kprintf | event | loader | overRegister => exact nobody

/-- Some plain steps of the event thread alone lead to its end with EV_STOP_OK set, unless it has
set the bit before, which _stop may then have taken.
-/
def CanAcknowledge (s : State cfg) : Prop :=
  ∃ t, (machine cfg).Path (OwnStep (.event s.sh.g.gThid)) s t
    ∧ t.threads s.sh.g.gThid = .exited ∧ (t.sh.flagged evStopOk ∨ s.sh.Acknowledged)

/-- A semaphore that the event thread waits for is free, because nobody else can hold it. -/
theorem semaphore_free {s : State cfg} (session : Session s) (exclusion : Exclusion s)
    (nobody : ∀ n, s.clients n = none)
    (outside : (s.threads s.sh.g.gThid).locked = false) {semid : Uid}
    (waits : (s.threads s.sh.g.gThid).waitsFor = some semid)
    : ∃ k, s.sh.k.takeSema semid (.event s.sh.g.gThid) = some k := by
  obtain ⟨holder, sema, guarded⟩ := exclusion.owned
  obtain rfl := session.semid (.event s.sh.g.gThid) semid waits
  cases holder with
  | none => simp [Kernel.takeSema, sema, Sema.binary]
  | some thread =>
      have held := (guarded thread).mpr rfl
      cases thread with
      | event thid =>
          by_cases self : thid = s.sh.g.gThid
          · subst self
            simp [State.locked, outside] at held
          · simp [State.locked, session.others thid self, EventPc.locked] at held
      | client n => simp [State.locked, nobody n] at held

/-- In such a session nothing blocks the event thread once EV_TERMINATE is posted. -/
theorem unblocked_of_posted {s : State cfg} (reach : (machine cfg).Reachable NotOvertaking s)
    (posted : s.loader.posted = true) (running : s.threads s.sh.g.gThid ≠ .exited)
    : (s.threads s.sh.g.gThid).Unblocked s.sh.g.gThid s.sh := by
  obtain ⟨inside, stopped⟩ := LoaderPc.of_posted posted
  have single := reach.mono (fun _ _ behind => behind.1.1)
  have session := session single inside
  have completing := completing reach inside
  have free := semaphore_free session (exclusion single inside)
    (no_clients (reach.mono (fun _ _ behind => behind.1)))
  have past := completing.past stopped
  cases place : s.threads s.sh.g.gThid with
  | absent => exact absurd place session.alive.1
  | dormant => exact absurd place session.alive.2
  | poll | pollDelay => simp [place, EventPc.polls] at past
  | exited => exact absurd place running
  | callRegister =>
      show s.sh.g.gState ≠ .started
      simp [session.state, stopped]
  | register api =>
      intro semid waits
      refine free ?_ ?_
      · simpa [place, EventPc.locked] using ApiPc.not_locked_of_waitsFor waits
      · simpa [place, EventPc.waitsFor] using waits
  | waitSema ev semid =>
      exact free (by simp [place, EventPc.locked]) (by simp [place, EventPc.waitsFor])
  | waitFlag evid =>
      obtain rfl := session.evid _ evid place
      have set := completing.posted posted
      rw [place] at set
      obtain ⟨bits, flag⟩ := Option.isSome_iff_exists.mp session.evflag
      have terminate : bits &&& evTerminate ≠ 0 := by
        simpa [Shared.flagged, Shared.flag, flag] using set.resolve_right id
      have awake : bits &&& (evFlush ||| evTerminate) ≠ 0 := by
        rw [BitVec.and_or_distrib_left]
        simp only [ne_eq, BitVec.ofNat_eq_ofNat, BitVec.or_eq_zero_iff, not_and]
        exact fun _ => terminate
      obtain ⟨k, took⟩ : ∃ k, s.sh.k.takeEventFlag s.sh.g.gEvid (evFlush ||| evTerminate)
          = some (k, bits) := by
        simp only [Kernel.takeEventFlag, flag, if_neg awake, Option.some.injEq, Prod.mk.injEq,
          and_true, exists_eq']
      exact ⟨k, bits, took, terminate⟩
  | flush ev pc =>
      intro call api nested
      have none := completing.nested
      rw [place] at none
      simp [EventPc.nested, nested] at none
  | _ => exact trivial

/-- Once EV_TERMINATE is posted the event thread is past its start-up loop, and can run on by
itself until it has set EV_STOP_OK.
-/
def HandshakeOpen (s : State cfg) : Prop :=
  s.loader.posted = true → (s.threads s.sh.g.gThid).polls = false ∧ CanAcknowledge s

/-- A state that the event thread's own steps from `s` lead to after the posting. -/
structure Completes (s t : State cfg) : Prop where
  reach : (machine cfg).Reachable NotOvertaking t
  posted : t.loader.posted = true
  self : t.sh.g.gThid = s.sh.g.gThid
  set : (t.threads s.sh.g.gThid).ended = true → t.sh.flagged evStopOk ∨ s.sh.Acknowledged

/-- Where the posting has been done the path begins. -/
theorem completes_refl {s : State cfg} (reach : (machine cfg).Reachable NotOvertaking s)
    (posted : s.loader.posted = true)
    : Completes s s where
  reach := reach
  posted := posted
  self := rfl
  set := fun ended =>
    Or.inr ((acknowledged_iff (reach.mono fun _ _ behind => behind.1.1)
      (LoaderPc.of_posted posted).1).mpr ended)

/-- Before its end the event thread can take a step that brings it nearer, and the last call before
the end sets EV_STOP_OK.
-/
theorem Completes.progress {s t : State cfg} (completes : Completes s t)
    (running : t.threads s.sh.g.gThid ≠ .exited)
    : ∃ action u, OwnStep (.event s.sh.g.gThid) t action ∧ (machine cfg).step t action = some u
        ∧ Completes s u
        ∧ eventRank u.sh (u.threads s.sh.g.gThid) < eventRank t.sh (t.threads s.sh.g.gThid) := by
  obtain ⟨reach, posted, self, set⟩ := completes
  rw [← self] at running set ⊢
  have single := reach.mono (fun _ _ behind => behind.1.1)
  have inside := (LoaderPc.of_posted posted).1
  have session := session single inside
  obtain ⟨crashed, ready, nodes, delivery⟩ := delivering single inside
  obtain ⟨choice, plain, sh', pc', stepped, lower⟩ := eventStep_progress t.sh.g.gThid delivery
    session.vpl (ready t.sh.g.gThid) (unblocked_of_posted reach posted running)
  have own : OwnStep (.event t.sh.g.gThid) t (.event t.sh.g.gThid choice) := ⟨rfl, plain⟩
  have moved := State.step_event crashed stepped
  have effect := eventStep_effect stepped
  refine ⟨_, _, own, moved, ⟨reach.step own.notOvertaking moved, posted,
    effect.frame.gThid.trans self, fun ended => ?_⟩, by simpa using lower⟩
  rw [← self] at ended
  simp only [Function.update_self] at ended
  rcases effect.ends ended with ⟨_, rfl⟩ | ⟨before, rfl⟩
  · exact Or.inl (acknowledge_acknowledged session.evflag).1
  · exact set before

/-- In every session in which _stop does not overtake the event thread's start-up loop, the
handshake can always complete; by the progress rule for the rank of the event thread.
-/
theorem handshake_open {s : State cfg} (reach : (machine cfg).Reachable NotOvertaking s)
    : HandshakeOpen s := by
  intro posted
  obtain ⟨inside, stopped⟩ := LoaderPc.of_posted posted
  refine ⟨(completing reach inside).past stopped, ?_⟩
  obtain ⟨t, path, completes, exited⟩ := System.exists_path_of_rank
    (Q := fun t : State cfg => t.threads s.sh.g.gThid = .exited)
    (fun t => eventRank t.sh (t.threads s.sh.g.gThid))
    (fun t (completes : Completes s t) running => completes.progress running)
    (completes_refl reach posted)
  exact ⟨t, path, exited, completes.set (by rw [exited]; rfl)⟩

/-- Witness: _stop has posted EV_TERMINATE while the event thread is at its wait. -/
theorem handshake_open_run
    : ∃ s : State .shipped,
        (s.loader.posted = true ∧ s.threads 13 = .waitFlag 11) ∧ HandshakeOpen s := by
  have done : ((machine .shipped).run NotOvertaking (machine .shipped).init
      (loopRun ++ stopRun)).any
      (fun s => s.loader.posted = true ∧ s.threads 13 = .waitFlag 11) = true := by
    decide +kernel
  obtain ⟨s, reach, holds⟩ := System.exists_of_run done
  exact ⟨s, by simpa using holds, handshake_open reach⟩

/-- In a module that is not started the event thread does not leave its start-up loop by
itself, and changes nothing there.
-/
theorem polls_forever {s t : State cfg} {thid : Uid} (polls : (s.threads thid).polls = true)
    (stopped : s.sh.g.gState ≠ .started) (path : (machine cfg).Path (OwnStep (.event thid)) s t)
    : (t.threads thid).polls = true ∧ t.sh = s.sh := by
  refine System.Path.preserves
    (P := fun t => (t.threads thid).polls = true ∧ t.sh = s.sh) path ⟨polls, rfl⟩ ?_
  intro t action u ⟨polls, same⟩ own stepped
  cases State.step_cases stepped with
  | crash => exact ⟨polls, same⟩
  | @event id choice sh' pc' ran =>
      obtain rfl : id = thid := by simpa [OwnStep] using own.1
      simp only [Function.update_self]
      cases place : t.threads id with
      | poll =>
          rw [place, same] at ran
          simp only [eventStep, Choice.onGo_eq_next, stopped, if_false, StepResult.next.injEq,
            Prod.mk.injEq] at ran
          obtain ⟨_, rfl, rfl⟩ := ran
          exact ⟨rfl, rfl⟩
      | pollDelay =>
          rw [place, same] at ran
          simp only [eventStep, Choice.onGo_eq_next, StepResult.next.injEq,
            Prod.mk.injEq] at ran
          obtain ⟨_, rfl, rfl⟩ := ran
          exact ⟨rfl, rfl⟩
      | _ => simp [place, EventPc.polls] at polls
  | client => exact absurd own.1 (by simp)
  | kprintf | loader | overRegister => exact own.elim

/-- Counterexample: _stop is called before the event thread has looked at `g_state` for the
first time. It never sees `STATE_STARTED`, and nothing it can do leads to EV_STOP_OK.
-/
theorem not_handshake_open
    : ∃ s : State .shipped, (machine .shipped).Reachable Handshaking s
        ∧ s.loader.posted = true ∧ (s.threads s.sh.g.gThid).polls = true
        ∧ ¬ CanAcknowledge s
        ∧ ∀ t, (machine .shipped).Path (OwnStep (.event s.sh.g.gThid)) s t →
            ¬ t.sh.flagged evStopOk ∧ ¬ t.sh.Acknowledged := by
  have done : ((machine .shipped).run Handshaking (machine .shipped).init
      (startRun ++ stopRun)).any
      (fun s => s.loader.posted = true ∧ (s.threads s.sh.g.gThid).polls = true
        ∧ s.sh.g.gState ≠ .started ∧ ¬ s.sh.flagged evStopOk ∧ ¬ s.sh.Acknowledged) = true := by
    decide +kernel
  obtain ⟨s, reach, holds⟩ := System.exists_of_run done
  obtain ⟨posted, polls, stopped, unset⟩ := of_decide_eq_true holds
  refine ⟨s, reach, posted, polls, ?_, fun t path => ?_⟩
  · intro ⟨t, path, exited, _⟩
    have forever := (polls_forever polls stopped path).1
    simp [exited, EventPc.polls] at forever
  · rwa [(polls_forever polls stopped path).2]

end LibKprintf
