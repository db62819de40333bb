import LibKprintf.Output.DefaultHandler
import LibKprintf.Output.Fairness
import LibKprintf.Stop.Handshake

/-! The end of a session under a fair scheduler. Once _stop has been called and the event thread is
past its start-up loop, _stop returns, the event thread passes on what is queued and ends, and
nothing is left.
-/

namespace LibKprintf

open Foundation Filter

variable {cfg : Config}

-----------------------------------------------------------------------------------------
-- How far the event thread is from its end
-----------------------------------------------------------------------------------------

/-- How many steps flush_messages has left, at most, for a number of queued messages, where each
callback counts as one step.
-/
def FlushPc.endRank (slots queued : Nat) : FlushPc → Nat
  | .callback m i cb _ => FlushPc.rank slots queued (.callback m i cb none)
  | pc => pc.rank slots queued

/-- The same for the event thread, once EV_TERMINATE is posted. -/
def EventPc.endRank (slots timeout queued : Nat) : EventPc → Nat
  | .absent | .dormant | .poll | .pollDelay | .exited => 0
  | .returning => 1
  | .stopOk => 2
  | .testTerminate ev => 3 + roundRank slots queued ev
  | .signal ev | .resendDelay ev => 4 + roundRank slots queued ev
  | .flush ev pc => 5 + pc.endRank slots queued + roundRank slots queued ev
  | .resend ev => 5 + roundRank slots queued ev
  | .waitSema ev _ => queued * messageRank slots + 8 + roundRank slots queued ev
  | .testFlush ev => queued * messageRank slots + 9 + roundRank slots queued ev
  | .waitFlag _ => queued * messageRank slots + 10
  | .loop => queued * messageRank slots + 11
  | .usbDelay => queued * messageRank slots + 12
  | .detect t => queued * messageRank slots + 13 + 2 * (timeout - t.toNat)
  | .detectDelay t => queued * messageRank slots + 14 + 2 * (timeout - (t + 1000).toNat)
  | .register api => queued * messageRank slots + 14 + 2 * timeout + api.rank slots
  | .callRegister => queued * messageRank slots + 15 + 2 * timeout

/-- The rank of the event thread in a state. -/
def State.endRank (s : State cfg) : Nat :=
  (s.threads s.sh.g.gThid).endRank cfg.kprintfMaxHandlers cfg.kprintfPsplinkDetectTimeout.toNat
    s.sh.k.mem.live.card

section Steps

variable {thid : Uid} {sh sh' : Shared cfg} {choice : Choice cfg}

/-- Nothing is appended to the queue of a stopped module. -/
theorem Shared.Prints.mem_stopped (prints : sh.Prints sh') (stopped : sh.g.gState ≠ .started)
    : sh'.k.mem = sh.k.mem := by
  rcases prints with same | ⟨during, printed⟩
  · exact same.mem
  · rcases kprintf_effect printed with rfl | ⟨started, _⟩
    · rfl
    · exact absurd started stopped

/-- Outside the callbacks every step brings flush_messages nearer its end. -/
theorem flushStep_ends {ev : U32} {pc : FlushPc} {pc' : Option FlushPc} {nodes : List Addr}
    (delivery : Delivery sh (.flush ev pc) nodes) (pool : sh.k.vpls sh.g.gVplid = true)
    (outside : pc.inCallback = false) (stepped : flushStep thid sh pc choice = .next (sh', pc'))
    : sh'.k.mem.live.card ≤ sh.k.mem.live.card
      ∧ pc'.elim 0 (FlushPc.endRank cfg.kprintfMaxHandlers sh'.k.mem.live.card)
          < pc.endRank cfg.kprintfMaxHandlers sh.k.mem.live.card := by
  cases pc with
  | callback => contradiction
  | start | advance n =>
      simp only [flushStep, Choice.onGo_eq_next, StepResult.next.injEq, Prod.mk.injEq] at stepped
      obtain ⟨_, rfl, rfl⟩ := stepped
      simp [FlushPc.endRank, FlushPc.rank]
  | test m =>
      simp only [flushStep, Choice.onGo_eq_next, StepResult.next.injEq] at stepped
      obtain ⟨_, stepped⟩ := stepped
      split at stepped <;> cases stepped
      · simp [FlushPc.endRank, FlushPc.rank]
      · rename_i nonnull
        have known : (EventPc.flush ev (.test m)).known = [m] := by
          simp [EventPc.known, FlushPc.known, nonnull]
        obtain ⟨rest, rfl⟩ := delivery.first known
        have card : sh.k.mem.live.card = rest.length + 1 := delivery.queue.card
        simp only [Shared.note_k, le_refl, true_and, Option.elim_some, FlushPc.endRank,
          FlushPc.rank, card, Nat.add_sub_cancel, Nat.succ_mul, messageRank]
        omega
  | slot m i =>
      simp only [flushStep, Choice.onGo_eq_next, StepResult.next.injEq] at stepped
      obtain ⟨_, stepped⟩ := stepped
      split at stepped
      · split at stepped <;> cases stepped <;>
          simp only [le_refl, true_and, Option.elim_some, FlushPc.endRank, FlushPc.rank] <;> omega
      · cases stepped
        simp only [le_refl, true_and, Option.elim_some, FlushPc.endRank, FlushPc.rank]
        omega
  | invoke m i =>
      simp only [flushStep, Choice.onGo_eq_next] at stepped
      obtain ⟨_, stepped⟩ := stepped
      split at stepped
      · split at stepped
        · cases stepped
          simp only [Shared.note_k, le_refl, true_and, Option.elim_some, FlushPc.endRank,
            FlushPc.rank, Option.elim_none]
          omega
        · contradiction
      · contradiction
  | delivered m =>
      simp only [flushStep, Choice.onGo_eq_next, StepResult.next.injEq, Prod.mk.injEq] at stepped
      obtain ⟨_, rfl, rfl⟩ := stepped
      simp [FlushPc.endRank, FlushPc.rank]
  | readNext m =>
      simp only [flushStep, Choice.onGo_eq_next, StepResult.map_eq_next, Prod.mk.injEq] at stepped
      obtain ⟨_, n, _, rfl, rfl⟩ := stepped
      simp [FlushPc.endRank, FlushPc.rank]
  | remove m n =>
      simp only [flushStep, StepResult.map_eq_next, Choice.onGo_eq_next,
        StepResult.ofMemory_eq_next] at stepped
      obtain ⟨_, ⟨after, ret⟩, removed, same⟩ := stepped
      cases same
      obtain ⟨rest, rfl, removal, _⟩ := delivery.removes pool removed
      have before : sh.k.mem.live.card = rest.length + 1 := delivery.queue.card
      have later : after.k.mem.live.card = rest.length := removal.queue.card
      simp only [Option.elim_some, FlushPc.endRank, FlushPc.rank, before, later,
        Nat.add_sub_cancel]
      omega

/-- In a stopped module a step inside a callback takes flush_messages no farther from its end, and
the return of the callback brings it nearer.
-/
theorem flushStep_endsCallback {pc : FlushPc} {pc' : Option FlushPc}
    (stopped : sh.g.gState ≠ .started) (inside : pc.inCallback = true)
    (stepped : flushStep thid sh pc choice = .next (sh', pc'))
    : sh'.k.mem.live.card = sh.k.mem.live.card
      ∧ ∃ next, pc' = some next
        ∧ next.endRank cfg.kprintfMaxHandlers sh.k.mem.live.card
            ≤ pc.endRank cfg.kprintfMaxHandlers sh.k.mem.live.card
        ∧ (next.inCallback = false →
            next.endRank cfg.kprintfMaxHandlers sh.k.mem.live.card
              < pc.endRank cfg.kprintfMaxHandlers sh.k.mem.live.card) := by
  cases flushStep_effect stepped with
  | read place | observe _ place => simp [place] at inside
  | @callbackReturns m i cb res len msg mem stored =>
      have kept : mem.live = sh.k.mem.live := (Mem.store_text stored).1
      refine ⟨by simp [kept], _, rfl, ?_⟩
      split <;> simp only [FlushPc.endRank, FlushPc.rank, Option.elim_none] <;> omega
  | callbackCalls => exact ⟨rfl, _, rfl, le_rfl, by simp [FlushPc.inCallback]⟩
  | nested called =>
      refine ⟨?_, _, rfl, le_rfl, by simp [FlushPc.inCallback]⟩
      rw [Shared.Prints.mem_stopped (apiCallStep_queue called) stopped]
  | remove => contradiction

/-- Once EV_TERMINATE is posted, every step of the event thread outside the callbacks brings it
nearer its end: no wait fails, and it is woken up with EV_TERMINATE.
-/
theorem eventStep_ends {pc pc' : EventPc} {nodes : List Addr} (delivery : Delivery sh pc nodes)
    (pool : sh.k.vpls sh.g.gVplid = true) (stopped : sh.g.gState ≠ .started)
    (past : pc.polls = false) (counts : pc.InTime cfg.kprintfPsplinkDetectTimeout)
    (fits : cfg.kprintfPsplinkDetectTimeout.toNat ≤ lastTimeout)
    (awake
      : ∀ evid k ev, pc = .waitFlag evid →
          sh.k.takeEventFlag evid (evFlush ||| evTerminate) = some (k, ev) →
          ev &&& evTerminate ≠ 0)
    (serves : ∀ code, choice ≠ .fail code) (outside : pc.inCallback = false)
    (stepped : eventStep thid sh pc choice = .next (sh', pc'))
    : pc'.endRank cfg.kprintfMaxHandlers cfg.kprintfPsplinkDetectTimeout.toNat
          sh'.k.mem.live.card
        < pc.endRank cfg.kprintfMaxHandlers cfg.kprintfPsplinkDetectTimeout.toNat
          sh.k.mem.live.card := by
  cases pc with
  | absent | dormant | exited => contradiction
  | poll | pollDelay => simp [EventPc.polls] at past
  | flush ev pc =>
      simp only [eventStep, StepResult.map_eq_next] at stepped
      obtain ⟨⟨next, place⟩, flushed, same⟩ := stepped
      obtain ⟨fewer, lower⟩ := flushStep_ends delivery pool outside flushed
      have round := roundRank_mono cfg.kprintfMaxHandlers fewer ev
      cases place <;> cases same <;>
        simp only [EventPc.endRank, Option.elim_none, Option.elim_some] at lower ⊢ <;>
        omega
  | register api =>
      simp only [eventStep, StepResult.map_eq_next] at stepped
      obtain ⟨⟨next, api'⟩, called, same⟩ := stepped
      have kept : next.k.mem = sh.k.mem :=
        Shared.Prints.mem_stopped (apiCallStep_queue called) stopped
      obtain ⟨ret, rfl, rfl, rfl⟩ | ⟨place, ran, rfl⟩ := apiCallStep_cases called <;> cases same
      · simp only [EventPc.endRank, ApiPc.rank, Shared.note_k]
        omega
      · have lower := apiStep_lower ran
        simp only [EventPc.endRank, kept]
        omega
  | waitFlag evid =>
      simp only [eventStep, Choice.onKernel_eq_next, StepResult.map_eq_next,
        StepResult.ofBlocking_eq_next, Prod.mk.injEq] at stepped
      obtain ⟨_, ⟨k, ev⟩, took, rfl, rfl⟩ | ⟨code, _, failed, _⟩ := stepped
      · obtain ⟨evflags, rfl⟩ := takeEventFlag_shape took
        simp only [EventPc.endRank, roundRank, if_pos (awake evid _ ev rfl took)]
        omega
      · exact absurd failed (serves code)
  | waitSema ev semid =>
      simp only [eventStep, Choice.onKernel_eq_next, StepResult.map_eq_next,
        StepResult.ofBlocking_eq_next, Prod.mk.injEq] at stepped
      obtain ⟨_, k, took, rfl, rfl⟩ | ⟨code, _, failed, _⟩ := stepped
      · obtain ⟨semas, rfl⟩ := takeSema_shape took
        simp only [EventPc.endRank, FlushPc.endRank, FlushPc.rank]
        omega
      · exact absurd failed (serves code)
  | detect t =>
      simp only [eventStep] at stepped
      split at stepped
      · rename_i below
        split at stepped
        · cases stepped
          simp only [EventPc.endRank]
          omega
        · cases stepped
          have later : (t + 1000).toNat = t.toNat + 1000 := time_later counts below fits
          simp only [EventPc.endRank, later]
          omega
        · contradiction
      · simp only [Choice.onGo_eq_next, StepResult.next.injEq, Prod.mk.injEq] at stepped
        obtain ⟨_, rfl, rfl⟩ := stepped
        simp only [EventPc.endRank]
        omega
  | callRegister =>
      simp only [eventStep, Choice.onGo_eq_next, StepResult.next.injEq, Prod.mk.injEq] at stepped
      obtain ⟨_, rfl, rfl⟩ := stepped
      simp [EventPc.endRank, apiEntry, registerEntry, stopped, ApiPc.rank]
  | testFlush ev =>
      simp only [eventStep, Choice.onGo_eq_next, StepResult.next.injEq, Prod.mk.injEq] at stepped
      obtain ⟨_, rfl, rfl⟩ := stepped
      split <;> simp only [EventPc.endRank] <;> omega
  | testTerminate ev =>
      simp only [eventStep, Choice.onGo_eq_next, StepResult.next.injEq, Prod.mk.injEq] at stepped
      obtain ⟨_, rfl, rfl⟩ := stepped
      by_cases set : ev &&& evTerminate ≠ 0
      · simp only [if_pos set, EventPc.endRank]
        omega
      · simp only [if_neg set, EventPc.endRank, roundRank]
        omega
  | signal ev =>
      simp only [eventStep, Choice.onGo_eq_next, StepResult.next.injEq, Prod.mk.injEq] at stepped
      obtain ⟨_, rfl, rfl⟩ := stepped
      obtain ⟨semas, same⟩ := signalSema_shape sh.k sh.g.gSemid
      simp [EventPc.endRank, same]
  | detectDelay | usbDelay | loop | resend | resendDelay | stopOk | returning =>
      simp only [eventStep, Choice.onGo_eq_next, StepResult.next.injEq, Prod.mk.injEq] at stepped
      obtain ⟨_, rfl, rfl⟩ := stepped
      simp [EventPc.endRank]

/-- Inside a callback the event thread of a stopped module gets no farther from its end, and nearer
with the return.
-/
theorem eventStep_endsCallback {pc pc' : EventPc} (stopped : sh.g.gState ≠ .started)
    (inside : pc.inCallback = true) (stepped : eventStep thid sh pc choice = .next (sh', pc'))
    : pc'.endRank cfg.kprintfMaxHandlers cfg.kprintfPsplinkDetectTimeout.toNat
          sh'.k.mem.live.card
        ≤ pc.endRank cfg.kprintfMaxHandlers cfg.kprintfPsplinkDetectTimeout.toNat
          sh.k.mem.live.card
      ∧ (pc'.inCallback = false →
          pc'.endRank cfg.kprintfMaxHandlers cfg.kprintfPsplinkDetectTimeout.toNat
              sh'.k.mem.live.card
            < pc.endRank cfg.kprintfMaxHandlers cfg.kprintfPsplinkDetectTimeout.toNat
              sh.k.mem.live.card) := by
  cases pc with
  | flush ev pc =>
      simp only [eventStep, StepResult.map_eq_next] at stepped
      obtain ⟨⟨next, place⟩, flushed, same⟩ := stepped
      obtain ⟨card, place, rfl, nearer, returns⟩ := flushStep_endsCallback stopped inside flushed
      cases same
      simp only [EventPc.endRank, card]
      exact ⟨by omega, fun out => Nat.add_lt_add_right (Nat.add_lt_add_left (returns out) 5) _⟩
  | _ => contradiction

end Steps

-----------------------------------------------------------------------------------------
-- What holds from the call of _stop on
-----------------------------------------------------------------------------------------

/-- The steps of a module that is being stopped: no callback re-enters it, and no kernel call of its
event thread fails.
-/
def Stopping (s : State cfg) (action : Action cfg) : Prop :=
  NoReentry s action ∧ action.failsEvent = false

instance (s : State cfg) (action : Action cfg) : Decidable (Stopping s action) :=
  inferInstanceAs (Decidable (_ ∧ _))

/-- How many steps _stop has left. -/
def LoaderPc.stopRank : LoaderPc → Nat
  | .stop .announce => 5
  | .stop .unhook => 4
  | .stop .setStopped => 3
  | .stop .post => 2
  | .stop (.waitStopOk _) => 1
  | .loaded | .init .. | .resident | .failed | .stopped => 0

/-- Whether _stop runs past its test, or has returned. -/
def LoaderPc.stops : LoaderPc → Bool
  | .stop _ | .stopped => true
  | .loaded | .init .. | .resident | .failed => false

/-- From the call of _stop on, the event thread is past its start-up loop, a posted EV_TERMINATE is
not lost, and the event thread that takes it covers what is queued.
-/
structure Ending (s : State cfg) : Prop where
  stops : s.loader.stops = true
  past : (s.threads s.sh.g.gThid).polls = false
  posted
    : s.loader.posted = true →
        s.sh.flagged evTerminate ∨ (s.threads s.sh.g.gThid).Terminates
  draining : Draining s.sh (s.threads s.sh.g.gThid)

section Ending

variable {s t : State cfg} {action : Action cfg}

/-- A session in which _stop is called is not over. -/
theorem Ending.inside (ending : Ending s) : s.loader.inSession = true := by
  have stops := ending.stops
  cases place : s.loader <;> simp_all [LoaderPc.stops, LoaderPc.inSession]

/-- A module with its events posted is not started. -/
theorem not_started_of_posted (session : Session s) (posted : s.loader.posted = true)
    : s.sh.g.gState ≠ .started := by
  simp [session.state, (LoaderPc.of_posted posted).2]

/-- At the call of _stop nothing is posted yet. -/
theorem ending_of_called (reach : (machine cfg).Reachable SingleSession s)
    (called : s.loader = .stop .announce) (past : (s.threads s.sh.g.gThid).polls = false)
    : Ending s := by
  have inside : s.loader.inSession = true := by rw [called]; rfl
  have started : s.sh.g.gState = .started := by
    rw [(session reach inside).state, called]
    rfl
  have ends := ends_stopped reach inside
  exact ⟨by rw [called]; rfl, past, by simp [called, LoaderPc.posted],
    fun set => absurd started (ends.posted set),
    fun terminates => absurd started (ends.taken terminates)⟩

/-- _stop goes on to its end, and has posted EV_TERMINATE before it. -/
theorem StopEffect.ending {sh sh' : Shared cfg} {pc : EventPc} {place place' : LoaderPc}
    {choice : Choice cfg} (effect : StopEffect sh place choice sh' place')
    (stops : place.stops = true) (flag : (sh.k.evflags sh.g.gEvid).isSome = true)
    (captured : ∀ evid, place = .stop (.waitStopOk evid) → evid = sh.g.gEvid)
    (state : sh.g.gState = .started ↔ place.isStarted = true)
    (posted : place.posted = true → sh.flagged evTerminate ∨ pc.Terminates)
    : place'.stops = true
      ∧ (place'.posted = true → sh'.flagged evTerminate ∨ pc.Terminates)
      ∧ (place'.stopRank < place.stopRank ∨ place = .stopped ∧ place' = .stopped) := by
  cases effect with
  | enter outside =>
      obtain rfl : place = .stopped := by
        refine outside.resolve_left ?_
        rintro rfl
        contradiction
      have stopped : ¬ sh.g.gState = .started := by simp [state, LoaderPc.isStarted]
      rw [stopEntry, if_neg stopped]
      exact ⟨rfl, posted, Or.inr ⟨rfl, rfl⟩⟩
  | announce | unhook | setStopped =>
      exact ⟨rfl, by simp [LoaderPc.posted], Or.inl (by simp [LoaderPc.stopRank])⟩
  | post =>
      refine ⟨rfl, fun _ => Or.inl ?_, Or.inl (by simp [LoaderPc.stopRank])⟩
      exact (flagged_setEventFlag flag).mpr (Or.inr (by decide))
  | acknowledged took =>
      have kept := takeEventFlag_flagged evTerminate took (captured _ rfl) (by decide)
      exact ⟨rfl, fun _ => (posted rfl).imp_left kept.mpr, Or.inl (by simp [LoaderPc.stopRank])⟩
  | giveUp => exact ⟨rfl, fun _ => posted rfl, Or.inl (by simp [LoaderPc.stopRank])⟩

/-- Every step keeps the invariant; the module manager's own steps bring _stop nearer its end. -/
theorem Ending.step (ending : Ending s) (reach : (machine cfg).Reachable SingleSession s)
    (allowed : Stopping s action) (stepped : s.step action = some t)
    : Ending t
      ∧ ((∃ choice, action = .loader choice) →
          t.loader.stopRank < s.loader.stopRank ∨ s.loader = .stopped ∧ t.loader = .stopped)
      ∧ ((¬ ∃ choice, action = .loader choice) → t.loader = s.loader) := by
  obtain ⟨⟨single, _⟩, serves⟩ := allowed
  have inside := ending.inside
  have session := session reach inside
  have drains : Drains s action := by
    refine ⟨single, ?_⟩
    cases action with
    | event thid choice => cases choice <;> first | rfl | contradiction
    | _ => rfl
  have draining := ending.draining.step reach inside drains stepped
  have running := (delivery (reach.step single stepped)).1
  cases State.step_cases stepped with
  | crash => contradiction
  | kprintf printed =>
      have gThid := (kprintf_frame printed).gThid
      have kept := (kprintf_flag printed session.evflag).2 evTerminate (by decide)
      refine ⟨⟨ending.stops, ?_, fun posted => ?_, draining⟩, by simp, fun _ => rfl⟩
      · simpa only [gThid] using ending.past
      · simpa only [gThid, kept] using ending.posted posted
  | @event thid choice sh' pc' ran =>
      obtain rfl := session.runs ran
      have effect := eventStep_effect ran
      refine ⟨⟨ending.stops, ?_, fun posted => ?_, draining⟩, by simp, fun _ => rfl⟩
      · by_contra polls
        simp only [effect.frame.gThid, Function.update_self, Bool.not_eq_false] at polls
        exact absurd ending.past (by simp [effect.polls polls])
      · simpa only [effect.frame.gThid, Function.update_self] using
          effect.keepsPosted session.evflag (session.evid _) (ending.posted posted)
  | client ran =>
      have effect := clientStep_effect ran
      have gThid := effect.frame.gThid
      refine ⟨⟨ending.stops, ?_, fun posted => ?_, draining⟩, by simp, fun _ => rfl⟩
      · simpa only [gThid] using ending.past
      · have before := ending.posted posted
        rcases effect.flags with kept | ⟨during, printed⟩
        · simpa only [gThid, Shared.flagged, kept] using before
        · simpa only [gThid, (kprintf_flag printed session.evflag).2 evTerminate (by decide)]
            using before
  | loader ran =>
      obtain ⟨effect, rfl⟩ := loaderStep_effect ran inside (not_start single inside)
      have gThid := effect.frame_gThid
      obtain ⟨stops, posted, nearer⟩ := effect.ending ending.stops session.evflag session.stopEvid
        session.state ending.posted
      refine ⟨⟨stops, ?_, ?_, draining⟩, fun _ => nearer, fun other => absurd ⟨_, rfl⟩ other⟩
      · simpa only [gThid] using ending.past
      · simpa only [gThid] using posted
  | overRegister =>
      exact ⟨⟨ending.stops, ending.past, ending.posted, draining⟩, by simp, fun _ => rfl⟩

/-- The event thread is not blocked in a module that is being stopped. -/
def StopReady (s : State cfg) : Prop :=
  ∃ action t, EventSteps s action ∧ Stopping s action ∧ s.step action = some t

/-- Once EV_TERMINATE is posted, only a client between its semaphore calls blocks the event thread.
-/
theorem Ending.unblocked (ending : Ending s) (reach : (machine cfg).Reachable NoReentry s)
    (posted : s.loader.posted = true) (running : s.threads s.sh.g.gThid ≠ .exited)
    (clients : ∀ n, s.locked (.client n) = false)
    : (s.threads s.sh.g.gThid).Unblocked s.sh.g.gThid s.sh := by
  have single := reach.mono fun _ _ reentry => reentry.1
  have session := session single ending.inside
  have past := ending.past
  have free := semaphore_open single ending.inside clients
  cases place : s.threads s.sh.g.gThid with
  | absent => exact absurd place session.alive.1
  | dormant => exact absurd place session.alive.2
  | poll | pollDelay => simp [place, EventPc.polls] at past
  | exited => exact absurd place running
  | callRegister => exact not_started_of_posted session posted
  | register api =>
      intro semid waits
      refine free ?_ ?_
      · simpa [place, EventPc.locked] using ApiPc.not_locked_of_waitsFor waits
      · simpa [place, EventPc.waitsFor] using waits
  | waitSema ev semid =>
      exact free (by simp [place, EventPc.locked]) (by simp [place, EventPc.waitsFor])
  | waitFlag evid =>
      obtain rfl := session.evid _ evid place
      have set := ending.posted posted
      rw [place] at set
      obtain ⟨bits, flag⟩ := Option.isSome_iff_exists.mp session.evflag
      have terminate : bits &&& evTerminate ≠ 0 := by
        simpa [Shared.flagged, Shared.flag, flag] using set.resolve_right id
      have awake : bits &&& (evFlush ||| evTerminate) ≠ 0 := by
        rw [BitVec.and_or_distrib_left]
        simp only [ne_eq, BitVec.ofNat_eq_ofNat, BitVec.or_eq_zero_iff, not_and]
        exact fun _ => terminate
      obtain ⟨k, took⟩ : ∃ k, s.sh.k.takeEventFlag s.sh.g.gEvid (evFlush ||| evTerminate)
          = some (k, bits) := by
        simp only [Kernel.takeEventFlag, flag, if_neg awake, Option.some.injEq, Prod.mk.injEq,
          and_true, exists_eq']
      exact ⟨k, bits, took, terminate⟩
  | flush ev pc =>
      intro call api nested
      exact callbacks_run reach ending.inside s.sh.g.gThid call api
        (by simp [place, EventPc.nested, nested])
  | _ => exact trivial

/-- So it is ready. -/
theorem Ending.ready (ending : Ending s) (reach : (machine cfg).Reachable NoReentry s)
    (posted : s.loader.posted = true) (running : s.threads s.sh.g.gThid ≠ .exited)
    (clients : ∀ n, s.locked (.client n) = false)
    : StopReady s := by
  have single := reach.mono fun _ _ reentry => reentry.1
  obtain ⟨crashed, ready, nodes, delivery⟩ := delivering single ending.inside
  obtain ⟨choice, plain, sh', pc', ran, _⟩ := eventStep_progress s.sh.g.gThid delivery
    (session single ending.inside).vpl (ready _) (ending.unblocked reach posted running clients)
  have own : OwnStep (.event s.sh.g.gThid) s (.event s.sh.g.gThid choice) := ⟨rfl, plain⟩
  refine ⟨_, _, ⟨choice, rfl⟩, ⟨own.noReentry, ?_⟩, State.step_event crashed ran⟩
  cases choice <;> first | rfl | contradiction

/-- In a stopped module only the event thread changes the queue. -/
theorem mem_kept (reach : (machine cfg).Reachable SingleSession s)
    (inside : s.loader.inSession = true) (single : SingleSession s action)
    (stopped : s.sh.g.gState ≠ .started) (idle : ¬ EventSteps s action)
    (stepped : s.step action = some t)
    : t.sh.k.mem = s.sh.k.mem := by
  have running := (delivery (reach.step single stepped)).1
  cases State.step_cases stepped with
  | crash => contradiction
  | kprintf printed => exact Shared.Prints.mem_stopped (Or.inr ⟨_, printed⟩) stopped
  | event ran =>
      obtain rfl := (session reach inside).runs ran
      exact absurd ⟨_, rfl⟩ idle
  | client ran => exact (clientStep_effect ran).prints.mem_stopped stopped
  | loader ran =>
      obtain ⟨effect, rfl⟩ := loaderStep_effect ran inside (not_start single inside)
      exact effect.prints.mem_stopped stopped
  | overRegister => rfl

/-- Once EV_TERMINATE is posted, no step takes the event thread farther from its end, and its own
steps outside the callbacks, or out of one, bring it nearer.
-/
theorem Ending.endRank_step (ending : Ending s)
    (fits : cfg.kprintfPsplinkDetectTimeout.toNat ≤ lastTimeout)
    (reach : (machine cfg).Reachable SingleSession s) (posted : s.loader.posted = true)
    (allowed : Stopping s action) (stepped : s.step action = some t)
    : t.endRank ≤ s.endRank
      ∧ (EventSteps s action →
          (s.threads s.sh.g.gThid).inCallback = false
            ∨ (t.threads t.sh.g.gThid).inCallback = false →
          t.endRank < s.endRank) := by
  obtain ⟨⟨single, _⟩, serves⟩ := allowed
  have inside := ending.inside
  have session := session reach inside
  have stopped := not_started_of_posted session posted
  obtain ⟨_, nodes, delivery⟩ := delivery reach
  rcases event_or_stays reach inside single stepped with ⟨choice, rfl, ran⟩ | ⟨idle, same⟩
  · cases calls : (s.threads s.sh.g.gThid).inCallback with
    | true =>
        obtain ⟨stays, returns⟩ := eventStep_endsCallback stopped calls ran
        exact ⟨stays, fun _ out => returns (out.resolve_left (by simp))⟩
    | false =>
        suffices less : t.endRank < s.endRank from ⟨less.le, fun _ _ => less⟩
        refine eventStep_ends delivery session.vpl stopped ending.past (inTime fits reach inside)
          fits (fun evid k ev waiting took => ?_) ?_ calls ran
        · have set := ending.posted posted
          rw [waiting] at set
          have before := (takeEventFlag_flag took (session.evid _ evid waiting)).1
          have flagged := set.resolve_right id
          rwa [Shared.flagged, before] at flagged
        · rintro code rfl
          contradiction
  · refine ⟨?_, fun own => absurd own idle⟩
    rw [State.endRank, State.endRank, same, mem_kept reach inside single stopped idle stepped]

end Ending

-----------------------------------------------------------------------------------------
-- Fair runs
-----------------------------------------------------------------------------------------

/-- The event thread is not passed over for ever while it is ready again and again, _stop goes on
until it has returned, no client is interrupted for ever between its semaphore calls, and every
callback returns.
-/
structure FairStop (run : (machine cfg).InfiniteRun Stopping) : Prop where
  event : run.StronglyFair StopReady EventSteps
  loader
    : run.WeaklyFair (fun s => s.loader ≠ .stopped)
        (fun _ action => ∃ choice, action = .loader choice)
  clients
    : ∀ n, run.WeaklyFair (fun s => s.locked (.client n) = true)
        (fun _ action => ∃ choice, action = .client n choice)
  callbacks
    : ∀ n, ∃ m ≥ n, ((run.state m).threads (run.state m).sh.g.gThid).inCallback = false

section Run

variable {run : (machine cfg).InfiniteRun Stopping}

/-- A run stays reachable without re-entry, and keeps the invariant. -/
theorem stopping_reach (reach : (machine cfg).Reachable NoReentry (run.state 0))
    (ending : Ending (run.state 0)) (k : Nat)
    : (machine cfg).Reachable NoReentry (run.state k) ∧ Ending (run.state k) := by
  induction k with
  | zero => exact ⟨reach, ending⟩
  | succ k ih =>
      obtain ⟨reach, ending⟩ := ih
      have single := reach.mono fun _ _ reentry => reentry.1
      exact ⟨reach.step (run.allowed k).1 (run.stepped k),
        (ending.step single (run.allowed k) (run.stepped k)).1⟩

/-- So it is the run of a session. -/
theorem stopping_session (reach : (machine cfg).Reachable NoReentry (run.state 0))
    (ending : Ending (run.state 0))
    : SessionRun run :=
  ⟨fun k => (stopping_reach reach ending k).1.mono fun _ _ reentry => reentry.1,
    fun k => (stopping_reach reach ending k).2.inside, fun k => (run.allowed k).1.1⟩

/-- _stop returns; by the rank rule. -/
theorem FairStop.stop_returns (fair : FairStop run)
    (reach : (machine cfg).Reachable NoReentry (run.state 0)) (ending : Ending (run.state 0))
    : ∃ m, (run.state m).loader = .stopped := by
  have within := stopping_session reach ending
  have step (k : Nat) :=
    ((stopping_reach reach ending k).2.step (within.reach k) (run.allowed k) (run.stepped k)).2
  suffices later : ∃ m ≥ 0, (run.state m).loader = .stopped from
    later.imp fun _ both => both.2
  refine System.InfiniteRun.eventually_of_rank (fun s : State cfg => s.loader = .stopped)
    (fun s : State cfg => s.loader.stopRank) (fun k _ running _ => ?_) (fun running m _ => ?_)
  · by_cases own : ∃ choice, run.action k = .loader choice
    · exact ((step k).1 own).elim le_of_lt fun done => absurd done.1 running
    · exact le_of_eq (congrArg LoaderPc.stopRank ((step k).2 own))
  · obtain ⟨k, later, own⟩ := fair.loader.exists_taken (m := m)
      fun _ k _ => running k k.zero_le
    exact ⟨k, later, ((step k).1 own).resolve_right fun done => running k k.zero_le done.1⟩

/-- After that the module manager does nothing more. -/
theorem stays_stopped (reach : (machine cfg).Reachable NoReentry (run.state 0))
    (ending : Ending (run.state 0)) {m n : Nat} (returned : (run.state m).loader = .stopped)
    (later : m ≤ n)
    : (run.state n).loader = .stopped := by
  have within := stopping_session reach ending
  induction n, later using Nat.le_induction with
  | base => exact returned
  | succ n _ ih =>
      obtain ⟨own, other⟩ := ((stopping_reach reach ending n).2.step (within.reach n)
        (run.allowed n) (run.stepped n)).2
      by_cases moves : ∃ choice, run.action n = .loader choice
      · refine (own moves).elim (fun less => ?_) And.right
        rw [ih] at less
        exact absurd less (Nat.not_lt_zero _)
      · exact (other moves).trans ih

/-- The event thread ends; by the rank rule. -/
theorem FairStop.event_ends (fair : FairStop run)
    (fits : cfg.kprintfPsplinkDetectTimeout.toNat ≤ lastTimeout)
    (reach : (machine cfg).Reachable NoReentry (run.state 0)) (ending : Ending (run.state 0))
    {m : Nat} (returned : (run.state m).loader = .stopped)
    : ∃ k ≥ m, (run.state k).threads (run.state k).sh.g.gThid = .exited := by
  have within := stopping_session reach ending
  have posted (k : Nat) (later : k ≥ m) : (run.state k).loader.posted = true := by
    rw [stays_stopped reach ending returned later]
    rfl
  have step (k : Nat) (later : k ≥ m) :=
    (stopping_reach reach ending k).2.endRank_step fits (within.reach k) (posted k later)
      (run.allowed k) (run.stepped k)
  refine System.InfiniteRun.eventually_of_rank
    (fun s : State cfg => s.threads s.sh.g.gThid = .exited) State.endRank
    (fun k later _ _ => (step k later).1) (fun running j after => ?_)
  refine within.falls fair.callbacks (fun j after => ?_) State.endRank
    (fun k later => (step k later).2) after
  refine fair.event.exists_taken fun _ i after' => ?_
  obtain ⟨k, later, outside⟩ := within.clients_out fair.clients i
  have late : k ≥ m := (after.trans after').trans later
  obtain ⟨reached, ending⟩ := stopping_reach reach ending k
  exact ⟨k, later, ending.ready reached (posted k late) (running k late) outside⟩

/-- A thread that has returned does not run any more. -/
theorem stays_exited (within : SessionRun run) {m n : Nat}
    (exited : (run.state m).threads (run.state m).sh.g.gThid = .exited) (later : m ≤ n)
    : (run.state n).threads (run.state n).sh.g.gThid = .exited := by
  induction n, later using Nat.le_induction with
  | base => exact exited
  | succ n _ ih =>
      rcases event_or_stays (within.reach n) (within.inside n) (within.single n) (run.stepped n)
        with ⟨choice, _, ran⟩ | ⟨_, same⟩
      · rw [ih] at ran
        contradiction
      · exact same.trans ih

/-- The module has come to its end: the event thread has set EV_STOP_OK, _stop and the event thread
have returned, nothing is queued, every accepted message has been passed to the handlers in order,
and its block is freed.
-/
structure ShutDown (s : State cfg) : Prop where
  returned : s.loader = .stopped
  acknowledged : s.sh.Acknowledged
  exited : s.threads s.sh.g.gThid = .exited
  empty : s.sh.g.gHead = 0
  delivered : delivered s.sh.history = accepted s.sh.history
  freed : freed s.sh.history = (accepted s.sh.history).map Prod.fst

/-- In every fair run in which _stop has been called while the event thread is past its start-up
loop, the module comes to its end, whatever the clients and the Kprintf calls do meanwhile.
-/
theorem fair_stop {run : (machine cfg).InfiniteRun Stopping} (fair : FairStop run)
    (fits : cfg.kprintfPsplinkDetectTimeout.toNat ≤ lastTimeout)
    (reach : (machine cfg).Reachable NoReentry (run.state 0))
    (called : (run.state 0).loader = .stop .announce)
    (past : ((run.state 0).threads (run.state 0).sh.g.gThid).polls = false)
    : ∃ m, ∀ n ≥ m, ShutDown (run.state n) := by
  have ending := ending_of_called (reach.mono fun _ _ reentry => reentry.1) called past
  have within := stopping_session reach ending
  obtain ⟨m, returned⟩ := fair.stop_returns reach ending
  obtain ⟨k, later, exited⟩ := fair.event_ends fits reach ending returned
  refine ⟨k, fun n after => ?_⟩
  have ended := stays_exited within exited after
  have last : ((run.state n).threads (run.state n).sh.g.gThid).ended = true := by rw [ended]; rfl
  have empty := (stopping_reach reach ending n).2.draining.empty last
  obtain ⟨_, nodes, delivery⟩ := delivery (within.reach n)
  have removed := delivery.removed
  have passed := delivery.passed
  rw [delivery.queue.head_eq_null.mp empty] at removed passed
  rw [ended] at passed
  exact ⟨stays_stopped reach ending returned (later.trans after),
    (acknowledged_iff (within.reach n) (within.inside n)).mpr last, ended, empty,
    by simpa using passed, by simpa using removed.symm⟩

end Run

/-- A run is fair that comes to rest with _stop and the event thread returned and the semaphore
free.
-/
theorem fairStop_of_rest {run : (machine cfg).InfiniteRun Stopping} {t : State cfg}
    (ends : ∀ᶠ n in atTop, run.state n = t) (reach : (machine cfg).Reachable SingleSession t)
    (returned : t.loader = .stopped) (exited : t.threads t.sh.g.gThid = .exited)
    (free : t.sh.k.semas t.sh.g.gSemid = some (.binary none))
    : FairStop run where
  event := by
    intro often
    obtain ⟨n, ready, rfl⟩ := (often.and_eventually ends).exists
    obtain ⟨_, after, ⟨choice, rfl⟩, _, stepped⟩ := ready
    simp [State.step, State.apply, exited, eventStep] at stepped
  loader := by
    intro always
    obtain ⟨k, running, rfl⟩ := (always.and ends).exists
    exact absurd returned running
  clients := by
    intro n always
    obtain ⟨k, held, rfl⟩ := (always.and ends).exists
    exact absurd held (by simp [unlocked_of_free reach (by rw [returned]; rfl) free])
  callbacks := by
    intro n
    obtain ⟨bound, rests⟩ := eventually_atTop.mp ends
    refine ⟨max n bound, le_max_left n bound, ?_⟩
    rw [rests _ (le_max_right n bound), exited]
    rfl

/-- Witness: a message is queued when _stop is called. -/
theorem fair_stop_run
    : ∃ run : (machine .shipped).InfiniteRun Stopping,
        ((accepted (run.state 0).sh.history).length = 1
          ∧ delivered (run.state 0).sh.history = [])
        ∧ ∃ m, ∀ n ≥ m, ShutDown (run.state n) := by
  have done : ((machine .shipped).run NoReentry (machine .shipped).init
      (loopRun ++ kprintfRun 100 ++ [.loader .stop])).any
      (fun s => ((accepted s.sh.history).length = 1 ∧ delivered s.sh.history = [])
        ∧ (s.loader = .stop .announce ∧ (s.threads s.sh.g.gThid).polls = false)
        ∧ ((machine .shipped).run Stopping s
          (List.replicate 4 (.loader .go) ++ eventRun 7
            ++ [.event 13 (.ret 0 3 (List.replicate 19 66))] ++ eventRun 15
            ++ [.loader .go, .overRegister 0])).any
          (fun t => t.loader = .stopped ∧ t.threads t.sh.g.gThid = .exited
            ∧ t.sh.k.semas t.sh.g.gSemid = some (.binary none)
            ∧ t.sh.k.hook = .foreign 0) = true) = true := by
    decide +kernel
  obtain ⟨s, reach, holds⟩ := System.exists_of_run done
  obtain ⟨queued, ⟨called, past⟩, later⟩ := of_decide_eq_true holds
  obtain ⟨t, path, rests⟩ := System.exists_path_of_run later
  obtain ⟨returned, exited, free, hook⟩ := of_decide_eq_true rests
  have single := (reach.path (path.mono fun _ _ allowed => allowed.1)).mono
    fun _ _ reentry => reentry.1
  have inside : t.loader.inSession = true := by rw [returned]; rfl
  have loop := overRegister_loop (delivering single inside).running hook
  obtain ⟨run, rfl, ends⟩ := path.exists_infiniteRun (a := .overRegister 0)
    ⟨⟨by simp [SingleSession, Action.isStart], rfl⟩, rfl⟩ loop
  have fair : FairStop run := fairStop_of_rest ends single returned exited free
  exact ⟨run, queued, fair_stop fair (by decide) reach called past⟩

end LibKprintf
