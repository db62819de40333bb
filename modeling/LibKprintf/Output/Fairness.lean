import LibKprintf.Foundation.Fairness
import LibKprintf.Handlers.Calls
import LibKprintf.Output.Liveness
import LibKprintf.Start.Detection
import Mathlib.Data.Prod.Lex

/-! Delivery under a fair scheduler. In every infinite run of a started module whose callbacks
return and do not re-enter it, each accepted message is at last passed to the handlers, and its
block is freed, however many other calls fall in between.
-/

namespace LibKprintf

open Foundation Filter

variable {cfg : Config}

-----------------------------------------------------------------------------------------
-- How far the event thread is from its next removal
-----------------------------------------------------------------------------------------

/-- Every step of an API function brings it nearer its end. -/
theorem apiStep_lower {thread : ThreadRef} {sh sh' : Shared cfg} {pc pc' : ApiPc}
    {choice : Choice cfg} (stepped : apiStep thread sh pc choice = .next (sh', pc'))
    : pc'.rank cfg.kprintfMaxHandlers < pc.rank cfg.kprintfMaxHandlers := by
  cases pc with
  | regWait args semid =>
      simp only [apiStep, Choice.onKernel_eq_next, StepResult.map_eq_next,
        StepResult.ofBlocking_eq_next, Prod.mk.injEq] at stepped
      obtain ⟨_, k, took, rfl, rfl⟩ | ⟨code, _, _, rfl, rfl⟩ := stepped
      · simp [ApiPc.rank]
      · refine (afterRegister_rank args.isDefaultHandler code cfg.kprintfMaxHandlers).trans ?_
        simp only [ApiPc.rank]
        omega
  | unregWait index semid =>
      simp only [apiStep, Choice.onKernel_eq_next, StepResult.map_eq_next,
        StepResult.ofBlocking_eq_next, Prod.mk.injEq] at stepped
      obtain ⟨_, k, took, rfl, rfl⟩ | ⟨code, _, _, rfl, rfl⟩ := stepped <;> simp [ApiPc.rank]
  | signal isDefaultHandler ret =>
      simp only [apiStep, Choice.onGo_eq_next, StepResult.next.injEq, Prod.mk.injEq] at stepped
      obtain ⟨_, rfl, rfl⟩ := stepped
      exact afterRegister_rank _ _ _
  | announce =>
      simp only [apiStep, StepResult.map_eq_next, Prod.mk.injEq] at stepped
      obtain ⟨_, _, rfl, rfl⟩ := stepped
      simp [ApiPc.rank]
  | dipsw =>
      simp only [apiStep, Choice.onKernel_eq_next, StepResult.next.injEq,
        Prod.mk.injEq] at stepped
      obtain ⟨_, rfl, rfl⟩ | ⟨code, _, _, rfl, rfl⟩ := stepped <;> simp [ApiPc.rank]
  | done ret => contradiction
  | regFind args i =>
      simp only [apiStep, Choice.onGo_eq_next, StepResult.next.injEq] at stepped
      obtain ⟨_, stepped⟩ := stepped
      split at stepped
      · split at stepped <;> cases stepped <;> simp only [ApiPc.rank] <;> omega
      · cases stepped
        simp only [ApiPc.rank]
        omega
  | regTestDefault | regTestCount | regSetDefault | unregTestIndex | unregTestCb | unregDefault =>
      simp only [apiStep, Choice.onGo_eq_next, StepResult.next.injEq] at stepped
      obtain ⟨_, stepped⟩ := stepped
      split at stepped <;> cases stepped <;> simp only [ApiPc.rank] <;> omega
  | regSetCb | regSetArg | regCount | unregClearCb | unregClearArg | unregCount | registerHook =>
      simp only [apiStep, Choice.onGo_eq_next, StepResult.next.injEq, Prod.mk.injEq] at stepped
      obtain ⟨_, rfl, rfl⟩ := stepped
      simp [ApiPc.rank]

/-- How many steps flush_messages has left, at most, to the removal of a message, where each
callback counts as one step. A pass that has met the end of the queue begins anew.
-/
def FlushPc.removalRank (slots : Nat) : FlushPc → Nat
  | .remove .. => 0
  | .readNext _ => 1
  | .delivered _ => 2
  | .slot _ i => 3 + 3 * (slots - i)
  | .callback _ i _ _ => 4 + 3 * (slots - (i + 1))
  | .invoke _ i => 5 + 3 * (slots - (i + 1))
  | .test m => if m = 0 then 3 * slots + 12 else 3 * slots + 4
  | .start => 3 * slots + 5
  | .advance _ => 3 * slots + 13

/-- The same for the event thread, while messages are queued. -/
def EventPc.removalRank (slots timeout : Nat) : EventPc → Nat
  | .flush _ pc => pc.removalRank slots
  | .waitSema .. => 3 * slots + 6
  | .testFlush ev => if ev &&& evFlush ≠ 0 then 3 * slots + 7 else 3 * slots + 11
  | .waitFlag _ => 3 * slots + 8
  | .loop => 3 * slots + 9
  | .testTerminate _ | .usbDelay => 3 * slots + 10
  | .signal _ | .resendDelay _ => 3 * slots + 11
  | .resend _ => 3 * slots + 12
  | .detect t => 3 * slots + 11 + 2 * (timeout - t.toNat)
  | .detectDelay t => 3 * slots + 12 + 2 * (timeout - (t + 1000).toNat)
  | .register api => 3 * slots + 12 + 2 * timeout + api.rank slots
  | .callRegister => 4 * slots + 23 + 2 * timeout
  | .poll => 4 * slots + 24 + 2 * timeout
  | .pollDelay => 4 * slots + 25 + 2 * timeout
  | .absent | .dormant | .stopOk | .returning | .exited => 0

/-- Whether the event thread is inside a handler callback. -/
def EventPc.inCallback : EventPc → Bool
  | .flush _ pc => pc.inCallback
  | _ => false

/-- Whether flush_messages is about to remove a message. -/
def FlushPc.removes : FlushPc → Bool
  | .remove .. => true
  | _ => false

/-- Whether the event thread is. -/
def EventPc.removes : EventPc → Bool
  | .flush _ pc => pc.removes
  | _ => false

/-- The time that detect_psplink has counted has not wrapped around. -/
def EventPc.InTime (timeout : U32) : EventPc → Prop
  | .detect t => 1000 ∣ t.toNat
  | .detectDelay t => 1000 ∣ t.toNat ∧ t.toNat < timeout.toNat
  | _ => True

/-- Between two polls the time does not wrap around. -/
theorem time_later {t timeout : U32} (polled : 1000 ∣ t.toNat) (below : t.toNat < timeout.toNat)
    (fits : timeout.toNat ≤ lastTimeout)
    : (t + 1000).toNat = t.toNat + 1000 := by
  have thousand : (1000 : U32).toNat = 1000 := rfl
  obtain ⟨polls, time⟩ := polled
  rw [BitVec.toNat_add, thousand]
  simp only [lastTimeout] at fits
  omega

section Steps

variable {thid : Uid} {sh sh' : Shared cfg} {choice : Choice cfg}

/-- While messages are queued, flush_messages gets nearer a removal with every step outside the
callbacks.
-/
theorem flushStep_nearer {pc : FlushPc} {pc' : Option FlushPc} (queued : sh.g.gHead ≠ 0)
    (outside : pc.inCallback = false) (stepped : flushStep thid sh pc choice = .next (sh', pc'))
    : pc.removes = true
      ∨ pc'.elim (3 * cfg.kprintfMaxHandlers + 11) (FlushPc.removalRank cfg.kprintfMaxHandlers)
          < pc.removalRank cfg.kprintfMaxHandlers := by
  cases pc with
  | start =>
      simp only [flushStep, Choice.onGo_eq_next, StepResult.next.injEq, Prod.mk.injEq] at stepped
      obtain ⟨_, rfl, rfl⟩ := stepped
      exact Or.inr (by simp [FlushPc.removalRank, queued])
  | test m =>
      simp only [flushStep, Choice.onGo_eq_next, StepResult.next.injEq] at stepped
      obtain ⟨_, stepped⟩ := stepped
      refine Or.inr ?_
      split at stepped
      · rename_i null
        cases stepped
        simp [FlushPc.removalRank, null]
      · rename_i nonnull
        cases stepped
        simp only [Option.elim_some, FlushPc.removalRank, if_neg nonnull]
        omega
  | slot m i =>
      simp only [flushStep, Choice.onGo_eq_next, StepResult.next.injEq] at stepped
      obtain ⟨_, stepped⟩ := stepped
      refine Or.inr ?_
      split at stepped
      · split at stepped <;> cases stepped <;>
          simp only [Option.elim_some, FlushPc.removalRank] <;> omega
      · cases stepped
        simp only [Option.elim_some, FlushPc.removalRank]
        omega
  | invoke m i =>
      simp only [flushStep, Choice.onGo_eq_next] at stepped
      obtain ⟨_, stepped⟩ := stepped
      refine Or.inr ?_
      split at stepped
      · split at stepped
        · cases stepped
          simp [FlushPc.removalRank]
        · contradiction
      · contradiction
  | callback => contradiction
  | delivered m =>
      simp only [flushStep, Choice.onGo_eq_next, StepResult.next.injEq, Prod.mk.injEq] at stepped
      obtain ⟨_, rfl, rfl⟩ := stepped
      exact Or.inr (by simp [FlushPc.removalRank])
  | readNext m =>
      simp only [flushStep, Choice.onGo_eq_next, StepResult.map_eq_next, Prod.mk.injEq] at stepped
      obtain ⟨_, n, _, rfl, rfl⟩ := stepped
      exact Or.inr (by simp [FlushPc.removalRank])
  | remove m n => exact Or.inl rfl
  | advance n =>
      simp only [flushStep, Choice.onGo_eq_next, StepResult.next.injEq, Prod.mk.injEq] at stepped
      obtain ⟨_, rfl, rfl⟩ := stepped
      refine Or.inr ?_
      simp only [Option.elim_some, FlushPc.removalRank]
      split <;> omega

/-- A step inside a callback takes flush_messages no farther away, and the return of the callback
brings it nearer.
-/
theorem flushStep_inCallback {pc : FlushPc} {pc' : Option FlushPc} (inside : pc.inCallback = true)
    (stepped : flushStep thid sh pc choice = .next (sh', pc'))
    : ∃ next, pc' = some next
        ∧ next.removalRank cfg.kprintfMaxHandlers ≤ pc.removalRank cfg.kprintfMaxHandlers
        ∧ (next.inCallback = false →
            next.removalRank cfg.kprintfMaxHandlers < pc.removalRank cfg.kprintfMaxHandlers) := by
  cases flushStep_effect stepped with
  | read place | observe _ place => simp [place] at inside
  | @callbackReturns m i cb res len msg mem =>
      refine ⟨_, rfl, ?_⟩
      split <;> simp only [FlushPc.removalRank] <;> omega
  | callbackCalls | nested => exact ⟨_, rfl, le_rfl, by simp [FlushPc.inCallback]⟩
  | remove => contradiction

/-- The entry of register_default_handler is as far from its end as the wait for the semaphore. -/
theorem apiEntry_rank (sh : Shared cfg)
    : (apiEntry sh .registerDefaultHandler).rank cfg.kprintfMaxHandlers
      ≤ 10 + cfg.kprintfMaxHandlers := by
  simp only [apiEntry, registerEntry]
  split <;> simp [ApiPc.rank]

/-- In a started module that has messages queued, a step of the event thread outside the callbacks
brings it nearer a removal: no wait fails, and it is woken up with EV_FLUSH.
-/
theorem eventStep_nearer {pc pc' : EventPc} (started : sh.g.gState = .started)
    (queued : sh.g.gHead ≠ 0) (lasting : ¬ pc.Terminates)
    (counts : pc.InTime cfg.kprintfPsplinkDetectTimeout)
    (fits : cfg.kprintfPsplinkDetectTimeout.toNat ≤ lastTimeout)
    (awake
      : ∀ evid k ev, pc = .waitFlag evid →
          sh.k.takeEventFlag evid (evFlush ||| evTerminate) = some (k, ev) → ev &&& evFlush ≠ 0)
    (serves : ∀ code, choice ≠ .fail code) (outside : pc.inCallback = false)
    (stepped : eventStep thid sh pc choice = .next (sh', pc'))
    : pc.removes = true
      ∨ pc'.removalRank cfg.kprintfMaxHandlers cfg.kprintfPsplinkDetectTimeout.toNat
          < pc.removalRank cfg.kprintfMaxHandlers cfg.kprintfPsplinkDetectTimeout.toNat := by
  cases pc with
  | absent | dormant | exited => contradiction
  | stopOk | returning => exact absurd trivial lasting
  | flush ev pc =>
      simp only [eventStep, StepResult.map_eq_next] at stepped
      obtain ⟨⟨next, place⟩, flushed, same⟩ := stepped
      refine (flushStep_nearer queued outside flushed).imp id fun lower => ?_
      cases place <;> cases same <;> exact lower
  | register api =>
      simp only [eventStep, StepResult.map_eq_next] at stepped
      obtain ⟨⟨next, api'⟩, called, same⟩ := stepped
      refine Or.inr ?_
      obtain ⟨ret, rfl, rfl, rfl⟩ | ⟨place, ran, rfl⟩ := apiCallStep_cases called <;> cases same
      · simp [EventPc.removalRank, ApiPc.rank]
      · have lower := apiStep_lower ran
        simp only [EventPc.removalRank]
        omega
  | waitFlag evid =>
      simp only [eventStep, Choice.onKernel_eq_next, StepResult.map_eq_next,
        StepResult.ofBlocking_eq_next, Prod.mk.injEq] at stepped
      obtain ⟨_, ⟨k, ev⟩, took, rfl, rfl⟩ | ⟨code, _, failed, _⟩ := stepped
      · refine Or.inr ?_
        simp only [EventPc.removalRank, if_pos (awake evid k ev rfl took)]
        omega
      · exact absurd failed (serves code)
  | waitSema ev semid =>
      simp only [eventStep, Choice.onKernel_eq_next, StepResult.map_eq_next,
        StepResult.ofBlocking_eq_next, Prod.mk.injEq] at stepped
      obtain ⟨_, k, took, rfl, rfl⟩ | ⟨code, _, failed, _⟩ := stepped
      · simp [EventPc.removalRank, FlushPc.removalRank]
      · exact absurd failed (serves code)
  | detect t =>
      simp only [eventStep] at stepped
      refine Or.inr ?_
      split at stepped
      · rename_i below
        split at stepped
        · cases stepped
          simp only [EventPc.removalRank]
          omega
        · cases stepped
          have later : (t + 1000).toNat = t.toNat + 1000 := time_later counts below fits
          simp only [EventPc.removalRank, later]
          omega
        · contradiction
      · simp only [Choice.onGo_eq_next, StepResult.next.injEq, Prod.mk.injEq] at stepped
        obtain ⟨_, rfl, rfl⟩ := stepped
        simp only [EventPc.removalRank]
        omega
  | poll =>
      simp only [eventStep, Choice.onGo_eq_next, StepResult.next.injEq, Prod.mk.injEq, started,
        if_true] at stepped
      obtain ⟨_, rfl, rfl⟩ := stepped
      refine Or.inr ?_
      rcases afterPoll_cases cfg with same | same <;> rw [same] <;>
        simp only [EventPc.removalRank] <;> omega
  | callRegister =>
      simp only [eventStep, Choice.onGo_eq_next, StepResult.next.injEq, Prod.mk.injEq] at stepped
      obtain ⟨_, rfl, rfl⟩ := stepped
      have entry := apiEntry_rank sh
      simp only [EventPc.removalRank]
      omega
  | testFlush ev =>
      simp only [eventStep, Choice.onGo_eq_next, StepResult.next.injEq, Prod.mk.injEq] at stepped
      obtain ⟨_, rfl, rfl⟩ := stepped
      refine Or.inr ?_
      split <;> simp_all [EventPc.removalRank]
  | testTerminate ev =>
      simp only [eventStep, Choice.onGo_eq_next, StepResult.next.injEq, Prod.mk.injEq] at stepped
      obtain ⟨_, rfl, rfl⟩ := stepped
      have unset : ¬ ev &&& evTerminate ≠ 0 := lasting
      refine Or.inr ?_
      simp only [if_neg unset, EventPc.removalRank]
      omega
  | pollDelay | detectDelay | usbDelay | loop | signal | resend | resendDelay =>
      simp only [eventStep, Choice.onGo_eq_next, StepResult.next.injEq, Prod.mk.injEq] at stepped
      obtain ⟨_, rfl, rfl⟩ := stepped
      simp [EventPc.removalRank]

/-- Inside a callback the event thread gets no farther away, and nearer with the return. -/
theorem eventStep_inCallback {pc pc' : EventPc} (inside : pc.inCallback = true)
    (stepped : eventStep thid sh pc choice = .next (sh', pc'))
    : pc'.removalRank cfg.kprintfMaxHandlers cfg.kprintfPsplinkDetectTimeout.toNat
          ≤ pc.removalRank cfg.kprintfMaxHandlers cfg.kprintfPsplinkDetectTimeout.toNat
        ∧ (pc'.inCallback = false →
            pc'.removalRank cfg.kprintfMaxHandlers cfg.kprintfPsplinkDetectTimeout.toNat
              < pc.removalRank cfg.kprintfMaxHandlers
                cfg.kprintfPsplinkDetectTimeout.toNat) := by
  cases pc with
  | flush ev pc =>
      simp only [eventStep, StepResult.map_eq_next] at stepped
      obtain ⟨⟨next, place⟩, flushed, same⟩ := stepped
      obtain ⟨place, rfl, nearer, returns⟩ := flushStep_inCallback inside flushed
      cases same
      exact ⟨nearer, returns⟩
  | _ => contradiction

/-- Before a delay of detect_psplink the time is below the timeout. -/
theorem detect_below {t : U32}
    (stepped : eventStep thid sh (.detect t) choice = .next (sh', .detectDelay t))
    : t.toNat < cfg.kprintfPsplinkDetectTimeout.toNat := by
  by_contra reached
  simp [eventStep, if_neg reached] at stepped

/-- While the event thread waits for PSPLINK the time counts the polls. -/
theorem EventPc.InTime.step {pc pc' : EventPc}
    (counts : pc.InTime cfg.kprintfPsplinkDetectTimeout)
    (fits : cfg.kprintfPsplinkDetectTimeout.toNat ≤ lastTimeout)
    (stepped : eventStep thid sh pc choice = .next (sh', pc'))
    : pc'.InTime cfg.kprintfPsplinkDetectTimeout := by
  cases eventStep_effect stepped with
  | move move =>
      cases move with
      | starts =>
          rcases afterPoll_cases cfg with same | same <;> rw [same]
          · exact trivial
          · exact Nat.dvd_zero 1000
      | misses => exact ⟨counts, detect_below stepped⟩
      | @retries t =>
          obtain ⟨polled, below⟩ := counts
          have later : (t + 1000).toNat = t.toNat + 1000 := time_later polled below fits
          rw [EventPc.InTime, later]
          exact Nat.dvd_add polled (Nat.dvd_refl 1000)
      | _ => exact trivial
  | @register api sh' api' => cases api' <;> first | exact Nat.dvd_zero 1000 | exact trivial
  | @flush ev pc sh' pc' => cases pc' <;> exact trivial
  | callRegister | wake | acquire | release | resend | stopOk => exact trivial

end Steps

-----------------------------------------------------------------------------------------
-- Fair runs
-----------------------------------------------------------------------------------------

/-- A kernel call of an event thread fails. -/
def Action.failsEvent : Action cfg → Bool
  | .event _ (.fail _) => true
  | _ => false

/-- The steps of a module that stays started: no callback re-enters it, and no kernel call of its
event thread fails.
-/
def Serving (s : State cfg) (action : Action cfg) : Prop :=
  NoReentry s action ∧ s.sh.g.gState = .started ∧ action.failsEvent = false

instance (s : State cfg) (action : Action cfg) : Decidable (Serving s action) :=
  inferInstanceAs (Decidable (_ ∧ _))

/-- The action is a step of the event thread. -/
def EventSteps (s : State cfg) (action : Action cfg) : Prop :=
  ∃ choice, action = .event s.sh.g.gThid choice

/-- The event thread is not blocked. -/
def EventReady (s : State cfg) : Prop :=
  ∃ action t, EventSteps s action ∧ Serving s action ∧ s.step action = some t

/-- The event thread is not passed over for ever while it is ready again and again, no client is
interrupted for ever between its semaphore calls, and every callback returns.
-/
structure Fair (run : (machine cfg).InfiniteRun Serving) : Prop where
  event : run.StronglyFair EventReady EventSteps
  clients
    : ∀ n, run.WeaklyFair (fun s => s.locked (.client n) = true)
        (fun _ action => ∃ choice, action = .client n choice)
  callbacks
    : ∀ n, ∃ m ≥ n, ((run.state m).threads (run.state m).sh.g.gThid).inCallback = false

section Steps

variable {s t : State cfg} {action : Action cfg}

/-- Only its own steps move a client. -/
theorem clients_kept (stepped : s.step action = some t) {n : Nat}
    (other : ¬ ∃ choice, action = .client n choice)
    : t.clients n = s.clients n := by
  cases State.step_cases stepped with
  | @client m choice =>
      refine Function.update_of_ne ?_ _ _
      rintro rfl
      exact other ⟨choice, rfl⟩
  | crash | kprintf | event | loader | overRegister => rfl

/-- A step of a client inside an exported function brings it nearer its return. -/
theorem client_lower (reach : (machine cfg).Reachable SingleSession s) {n : Nat}
    {choice : Choice cfg} (single : SingleSession s (.client n choice))
    (engaged : s.clients n ≠ none) (stepped : s.step (.client n choice) = some t)
    : t.rank (.client n) < s.rank (.client n) := by
  have running := (delivery (reach.step single stepped)).1
  cases State.step_cases stepped with
  | crash => contradiction
  | client ran =>
      have effect := clientStep_effect ran
      simp only [State.rank, Function.update_self]
      cases place : s.clients n with
      | none => exact absurd place engaged
      | some calling =>
          rw [place] at effect
          cases effect with
          | leave => simp
          | run moved =>
              have lower := apiStep_lower moved
              simpa using lower

/-- A step changes at most the place of one thread. -/
theorem locked_step (reach : (machine cfg).Reachable SingleSession s)
    (inside : s.loader.inSession = true) (single : SingleSession s action)
    (stepped : s.step action = some t)
    : ∃ thread locked, t.locked = Function.update s.locked thread locked := by
  have running := (delivery (reach.step single stepped)).1
  have same {sh' : Shared cfg} {loader' : LoaderPc} : ∃ thread locked,
      ({ s with sh := sh', loader := loader' } : State cfg).locked
        = Function.update s.locked thread locked :=
    ⟨.client 0, s.locked (.client 0), by rw [locked_loader, Function.update_eq_self]⟩
  cases State.step_cases stepped with
  | crash => contradiction
  | event => exact ⟨_, _, locked_event s _ _ _⟩
  | client => exact ⟨_, _, locked_client s _ _ _⟩
  | loader ran =>
      obtain ⟨_, rfl⟩ := loaderStep_effect ran inside (not_start single inside)
      exact same
  | kprintf | overRegister => exact same

/-- When the thread between its semaphore calls leaves, nobody is between them. -/
theorem vacated (reach : (machine cfg).Reachable SingleSession s)
    (inside : s.loader.inSession = true) (single : SingleSession s action)
    (stepped : s.step action = some t) {thread : ThreadRef} (held : s.locked thread = true)
    (left : t.locked thread = false) (other : ThreadRef)
    : t.locked other = false := by
  obtain ⟨holder, _, guarded⟩ := (exclusion reach inside).owned
  obtain ⟨mover, locked, moved⟩ := locked_step reach inside single stepped
  obtain rfl : mover = thread := by
    by_contra apart
    rw [moved, Function.update_of_ne (Ne.symm apart), held] at left
    contradiction
  by_cases same : other = mover
  · rw [same, left]
  · rw [moved, Function.update_of_ne same]
    by_contra entered
    exact same (guarded.exclusive (by simpa using entered) held)

/-- A step in the session is one of the event thread, or leaves the event thread where it is. -/
theorem event_or_stays (reach : (machine cfg).Reachable SingleSession s)
    (inside : s.loader.inSession = true) (single : SingleSession s action)
    (stepped : s.step action = some t)
    : (∃ choice, action = .event s.sh.g.gThid choice
        ∧ eventStep s.sh.g.gThid s.sh (s.threads s.sh.g.gThid) choice
          = .next (t.sh, t.threads t.sh.g.gThid))
      ∨ ¬ EventSteps s action ∧ t.threads t.sh.g.gThid = s.threads s.sh.g.gThid := by
  have session := session reach inside
  have running := (delivery (reach.step single stepped)).1
  cases State.step_cases stepped with
  | crash => contradiction
  | kprintf printed =>
      exact Or.inr ⟨by simp [EventSteps], by simp only [(kprintf_frame printed).gThid]⟩
  | @event thid choice sh' pc' ran =>
      obtain rfl := session.runs ran
      refine Or.inl ⟨choice, rfl, ?_⟩
      simpa only [(eventStep_effect ran).frame.gThid, Function.update_self] using ran
  | client ran =>
      refine Or.inr ⟨by simp [EventSteps], ?_⟩
      simp only [(clientStep_effect ran).frame.gThid]
  | loader ran =>
      obtain ⟨effect, rfl⟩ := loaderStep_effect ran inside (not_start single inside)
      exact Or.inr ⟨by simp [EventSteps], by simp only [effect.frame_gThid]⟩
  | overRegister => exact Or.inr ⟨by simp [EventSteps], rfl⟩

/-- In the session the event thread counts its polls. -/
theorem inTime (fits : cfg.kprintfPsplinkDetectTimeout.toNat ≤ lastTimeout)
    (reach : (machine cfg).Reachable SingleSession s) (inside : s.loader.inSession = true)
    : (s.threads s.sh.g.gThid).InTime cfg.kprintfPsplinkDetectTimeout := by
  refine session_invariant
    (P := fun s => (s.threads s.sh.g.gThid).InTime cfg.kprintfPsplinkDetectTimeout)
    (fun _ _ single => single) ?_ ?_ reach inside
  · intro s _ fresh
    rcases fresh.polling with polls | polls <;> rw [polls] <;> exact trivial
  · intro s action t reach inside counts single stepped
    rcases event_or_stays reach inside single stepped with ⟨_, _, ran⟩ | ⟨_, same⟩
    · exact counts.step fits ran
    · rwa [same]

/-- A plain step of the event thread is one that is allowed. -/
theorem OwnStep.ready (own : OwnStep (.event s.sh.g.gThid) s action)
    (started : s.sh.g.gState = .started) (stepped : s.step action = some t)
    : EventReady s := by
  cases action with
  | event thid choice =>
      have plain := own.2
      obtain rfl : thid = s.sh.g.gThid := by simpa using own.1
      refine ⟨_, t, ⟨choice, rfl⟩, ⟨own.noReentry, started, ?_⟩, stepped⟩
      cases choice <;> first | rfl | contradiction
  | client => exact absurd own.1 (by simp)
  | kprintf | loader | overRegister => exact own.elim

/-- While messages are queued and no client is between its semaphore calls, the event thread is
ready.
-/
theorem Running.ready {messages : List (Nat × MsgBody)} (running : Running messages s)
    (queued : s.sh.g.gHead ≠ 0)
    : EventReady s := by
  by_cases waiting : ∃ evid, s.threads s.sh.g.gThid = .waitFlag evid
  · obtain ⟨evid, waiting⟩ := waiting
    obtain ⟨action, t, ev, own, stepped, -⟩ := running.wakes waiting queued
    exact own.ready running.started stepped
  · obtain ⟨action, t, own, stepped, -⟩ :=
      running.nears_wait fun evid place => waiting ⟨evid, place⟩
    exact own.ready running.started stepped

end Steps

-----------------------------------------------------------------------------------------
-- The semaphore comes back
-----------------------------------------------------------------------------------------

/-- The states of a run are those of one session. -/
structure SessionRun {guard : State cfg → Action cfg → Prop}
    (run : (machine cfg).InfiniteRun guard)
    : Prop where
  reach : ∀ k, (machine cfg).Reachable SingleSession (run.state k)
  inside : ∀ k, (run.state k).loader.inSession = true
  single : ∀ k, SingleSession (run.state k) (run.action k)

section SessionRun

variable {guard : State cfg → Action cfg → Prop} {run : (machine cfg).InfiniteRun guard}

/-- The history of a run only grows. -/
theorem run_history {m n : Nat} (later : m ≤ n)
    : (run.state m).sh.history <+: (run.state n).sh.history :=
  (run.path later).preserves (P := fun t => (run.state m).sh.history <+: t.sh.history)
    List.prefix_rfl fun _ _ _ earlier _ stepped => earlier.trans (history_grows stepped)

/-- A client that steps again and again, as long as it is inside an exported function and has not
reached the goal, reaches it; by the rank rule.
-/
theorem SessionRun.client_reaches (within : SessionRun run) (n : Nat) (Goal : State cfg → Prop)
    {m : Nat} (engaged : ∀ s, ¬ Goal s → s.clients n ≠ none)
    (moves
      : (∀ k ≥ m, ¬ Goal (run.state k)) →
          ∀ j ≥ m, ∃ k ≥ j, ∃ choice, run.action k = .client n choice)
    : ∃ k ≥ m, Goal (run.state k) := by
  have lower (k : Nat) (short : ¬ Goal (run.state k))
      (own : ∃ choice, run.action k = .client n choice) :
      (run.state (k + 1)).rank (.client n) < (run.state k).rank (.client n) := by
    obtain ⟨choice, same⟩ := own
    have allowed := within.single k
    have stepped := run.stepped k
    rw [same] at allowed stepped
    exact client_lower (within.reach k) allowed (engaged _ short) stepped
  refine System.InfiniteRun.eventually_of_rank Goal (State.rank · (.client n))
    (fun k _ short _ => ?_) (fun short j after => ?_)
  · by_cases own : ∃ choice, run.action k = .client n choice
    · exact (lower k short own).le
    · simp only [State.rank, clients_kept (run.stepped k) own, le_refl]
  · obtain ⟨k, later, own⟩ := moves short j after
    exact ⟨k, later, lower k (short k (after.trans later)) own⟩

/-- A client between its semaphore calls comes to their end, if it is not interrupted for ever. -/
theorem SessionRun.client_leaves (within : SessionRun run) {n : Nat}
    (fair
      : run.WeaklyFair (fun s => s.locked (.client n) = true)
          (fun _ action => ∃ choice, action = .client n choice))
    (m : Nat)
    : ∃ k ≥ m, (run.state k).locked (.client n) = false := by
  refine within.client_reaches n (fun s => s.locked (.client n) = false) (fun s held outside => ?_)
    fun held j after => ?_
  · exact held (by simp [State.locked, outside])
  · exact fair.exists_taken fun _ k later => by simpa using held k (after.trans later)

/-- So there is no client between its semaphore calls again and again. -/
theorem SessionRun.clients_out (within : SessionRun run)
    (fair
      : ∀ n, run.WeaklyFair (fun s => s.locked (.client n) = true)
          (fun _ action => ∃ choice, action = .client n choice))
    (m : Nat)
    : ∃ k ≥ m, ∀ n, (run.state k).locked (.client n) = false := by
  by_cases outside : ∀ n, (run.state m).locked (.client n) = false
  · exact ⟨m, le_rfl, outside⟩
  push Not at outside
  obtain ⟨n, held⟩ := outside
  obtain ⟨k, later, held, left⟩ :=
    System.InfiniteRun.exists_crossing held (within.client_leaves (fair n) m)
  exact ⟨k + 1, later.trans k.le_succ, fun other => vacated (within.reach k) (within.inside k)
    (within.single k) (run.stepped k) (by simpa using held) left (.client other)⟩

/-- Only its own steps move the event thread. -/
theorem SessionRun.place_kept (within : SessionRun run) {k : Nat}
    (idle : ¬ EventSteps (run.state k) (run.action k))
    : (run.state (k + 1)).threads (run.state (k + 1)).sh.g.gThid
      = (run.state k).threads (run.state k).sh.g.gThid := by
  rcases event_or_stays (within.reach k) (within.inside k) (within.single k) (run.stepped k) with
    ⟨choice, own, _⟩ | ⟨_, same⟩
  · exact absurd ⟨choice, own⟩ idle
  · exact same

/-- What a step of the event thread lowers outside the callbacks, or with the return of one, falls
again and again, if the event thread steps again and again and the callbacks return.
-/
theorem SessionRun.falls (within : SessionRun run) {α : Type*} [Preorder α] {n : Nat}
    (callbacks
      : ∀ n, ∃ m ≥ n, ((run.state m).threads (run.state m).sh.g.gThid).inCallback = false)
    (moves : ∀ m ≥ n, ∃ k ≥ m, EventSteps (run.state k) (run.action k)) (rank : State cfg → α)
    (lowers
      : ∀ k ≥ n, EventSteps (run.state k) (run.action k) →
          ((run.state k).threads (run.state k).sh.g.gThid).inCallback = false
            ∨ ((run.state (k + 1)).threads (run.state (k + 1)).sh.g.gThid).inCallback = false →
          rank (run.state (k + 1)) < rank (run.state k))
    {m : Nat} (after : m ≥ n)
    : ∃ k ≥ m, rank (run.state (k + 1)) < rank (run.state k) := by
  cases calls : ((run.state m).threads (run.state m).sh.g.gThid).inCallback with
  | true =>
      obtain ⟨k, later, inside, returned⟩ := System.InfiniteRun.exists_crossing
        (Q := fun k => ((run.state k).threads (run.state k).sh.g.gThid).inCallback = false)
        (by simp [calls]) (callbacks m)
      have own : EventSteps (run.state k) (run.action k) := by
        by_contra idle
        rw [within.place_kept idle] at returned
        exact inside returned
      exact ⟨k, later, lowers k (after.trans later) own (Or.inr returned)⟩
  | false =>
      obtain ⟨k, later, own, before⟩ := System.InfiniteRun.exists_first (moves m after)
      have same := System.InfiniteRun.unchanged EventSteps (fun s => s.threads s.sh.g.gThid)
        (fun j _ idle => within.place_kept idle) later before
      exact ⟨k, later, lowers k (after.trans later) own (Or.inl (by rw [same]; exact calls))⟩

end SessionRun

section Run

variable {run : (machine cfg).InfiniteRun Serving}

/-- A run goes through reachable states of the session. -/
theorem run_reach (reach : (machine cfg).Reachable NoReentry (run.state 0)) (k : Nat)
    : (machine cfg).Reachable NoReentry (run.state k)
      ∧ (machine cfg).Reachable SingleSession (run.state k)
      ∧ (run.state k).loader.inSession = true := by
  have later := reach.path ((run.path k.zero_le).mono fun _ _ allowed => allowed.1)
  have single := later.mono fun _ _ reentry => reentry.1
  exact ⟨later, single, inSession_of_started single (run.allowed k).2.1⟩

/-- So it is the run of a session. -/
theorem serving_session (reach : (machine cfg).Reachable NoReentry (run.state 0))
    : SessionRun run :=
  ⟨fun k => (run_reach reach k).2.1, fun k => (run_reach reach k).2.2,
    fun k => (run.allowed k).1.1⟩

-----------------------------------------------------------------------------------------
-- Every message is removed
-----------------------------------------------------------------------------------------

/-- How far the module is from having freed this many blocks. -/
def removalsLeft (goal : Nat) (s : State cfg) : Nat ×ₗ Nat :=
  toLex (goal - (freed s.sh.history).length,
    (s.threads s.sh.g.gThid).removalRank cfg.kprintfMaxHandlers
      cfg.kprintfPsplinkDetectTimeout.toNat)

/-- While blocks of accepted messages are not freed, messages are queued. -/
theorem Delivery.queued {sh : Shared cfg} {pc : EventPc} {nodes : List Addr}
    (delivery : Delivery sh pc nodes)
    (short : (freed sh.history).length < (accepted sh.history).length)
    : sh.g.gHead ≠ 0 := by
  intro empty
  have removed := congrArg List.length delivery.removed
  rw [delivery.queue.head_eq_null.mp empty] at removed
  simp only [List.length_map, List.map_nil, List.append_nil] at removed
  omega

/-- The step that removes a message frees its block. -/
theorem Delivery.frees {thid : Uid} {sh sh' : Shared cfg} {pc pc' : EventPc} {nodes : List Addr}
    {choice : Choice cfg} (delivery : Delivery sh pc nodes)
    (pool : sh.k.vpls sh.g.gVplid = true) (removes : pc.removes = true)
    (stepped : eventStep thid sh pc choice = .next (sh', pc'))
    : (freed sh.history).length < (freed sh'.history).length := by
  cases pc with
  | flush ev place =>
      cases place with
      | remove m n =>
          simp only [eventStep, flushStep, StepResult.map_eq_next, Choice.onGo_eq_next,
            StepResult.ofMemory_eq_next] at stepped
          obtain ⟨_, ⟨_, ⟨after, ret⟩, removed, rfl⟩, same⟩ := stepped
          cases same
          obtain ⟨rest, rfl, removal, _⟩ := delivery.removes pool removed
          simp [removal.history, freed]
      | _ => contradiction
  | _ => contradiction

/-- While messages are queued, a step takes the module no farther from the next removal, and a step
of the event thread outside the callbacks, or out of one, brings it nearer.
-/
theorem removalsLeft_step {s t : State cfg} {action : Action cfg} {goal : Nat}
    (fits : cfg.kprintfPsplinkDetectTimeout.toNat ≤ lastTimeout)
    (reach : (machine cfg).Reachable SingleSession s) (inside : s.loader.inSession = true)
    (allowed : Serving s action) (stepped : s.step action = some t)
    (queued : s.sh.g.gHead ≠ 0) (short : (freed t.sh.history).length < goal)
    : removalsLeft goal t ≤ removalsLeft goal s
      ∧ (EventSteps s action →
          (s.threads s.sh.g.gThid).inCallback = false
            ∨ (t.threads t.sh.g.gThid).inCallback = false →
          removalsLeft goal t < removalsLeft goal s) := by
  obtain ⟨⟨single, _⟩, started, serves⟩ := allowed
  have session := session reach inside
  obtain ⟨_, nodes, delivery⟩ := delivery reach
  have grows : (freed s.sh.history).length ≤ (freed t.sh.history).length :=
    ((history_grows stepped).filterMap _).length_le
  rcases event_or_stays reach inside single stepped with ⟨choice, rfl, ran⟩ | ⟨idle, same⟩
  · have lowers (nearer
        : (t.threads t.sh.g.gThid).removalRank cfg.kprintfMaxHandlers
              cfg.kprintfPsplinkDetectTimeout.toNat
            < (s.threads s.sh.g.gThid).removalRank cfg.kprintfMaxHandlers
                cfg.kprintfPsplinkDetectTimeout.toNat) :
        removalsLeft goal t < removalsLeft goal s :=
      Prod.Lex.toLex_lt_toLex'.mpr ⟨Nat.sub_le_sub_left grows goal, fun _ => nearer⟩
    cases calls : (s.threads s.sh.g.gThid).inCallback with
    | true =>
        obtain ⟨stays, returns⟩ := eventStep_inCallback calls ran
        refine ⟨Prod.Lex.toLex_mono ⟨Nat.sub_le_sub_left grows goal, stays⟩, fun _ out => ?_⟩
        exact lowers (returns (out.resolve_left (by simp)))
    | false =>
        suffices less : removalsLeft goal t < removalsLeft goal s from ⟨less.le, fun _ _ => less⟩
        cases removes : (s.threads s.sh.g.gThid).removes with
        | true =>
            have frees := delivery.frees session.vpl removes ran
            exact Prod.Lex.toLex_lt_toLex.mpr (Or.inl (by simp only; omega))
        | false =>
            refine lowers ((eventStep_nearer started queued (not_terminating reach inside started)
              (inTime fits reach inside) fits (fun evid k ev waiting took => ?_) ?_ calls
              ran).resolve_left (by simp [removes]))
            · obtain ⟨bits, flag, set⟩ := no_lost_wake_up reach waiting queued
              obtain rfl := session.evid _ evid waiting
              have same := (takeEventFlag_flag took rfl).1
              rw [Shared.flag, flag, Option.getD_some] at same
              exact same ▸ set
            · rintro code rfl
              contradiction
  · refine ⟨Prod.Lex.toLex_mono ⟨?_, ?_⟩, fun own => absurd own idle⟩
    · exact Nat.sub_le_sub_left grows goal
    · rw [same]

/-- Some step of a fair run brings the module nearer the next removal, as long as it is not reached:
the running callback returns, or the event thread, which is ready again and again, takes a step.
-/
theorem Fair.removalsLeft_falls (fair : Fair run)
    (fits : cfg.kprintfPsplinkDetectTimeout.toNat ≤ lastTimeout)
    (reach : (machine cfg).Reachable NoReentry (run.state 0)) {goal n : Nat}
    (queued : ∀ k ≥ n, (run.state k).sh.g.gHead ≠ 0)
    (short : ∀ k ≥ n, (freed (run.state k).sh.history).length < goal) {m : Nat} (after : m ≥ n)
    : ∃ k ≥ m, removalsLeft goal (run.state (k + 1)) < removalsLeft goal (run.state k) := by
  have within := serving_session reach
  refine within.falls fair.callbacks (fun m after => ?_) (removalsLeft goal) (fun k later => ?_)
    after
  · refine fair.event.exists_taken fun _ j after' => ?_
    obtain ⟨k, later, outside⟩ := within.clients_out fair.clients j
    have running : Running (accepted (run.state k).sh.history) (run.state k) :=
      ⟨(run_reach reach k).1, (run.allowed k).2.1, rfl, outside⟩
    exact ⟨k, later, running.ready (queued k ((after.trans after').trans later))⟩
  · exact (removalsLeft_step fits (within.reach k) (within.inside k) (run.allowed k) (run.stepped k)
      (queued k later) (short (k + 1) (later.trans k.le_succ))).2

/-- In every fair run the number of freed blocks reaches the number of messages accepted by any
time.
-/
theorem Fair.frees (fair : Fair run) (fits : cfg.kprintfPsplinkDetectTimeout.toNat ≤ lastTimeout)
    (reach : (machine cfg).Reachable NoReentry (run.state 0)) (n : Nat)
    : ∃ m ≥ n,
        (accepted (run.state n).sh.history).length ≤ (freed (run.state m).sh.history).length := by
  have queued (k : Nat) (later : k ≥ n) (short
      : ¬ (accepted (run.state n).sh.history).length ≤ (freed (run.state k).sh.history).length) :
      (run.state k).sh.g.gHead ≠ 0 := by
    obtain ⟨_, nodes, delivery⟩ := delivery (run_reach reach k).2.1
    have grows : (accepted (run.state n).sh.history).length
        ≤ (accepted (run.state k).sh.history).length :=
      ((run_history later).filterMap _).length_le
    exact delivery.queued ((Nat.lt_of_not_le short).trans_le grows)
  refine System.InfiniteRun.eventually_of_rank
    (fun s : State cfg =>
      (accepted (run.state n).sh.history).length ≤ (freed s.sh.history).length)
    (removalsLeft (accepted (run.state n).sh.history).length) (fun k later short short' => ?_)
    (fun short m after => ?_)
  · obtain ⟨_, single, inside⟩ := run_reach reach k
    exact (removalsLeft_step fits single inside (run.allowed k) (run.stepped k)
      (queued k later short) (Nat.lt_of_not_le short')).1
  · exact fair.removalsLeft_falls fits reach (fun k later => queued k later (short k later))
      (fun k later => Nat.lt_of_not_le (short k later)) after

/-- In every fair run of a started module each message accepted so far is at last passed to the
handlers, in order, and its block is freed.
-/
theorem fair_delivery {run : (machine cfg).InfiniteRun Serving} (fair : Fair run)
    (fits : cfg.kprintfPsplinkDetectTimeout.toNat ≤ lastTimeout)
    (reach : (machine cfg).Reachable NoReentry (run.state 0)) (n : Nat)
    : ∃ m ≥ n,
        accepted (run.state n).sh.history <+: delivered (run.state m).sh.history
        ∧ (accepted (run.state n).sh.history).map Prod.fst <+: freed (run.state m).sh.history := by
  obtain ⟨m, later, enough⟩ := fair.frees fits reach n
  obtain ⟨_, nodes, delivery⟩ := delivery (run_reach reach m).2.1
  have earlier : accepted (run.state n).sh.history <+: accepted (run.state m).sh.history :=
    (run_history later).filterMap _
  have passed := congrArg List.length delivery.passed
  have removed := congrArg List.length delivery.removed
  simp only [List.length_append, List.length_map, List.length_drop] at passed removed
  refine ⟨m, later, List.prefix_of_prefix_length_le earlier ⟨_, delivery.passed⟩ (by omega), ?_⟩
  refine List.prefix_of_prefix_length_le (earlier.map Prod.fst) ?_ (by simpa using enough)
  rw [delivery.removed]
  exact List.prefix_append _ _

end Run

/-- Registering a handler that is registered already changes nothing. -/
theorem overRegister_loop {s : State cfg} {entry : Nat} (running : s.crashed = false)
    (hook : s.sh.k.hook = .foreign entry)
    : (machine cfg).step s (.overRegister entry) = some s := by
  show State.step s (.overRegister entry) = some s
  rw [State.step, if_neg (by simp [running]), ← hook]

/-- While the semaphore is free, nobody is between its calls. -/
theorem unlocked_of_free {s : State cfg} (reach : (machine cfg).Reachable SingleSession s)
    (inside : s.loader.inSession = true)
    (free : s.sh.k.semas s.sh.g.gSemid = some (.binary none)) (thread : ThreadRef)
    : s.locked thread = false := by
  obtain ⟨holder, sema, guarded⟩ := (exclusion reach inside).owned
  obtain rfl : holder = none := by
    rw [free, Option.some.injEq] at sema
    cases holder with
    | none => rfl
    | some thread => simp [Sema.binary] at sema
  exact guarded.free

/-- A run is fair that comes to rest at the wait of the event thread, with no bit set and the
semaphore free.
-/
theorem fair_of_rest {run : (machine cfg).InfiniteRun Serving} {t : State cfg} {evid : Uid}
    (ends : ∀ᶠ n in atTop, run.state n = t) (reach : (machine cfg).Reachable SingleSession t)
    (inside : t.loader.inSession = true) (waiting : t.threads t.sh.g.gThid = .waitFlag evid)
    (unset : t.sh.k.evflags evid = some 0)
    (free : t.sh.k.semas t.sh.g.gSemid = some (.binary none))
    : Fair run where
  event := by
    intro often
    obtain ⟨n, ready, rfl⟩ := (often.and_eventually ends).exists
    obtain ⟨_, after, ⟨choice, rfl⟩, allowed, stepped⟩ := ready
    have asleep : (run.state n).sh.k.takeEventFlag evid (evFlush ||| evTerminate) = none := by
      simp [Kernel.takeEventFlag, unset]
    cases choice with
    | fail code => exact absurd allowed.2.2 (by simp [Action.failsEvent])
    | _ => simp [State.step, State.apply, waiting, eventStep, Choice.onKernel, asleep,
        StepResult.ofBlocking, StepResult.map] at stepped
  clients := by
    intro n always
    obtain ⟨k, held, rfl⟩ := (always.and ends).exists
    exact absurd held (by simp [unlocked_of_free reach inside free])
  callbacks := by
    intro n
    obtain ⟨bound, rests⟩ := eventually_atTop.mp ends
    refine ⟨max n bound, le_max_left n bound, ?_⟩
    rw [rests _ (le_max_right n bound), waiting]
    rfl

/-- Witness: two messages are queued at the start of a run that passes them on, and in which another
module registers its handler again and again afterwards.
-/
theorem fair_delivery_run
    : ∃ run : (machine .shipped).InfiniteRun Serving,
        ((accepted (run.state 0).sh.history).length = 2
          ∧ delivered (run.state 0).sh.history = [])
        ∧ ∀ n, ∃ m ≥ n,
            accepted (run.state n).sh.history <+: delivered (run.state m).sh.history
            ∧ (accepted (run.state n).sh.history).map Prod.fst
              <+: freed (run.state m).sh.history := by
  let returns : List (Action .shipped) := [.event 13 (.ret 0 3 (List.replicate 19 66))]
  have done : ((machine .shipped).run NoReentry (machine .shipped).init
      (loopRun ++ kprintfRun 100 ++ kprintfRun 101)).any
      (fun s => ((accepted s.sh.history).length = 2 ∧ delivered s.sh.history = [])
        ∧ ((machine .shipped).run Serving s
          (eventRun 7 ++ returns ++ eventRun 13 ++ returns ++ eventRun 14
            ++ [.overRegister 0])).any
          (fun t => t.sh.g.gThid = 13 ∧ t.sh.g.gState = .started ∧ t.threads 13 = .waitFlag 11
            ∧ t.sh.k.evflags 11 = some 0 ∧ t.sh.k.semas t.sh.g.gSemid = some (.binary none)
            ∧ t.sh.k.hook = .foreign 0) = true) = true := by
    decide +kernel
  obtain ⟨s, reach, holds⟩ := System.exists_of_run done
  obtain ⟨queued, later⟩ := of_decide_eq_true holds
  obtain ⟨t, path, rests⟩ := System.exists_path_of_run later
  obtain ⟨gThid, started, waiting, unset, free, hook⟩ := of_decide_eq_true rests
  have single := (reach.path (path.mono fun _ _ allowed => allowed.1)).mono
    fun _ _ reentry => reentry.1
  have inside := inSession_of_started single started
  have loop := overRegister_loop (delivering single inside).running hook
  obtain ⟨run, rfl, ends⟩ := path.exists_infiniteRun (a := .overRegister 0)
    ⟨⟨by simp [SingleSession, Action.isStart], rfl⟩, started, rfl⟩ loop
  have fair : Fair run := fair_of_rest ends single inside (by rw [gThid]; exact waiting) unset free
  exact ⟨run, queued, fair_delivery fair (by decide) reach⟩

end LibKprintf
