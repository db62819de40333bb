import LibKprintf.Queue.WakeUp
import LibKprintf.Stop.Acknowledgement

/-! Draining: the wake-up with EV_TERMINATE comes when nothing is accepted any more, and the
pass it starts empties the queue before EV_STOP_OK, unless the event thread fails to get the
semaphore for it.
-/

namespace LibKprintf

open Foundation

variable {cfg : Config}

/-- The event thread has been woken up with EV_TERMINATE. -/
def EventPc.Terminates : EventPc → Prop
  | .testFlush ev | .waitSema ev _ | .flush ev _ | .signal ev | .resend ev | .resendDelay ev
  | .testTerminate ev => ev &&& evTerminate ≠ 0
  | .stopOk | .returning | .exited => True
  | _ => False

/-- Only taking EV_TERMINATE from the event flag starts the termination. -/
theorem EventEffect.terminates {thid : Uid} {sh sh' : Shared cfg} {pc pc' : EventPc}
    (effect : EventEffect thid sh pc sh' pc') (terminates : pc'.Terminates)
    : pc.Terminates
      ∨ ∃ evid ev, pc = .waitFlag evid ∧ pc' = .testFlush ev
          ∧ ∃ k, sh.k.takeEventFlag evid (evFlush ||| evTerminate) = some (k, ev) := by
  cases effect with
  | move move =>
      cases move with
      | starts =>
          rcases afterPoll_cases cfg with same | same <;> rw [same] at terminates <;>
            exact terminates.elim
      | sleeps | polls | detects | misses | retries | detectEnds | usbEnds | waits | continues =>
          exact terminates.elim
      | waitFails => exact absurd BitVec.zero_and terminates
      | flushes | skips | semaFails | resent => exact Or.inl terminates
      | ends set => exact Or.inl set
      | returns => exact Or.inl trivial
  | callRegister => exact terminates.elim
  | @register api sh' api' choice => cases api' <;> exact terminates.elim
  | wake took => exact Or.inr ⟨_, _, rfl, rfl, _, took⟩
  | @flush ev pc sh' pc' choice => cases pc' <;> exact Or.inl terminates
  | acquire | release | resend => exact Or.inl terminates
  | stopOk => exact Or.inl trivial

/-- The event thread fails to get the semaphore after a wake-up with EV_TERMINATE, and
messages are queued.
-/
def State.losesDrain (s : State cfg) : Action cfg → Bool
  | .event thid (.fail _) =>
      match s.threads thid with
      | .waitSema ev _ => ev &&& evTerminate ≠ 0 && s.sh.g.gHead ≠ 0
      | _ => false
  | _ => false

/-- A single session in which no termination fails to get the semaphore for its messages. -/
def Drains (s : State cfg) (action : Action cfg) : Prop :=
  SingleSession s action ∧ s.losesDrain action = false

instance (s : State cfg) (action : Action cfg) : Decidable (Drains s action) :=
  inferInstanceAs (Decidable (_ ∧ _))

/-- EV_TERMINATE is posted together with EV_FLUSH when nothing is accepted any more, and the
event thread that was woken up with it covers all that is queued.
-/
structure Draining (sh : Shared cfg) (pc : EventPc) : Prop where
  posted : sh.flagged evTerminate → sh.g.gState ≠ .started ∧ sh.flagged evFlush
  taken : pc.Terminates → sh.g.gState ≠ .started ∧ Covered sh pc

/-- What leaves the module state, the queue and the two bits alone keeps the invariant. -/
theorem Draining.of_same {sh sh' : Shared cfg} {pc : EventPc} (draining : Draining sh pc)
    (gState : sh'.g.gState = sh.g.gState)
    (terminate : sh'.flagged evTerminate → sh.flagged evTerminate)
    (flush : sh.flagged evFlush → sh'.flagged evFlush) (head : sh'.g.gHead = sh.g.gHead)
    (mem : sh'.k.mem = sh.k.mem)
    : Draining sh' pc where
  posted := fun set => by
    rw [gState]
    exact (draining.posted (terminate set)).imp_right flush
  taken := fun terminates => by
    rw [gState]
    exact (draining.taken terminates).imp_right (fun covered => covered.of_same head mem)

/-- A Kprintf call that appends finds no termination under way. -/
theorem Draining.kprintf {sh sh' : Shared cfg} {pc : EventPc} {during}
    (draining : Draining sh pc) (flag : (sh.k.evflags sh.g.gEvid).isSome = true)
    (printed : kprintf sh during = .next sh')
    : Draining sh' pc := by
  obtain ⟨rfl | ⟨started, _⟩, others⟩ := kprintf_flag printed flag
  · exact draining
  · have unset : ¬ sh'.flagged evTerminate := fun set =>
      (draining.posted ((others evTerminate (by decide)).mp set)).1 started
    exact ⟨fun set => absurd set unset,
      fun terminates => absurd started (draining.taken terminates).1⟩

/-- The event thread's steps keep the invariant, unless one loses the messages. -/
theorem Draining.event {thid : Uid} {sh sh' : Shared cfg} {pc pc' : EventPc}
    {choice : Choice cfg} {nodes : List Addr} (draining : Draining sh pc)
    (delivery : Delivery sh pc nodes) (pool : sh.k.vpls sh.g.gVplid = true)
    (flag : (sh.k.evflags sh.g.gEvid).isSome = true)
    (captured : ∀ evid, pc = .waitFlag evid → evid = sh.g.gEvid)
    (drains
      : ∀ ev semid code, pc = .waitSema ev semid → choice = .fail code →
          pc.Terminates → sh.g.gHead = 0)
    (stepped : eventStep thid sh pc choice = .next (sh', pc'))
    : Draining sh' pc' := by
  have effect := eventStep_effect stepped
  have gState := effect.frame.gState
  refine ⟨fun set => ?_, fun terminates => ?_⟩
  · rw [gState]
    cases effect.flags captured with
    | stays same =>
        simp only [Shared.flagged, same] at set ⊢
        exact draining.posted set
    | prints printed =>
        have later := (draining.kprintf flag printed).posted set
        rwa [gState] at later
    | wakes _ now =>
        have cleared : ~~~(evFlush ||| evTerminate) &&& evTerminate = 0 := by decide
        simp [Shared.flagged, now, BitVec.and_assoc, cleared] at set
    | resends same | stopOk same =>
        rcases (flagged_of_set flag same).mp set with old | new
        · exact (draining.posted old).imp_right
            (fun kept => (flagged_of_set flag same).mpr (Or.inl kept))
        · exact absurd (by decide) new
  · rw [gState]
    rcases effect.terminates terminates with before | ⟨evid, ev, rfl, rfl, k, took⟩
    · obtain ⟨stopped, covered⟩ := draining.taken before
      refine ⟨stopped, ?_⟩
      rcases covered.event delivery pool flag stepped with
        later | ⟨started, _⟩ | ⟨ev, semid, code, waits, failed, rfl, rfl⟩
      · exact later
      · exact absurd started stopped
      · exact Or.inl (drains ev semid code waits failed before)
    · -- Both bits were set together, so this wake-up starts a pass.
      have before := (takeEventFlag_flag took (captured _ rfl)).1
      have posted : sh.flagged evTerminate := by
        rw [Shared.flagged, before]
        exact terminates
      obtain ⟨stopped, set⟩ := draining.posted posted
      rw [Shared.flagged, before] at set
      exact ⟨stopped, Or.inr set⟩

/-- A client's steps keep the invariant. -/
theorem Draining.client {n : Nat} {sh sh' : Shared cfg} {pc : EventPc} {place place' : ClientPc}
    (draining : Draining sh pc) (flag : (sh.k.evflags sh.g.gEvid).isSome = true)
    (effect : ClientEffect n sh place sh' place')
    : Draining sh' pc := by
  cases effect with
  | enter | leave => exact draining.of_same rfl id id rfl rfl
  | run stepped =>
      have effect := apiStep_effect stepped
      rcases effect.queue with same | ⟨during, printed⟩
      · rcases effect.flags with kept | ⟨during, printed⟩
        · refine draining.of_same effect.frame.gState ?_ ?_ same.head same.mem <;>
            simp only [Shared.flagged, kept, imp_self]
        · exact draining.kprintf flag printed
      · exact draining.kprintf flag printed

/-- _stop posts EV_TERMINATE together with EV_FLUSH, after it has left `STATE_STARTED`. -/
theorem Draining.stop {sh sh' : Shared cfg} {pc : EventPc} {place place' : LoaderPc}
    {choice : Choice cfg} (draining : Draining sh pc)
    (flag : (sh.k.evflags sh.g.gEvid).isSome = true)
    (captured : ∀ evid, place = .stop (.waitStopOk evid) → evid = sh.g.gEvid)
    (state : sh.g.gState = .started ↔ place.isStarted = true)
    (effect : StopEffect sh place choice sh' place')
    : Draining sh' pc := by
  cases effect with
  | enter | giveUp => exact draining
  | announce printed =>
      rcases printed with rfl | ⟨during, printed⟩
      · exact draining
      · exact draining.kprintf flag printed
  | unhook => exact draining.of_same rfl id id rfl rfl
  | setStopped =>
      exact ⟨fun set => ⟨by simp, (draining.posted set).2⟩,
        fun terminates => ⟨by simp, (draining.taken terminates).2.of_same rfl rfl⟩⟩
  | post =>
      have stopped : sh.g.gState ≠ .started := by simp [state, LoaderPc.isStarted]
      refine ⟨fun _ => ⟨stopped, (flagged_setEventFlag flag).mpr (Or.inr (by decide))⟩,
        fun terminates => ⟨stopped, ?_⟩⟩
      exact (draining.taken terminates).2.of_same rfl (Shared.setEventFlag_mem sh _)
  | acknowledged took =>
      have kept := takeEventFlag_flagged evFlush took (captured _ rfl) (by decide)
      have held := takeEventFlag_flagged evTerminate took (captured _ rfl) (by decide)
      refine draining.of_same rfl held.mp kept.mpr rfl ?_
      obtain ⟨evflags, rfl⟩ := takeEventFlag_shape took
      rfl

/-- Every step in the session that loses no drain keeps the invariant. -/
theorem Draining.step {s t : State cfg} {action : Action cfg}
    (draining : Draining s.sh (s.threads s.sh.g.gThid))
    (reach : (machine cfg).Reachable SingleSession s) (inside : s.loader.inSession = true)
    (drains : Drains s action) (stepped : s.step action = some t)
    : Draining t.sh (t.threads t.sh.g.gThid) := by
  obtain ⟨single, keeps⟩ := drains
  have session := session reach inside
  obtain ⟨_, nodes, delivery⟩ := delivery reach
  cases State.step_cases stepped with
  | crash => exact draining
  | kprintf printed =>
      have gThid := (kprintf_frame printed).gThid
      simpa only [gThid] using draining.kprintf session.evflag printed
  | @event thid choice sh' pc' ran =>
      obtain rfl := session.runs ran
      have gThid := (eventStep_effect ran).frame.gThid
      simp only [gThid, Function.update_self]
      refine draining.event delivery session.vpl session.evflag (session.evid _) ?_ ran
      rintro ev semid code waits rfl terminates
      rw [waits] at terminates
      have taken : ev &&& evTerminate ≠ 0 := terminates
      by_contra queued
      simp only [State.losesDrain, waits, ne_eq, taken, queued, not_false_eq_true, decide_true,
        Bool.and_self, reduceCtorEq] at keeps
  | @client n choice sh' pc' ran =>
      have effect := clientStep_effect ran
      have gThid := effect.frame.gThid
      simpa only [gThid] using draining.client session.evflag effect
  | @loader choice sh' threads' loader' ran =>
      obtain ⟨effect, rfl⟩ := loaderStep_effect ran inside (not_start single inside)
      have gThid := effect.frame_gThid
      simpa only [gThid] using draining.stop session.evflag session.stopEvid session.state effect
  | overRegister => exact draining.of_same rfl id id rfl rfl

/-- When the event thread has set EV_STOP_OK, whether or not it has returned yet, the queue is
empty, and every accepted message has been passed to the handlers.
-/
def Drained (s : State cfg) : Prop :=
  s.sh.Acknowledged ∨ (∃ thid, (s.threads thid).ended = true) →
    s.sh.g.gHead = 0 ∧ delivered s.sh.history = accepted s.sh.history

/-- At its end the event thread leaves an empty queue behind. -/
theorem Draining.empty {sh : Shared cfg} {pc : EventPc} (draining : Draining sh pc)
    (ended : pc.ended = true)
    : sh.g.gHead = 0 := by
  cases pc with
  | returning | exited => exact (draining.taken trivial).2.resolve_right id
  | _ => contradiction

/-- In every run in which no termination fails to get the semaphore for queued messages, the
queue has been drained when the event thread acknowledges.
-/
theorem drained {s : State cfg} (reach : (machine cfg).Reachable Drains s) : Drained s := by
  intro acknowledged
  have single := reach.mono (fun _ _ drains => drains.1)
  obtain ⟨inside, ended⟩ := ended_of_acknowledged single acknowledged
  have draining : Draining s.sh (s.threads s.sh.g.gThid) := by
    refine session_invariant (P := fun s => Draining s.sh (s.threads s.sh.g.gThid))
      (fun _ _ drains => drains.1) ?_ ?_ reach inside
    · intro s _ fresh
      refine ⟨by simp [Shared.flagged, Shared.flag, fresh.evflag], fun terminates => ?_⟩
      rcases fresh.polling with polls | polls <;> rw [polls] at terminates <;>
        exact terminates.elim
    · exact fun _ _ _ reach inside draining drains stepped =>
        draining.step (reach.mono (fun _ _ drains => drains.1)) inside drains stepped
  have empty := draining.empty ended
  obtain ⟨_, nodes, delivery⟩ := delivery single
  have passed := delivery.passed
  have none : (s.threads s.sh.g.gThid).passed = 0 := by
    cases place : s.threads s.sh.g.gThid <;> simp_all [EventPc.ended, EventPc.passed]
  rw [delivery.queue.head_eq_null.mp empty] at passed
  exact ⟨empty, by simpa [none] using passed⟩

/-- Witness: a message that is queued when _stop is called has been passed on and removed at
the acknowledgement.
-/
theorem drained_run
    : ∃ s : State .shipped,
        (s.sh.Acknowledged ∧ s.threads 13 = .returning ∧ (accepted s.sh.history).length = 1)
          ∧ Drained s := by
  have done : ((machine .shipped).run Drains (machine .shipped).init
      (loopRun ++ kprintfRun 100 ++ stopRun ++ eventRun 7
        ++ [.event 13 (.ret 0 3 (List.replicate 19 66))] ++ eventRun 14)).any
      (fun s => s.sh.Acknowledged ∧ s.threads 13 = .returning
        ∧ (accepted s.sh.history).length = 1) = true := by
    decide +kernel
  obtain ⟨s, reach, holds⟩ := System.exists_of_run done
  exact ⟨s, of_decide_eq_true holds, drained reach⟩

/-- Counterexample: the event thread fails to get the semaphore after the wake-up with
EV_TERMINATE. It sets EV_FLUSH again and acknowledges, and the message is left.
-/
theorem not_drained
    : ¬ ∀ s : State .shipped, (machine .shipped).Reachable SingleSession s → Drained s := by
  intro always
  have done : ((machine .shipped).run SingleSession (machine .shipped).init
      (loopRun ++ kprintfRun 100 ++ stopRun ++ eventRun 2
        ++ [.event 13 (.fail sceErrorKernelWaitCancel)] ++ eventRun 4)).any
      (fun s => s.sh.Acknowledged ∧ s.sh.g.gHead ≠ 0) = true := by
    decide +kernel
  obtain ⟨s, reach, holds⟩ := System.exists_of_run done
  obtain ⟨acknowledged, queued⟩ := of_decide_eq_true holds
  exact queued (always s reach (Or.inl acknowledged)).1

end LibKprintf
