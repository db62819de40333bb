import LibKprintf.Session.Flags
import LibKprintf.Queue.Delivery

/-! No lost wake-up: a queued message is ahead of the place the event thread has reached in
its pass over the queue, or EV_FLUSH is set and brings the event thread back.
-/

namespace LibKprintf

open Foundation

variable {cfg : Config}

/-- The running flush_messages will reach the end of the queue as it is now. A local that
was read before the last append, and is `NULL`, will not.
-/
def FlushPc.Passing (sh : Shared cfg) : FlushPc → Prop
  | .test m | .advance m => sh.g.gHead = m
  | .remove m n => sh.k.mem.next m = n
  | _ => True

/-- The event thread is in, or on its way to, a pass that will reach the end of the queue. -/
def EventPc.Passing (sh : Shared cfg) : EventPc → Prop
  | .testFlush ev => ev &&& evFlush ≠ 0
  | .waitSema .. => True
  | .flush _ pc => pc.Passing sh
  | _ => False

/-- Nothing is queued, or the event thread's pass will reach it. -/
def Covered (sh : Shared cfg) (pc : EventPc) : Prop := sh.g.gHead = 0 ∨ pc.Passing sh

/-- What is covered depends on the queue only. -/
theorem Covered.of_same {sh sh' : Shared cfg} {pc : EventPc} (covered : Covered sh pc)
    (head : sh'.g.gHead = sh.g.gHead) (mem : sh'.k.mem = sh.k.mem)
    : Covered sh' pc := by
  refine covered.imp (fun empty => head.trans empty) (fun passing => ?_)
  cases pc with
  | flush ev pc => cases pc <;> simp_all [EventPc.Passing, FlushPc.Passing]
  | _ => exact passing

/-- A flush loses nothing: every step leaves the rest of the queue covered. -/
theorem Covered.flush {thid : Uid} {sh sh' : Shared cfg} {ev : U32} {pc : FlushPc}
    {pc' : Option FlushPc} {choice : Choice cfg} {nodes : List Addr}
    (covered : Covered sh (.flush ev pc)) (delivery : Delivery sh (.flush ev pc) nodes)
    (pool : sh.k.vpls sh.g.gVplid = true)
    (stepped : flushStep thid sh pc choice = .next (sh', pc'))
    : Covered sh' (pc'.elim (.signal ev) (.flush ev)) := by
  cases pc with
  | start =>
      simp only [flushStep, Choice.onGo_eq_next, StepResult.next.injEq, Prod.mk.injEq] at stepped
      obtain ⟨_, rfl, rfl⟩ := stepped
      exact Or.inr rfl
  | test m =>
      simp only [flushStep, Choice.onGo_eq_next, StepResult.next.injEq] at stepped
      obtain ⟨_, stepped⟩ := stepped
      split at stepped <;> cases stepped
      · rename_i null
        rcases covered with empty | passing
        · exact Or.inl empty
        · exact Or.inl (Eq.trans passing null)
      · exact Or.inr trivial
  | slot m i =>
      simp only [flushStep, Choice.onGo_eq_next, StepResult.next.injEq] at stepped
      obtain ⟨_, stepped⟩ := stepped
      split at stepped
      · split at stepped <;> cases stepped <;> exact Or.inr trivial
      · cases stepped
        exact Or.inr trivial
  | invoke m i =>
      simp only [flushStep, Choice.onGo_eq_next] at stepped
      obtain ⟨_, stepped⟩ := stepped
      split at stepped
      · split at stepped
        · cases stepped
          exact Or.inr trivial
        · contradiction
      · contradiction
  | callback m i cb nested =>
      -- Whatever is appended meanwhile stands behind `m`, whose link is read later.
      cases flushStep_effect stepped with
      | read place | observe _ place => simp [FlushPc.inCallback] at place
      | callbackReturns =>
          refine Or.inr ?_
          simp only [Option.elim_some, EventPc.Passing]
          split <;> exact trivial
      | callbackCalls | nested => exact Or.inr trivial
  | delivered m =>
      simp only [flushStep, Choice.onGo_eq_next, StepResult.next.injEq, Prod.mk.injEq] at stepped
      obtain ⟨_, rfl, rfl⟩ := stepped
      exact Or.inr trivial
  | readNext m =>
      simp only [flushStep, Choice.onGo_eq_next, StepResult.map_eq_next, Prod.mk.injEq,
        StepResult.ofMemory_eq_next] at stepped
      obtain ⟨_, n, read, rfl, rfl⟩ := stepped
      obtain ⟨rest, rfl⟩ := delivery.first rfl
      rw [Mem.loadNext_live ((delivery.queue.live m).mpr (by simp))] at read
      exact Or.inr (Option.some.inj read)
  | remove m n =>
      simp only [flushStep, Choice.onGo_eq_next, StepResult.map_eq_next, Prod.exists,
        StepResult.ofMemory_eq_next, Prod.mk.injEq] at stepped
      obtain ⟨_, after, ret, removed, rfl, rfl⟩ := stepped
      obtain ⟨rest, rfl, removes, _⟩ := delivery.removes pool removed
      obtain ⟨first, nonnull, tail⟩ := Foundation.chain_cons.mp delivery.queue.chain
      have moved : after.g.gHead = sh.k.mem.next m := removes.queue.chain.head_unique tail
      rcases covered with empty | passing
      · exact absurd (first.symm.trans empty) nonnull
      · exact Or.inr (moved.trans passing)
  | advance n =>
      simp only [flushStep, Choice.onGo_eq_next, StepResult.next.injEq, Prod.mk.injEq] at stepped
      obtain ⟨_, rfl, rfl⟩ := stepped
      exact covered

/-- Outside a flush the event thread leaves the queue alone, except for the Kprintf call of
its registration.
-/
theorem EventEffect.queue {thid : Uid} {sh sh' : Shared cfg} {pc pc' : EventPc}
    (effect : EventEffect thid sh pc sh' pc') (outside : ∀ ev place, pc ≠ .flush ev place)
    : (sh'.g.gHead = sh.g.gHead ∧ sh'.k.mem = sh.k.mem)
      ∨ ∃ during, kprintf sh during = .next sh' := by
  cases effect with
  | flush => exact absurd rfl (outside _ _)
  | register stepped => exact (apiCallStep_queue stepped).imp (fun same => ⟨same.head, same.mem⟩) id
  | wake took =>
      obtain ⟨evflags, rfl⟩ := takeEventFlag_shape took
      exact Or.inl ⟨rfl, rfl⟩
  | acquire took =>
      obtain ⟨semas, rfl⟩ := takeSema_shape took
      exact Or.inl ⟨rfl, rfl⟩
  | release =>
      obtain ⟨semas, same⟩ := signalSema_shape sh.k sh.g.gSemid
      exact Or.inl ⟨rfl, by rw [same]⟩
  | resend | stopOk => exact Or.inl ⟨rfl, Shared.setEventFlag_mem sh _⟩
  | move | callRegister => exact Or.inl ⟨rfl, rfl⟩

/-- A step of the event thread leaves the queue covered, unless it has appended a message
itself or has failed to get the semaphore.
-/
theorem Covered.event {thid : Uid} {sh sh' : Shared cfg} {pc pc' : EventPc}
    {choice : Choice cfg} {nodes : List Addr} (covered : Covered sh pc)
    (delivery : Delivery sh pc nodes) (pool : sh.k.vpls sh.g.gVplid = true)
    (flag : (sh.k.evflags sh.g.gEvid).isSome = true)
    (stepped : eventStep thid sh pc choice = .next (sh', pc'))
    : Covered sh' pc'
      ∨ (sh.g.gState = .started ∧ sh'.flagged evFlush)
      ∨ ∃ ev semid code, pc = .waitSema ev semid ∧ choice = .fail code ∧ sh' = sh
          ∧ pc' = .resend ev := by
  -- Outside a flush only an empty queue is covered, and it stays empty.
  have idle (empty : sh.g.gHead = 0) (outside : ∀ ev place, pc ≠ .flush ev place) :
      Covered sh' pc' ∨ (sh.g.gState = .started ∧ sh'.flagged evFlush) := by
    rcases (eventStep_effect stepped).queue outside with ⟨head, _⟩ | ⟨during, printed⟩
    · exact Or.inl (Or.inl (head.trans empty))
    · rcases (kprintf_flag printed flag).1 with rfl | set
      · exact Or.inl (Or.inl empty)
      · exact Or.inr set
  cases pc with
  | testFlush ev =>
      simp only [eventStep, Choice.onGo_eq_next, StepResult.next.injEq, Prod.mk.injEq] at stepped
      obtain ⟨_, rfl, rfl⟩ := stepped
      refine Or.inl (covered.imp_right fun passing => ?_)
      have set : ev &&& evFlush ≠ 0 := passing
      rw [if_pos set]
      exact trivial
  | waitSema ev semid =>
      simp only [eventStep, Choice.onKernel_eq_next, StepResult.map_eq_next,
        StepResult.ofBlocking_eq_next, Prod.mk.injEq] at stepped
      obtain ⟨_, k, took, rfl, rfl⟩ | ⟨code, _, refused, rfl, rfl⟩ := stepped
      · exact Or.inl (Or.inr trivial)
      · exact Or.inr (Or.inr ⟨ev, semid, code, rfl, refused, rfl, rfl⟩)
  | flush ev place =>
      simp only [eventStep, StepResult.map_eq_next] at stepped
      obtain ⟨⟨next, place'⟩, flushed, same⟩ := stepped
      have later := covered.flush delivery pool flushed
      cases place' <;> cases same <;> exact Or.inl later
  | _ => exact (idle (by simpa [Covered, EventPc.Passing] using covered) (by simp)).imp_right Or.inl

/-- No queued message is forgotten: EV_FLUSH is set, the event thread's pass will reach the
end of the queue, or the event thread is about to set EV_FLUSH again.
-/
def Awake (sh : Shared cfg) (pc : EventPc) : Prop :=
  sh.flagged evFlush ∨ Covered sh pc ∨ ∃ ev, pc = .resend ev

/-- What leaves the queue alone and clears no EV_FLUSH keeps every message remembered. -/
theorem Awake.of_same {sh sh' : Shared cfg} {pc : EventPc} (awake : Awake sh pc)
    (flagged : sh.flagged evFlush → sh'.flagged evFlush) (head : sh'.g.gHead = sh.g.gHead)
    (mem : sh'.k.mem = sh.k.mem)
    : Awake sh' pc :=
  awake.imp flagged (Or.imp_left (fun covered => covered.of_same head mem))

/-- A Kprintf call sets EV_FLUSH for what it appends. -/
theorem Awake.kprintf {sh sh' : Shared cfg} {pc : EventPc} {during} (awake : Awake sh pc)
    (flag : (sh.k.evflags sh.g.gEvid).isSome = true)
    (printed : kprintf sh during = .next sh')
    : Awake sh' pc := by
  rcases (kprintf_flag printed flag).1 with rfl | ⟨_, set⟩
  · exact awake
  · exact Or.inl set

/-- The event thread takes EV_FLUSH only to start a pass, and a pass that stops early only
leaves messages behind whose Kprintf calls have set EV_FLUSH again.
-/
theorem Awake.event {thid : Uid} {sh sh' : Shared cfg} {pc pc' : EventPc} {choice : Choice cfg}
    {nodes : List Addr} (awake : Awake sh pc) (delivery : Delivery sh pc nodes)
    (pool : sh.k.vpls sh.g.gVplid = true) (flag : (sh.k.evflags sh.g.gEvid).isSome = true)
    (captured : ∀ evid, pc = .waitFlag evid → evid = sh.g.gEvid)
    (stepped : eventStep thid sh pc choice = .next (sh', pc'))
    : Awake sh' pc' := by
  rcases awake with set | covered | ⟨ev, rfl⟩
  · cases (eventStep_effect stepped).flags captured with
    | stays same => exact Or.inl (by rwa [Shared.flagged, same])
    | prints printed => exact Or.inl (((kprintf_flag printed flag).1).elim (· ▸ set) And.right)
    | wakes before =>
        subst before
        exact Or.inr (Or.inl (Or.inr set))
    | resends same | stopOk same => exact Or.inl ((flagged_of_set flag same).mpr (Or.inl set))
  · rcases covered.event delivery pool flag stepped with covered | set | ⟨ev, _, _, _, _, _, rfl⟩
    · exact Or.inr (Or.inl covered)
    · exact Or.inl set.2
    · exact Or.inr (Or.inr ⟨ev, rfl⟩)
  · simp only [eventStep, Choice.onGo_eq_next, StepResult.next.injEq, Prod.mk.injEq] at stepped
    obtain ⟨_, rfl, rfl⟩ := stepped
    exact Or.inl ((flagged_setEventFlag flag).mpr (Or.inr (by decide)))

/-- A client appends nothing but the message of its registration. -/
theorem Awake.client {n : Nat} {sh sh' : Shared cfg} {pc : EventPc} {place place' : ClientPc}
    (awake : Awake sh pc) (flag : (sh.k.evflags sh.g.gEvid).isSome = true)
    (effect : ClientEffect n sh place sh' place')
    : Awake sh' pc := by
  cases effect with
  | enter | leave => exact awake.of_same id rfl rfl
  | run stepped =>
      have effect := apiStep_effect stepped
      rcases effect.queue with same | ⟨during, printed⟩
      · rcases effect.flags with kept | ⟨during, printed⟩
        · exact awake.of_same (by simp only [Shared.flagged, kept, imp_self]) same.head same.mem
        · exact awake.kprintf flag printed
      · exact awake.kprintf flag printed

/-- _stop appends nothing but its message, and clears EV_STOP_OK only. -/
theorem Awake.stop {sh sh' : Shared cfg} {pc : EventPc} {place place' : LoaderPc}
    {choice : Choice cfg} (awake : Awake sh pc)
    (flag : (sh.k.evflags sh.g.gEvid).isSome = true)
    (captured : ∀ evid, place = .stop (.waitStopOk evid) → evid = sh.g.gEvid)
    (effect : StopEffect sh place choice sh' place')
    : Awake sh' pc := by
  cases effect with
  | enter | unhook | setStopped | giveUp => exact awake.of_same id rfl rfl
  | announce printed =>
      rcases printed with rfl | ⟨during, printed⟩
      · exact awake
      · exact awake.kprintf flag printed
  | post =>
      refine awake.of_same (fun set => (flagged_setEventFlag flag).mpr (Or.inl set)) rfl ?_
      exact Shared.setEventFlag_mem sh _
  | acknowledged took =>
      have kept := takeEventFlag_flagged evFlush took (captured _ rfl) (by decide)
      refine awake.of_same kept.mpr rfl ?_
      obtain ⟨evflags, rfl⟩ := takeEventFlag_shape took
      rfl

/-- Every step in the session remembers every queued message. -/
theorem Awake.step {s t : State cfg} {action : Action cfg}
    (awake : Awake s.sh (s.threads s.sh.g.gThid))
    (reach : (machine cfg).Reachable SingleSession s) (inside : s.loader.inSession = true)
    (single : SingleSession s action) (stepped : s.step action = some t)
    : Awake t.sh (t.threads t.sh.g.gThid) := by
  have session := session reach inside
  obtain ⟨_, nodes, delivery⟩ := delivery reach
  cases State.step_cases stepped with
  | crash => exact awake
  | kprintf printed =>
      have gThid := (kprintf_frame printed).gThid
      simpa only [gThid] using awake.kprintf session.evflag printed
  | @event thid choice sh' pc' ran =>
      obtain rfl := session.runs ran
      have gThid := (eventStep_effect ran).frame.gThid
      simpa only [gThid, Function.update_self] using
        awake.event delivery session.vpl session.evflag (session.evid _) ran
  | @client n choice sh' pc' ran =>
      have effect := clientStep_effect ran
      have gThid := effect.frame.gThid
      simpa only [gThid] using awake.client session.evflag effect
  | @loader choice sh' threads' loader' ran =>
      obtain ⟨effect, rfl⟩ := loaderStep_effect ran inside (not_start single inside)
      have gThid := effect.frame_gThid
      simpa only [gThid] using awake.stop session.evflag session.stopEvid effect
  | overRegister => exact awake.of_same id rfl rfl

/-- No lost wake-up: while messages are queued, an event thread that is at its wait for the
event flag finds EV_FLUSH set there.
-/
theorem no_lost_wake_up {s : State cfg} (reach : (machine cfg).Reachable SingleSession s)
    {thid evid : Uid} (waiting : s.threads thid = .waitFlag evid) (queued : s.sh.g.gHead ≠ 0)
    : ∃ bits, s.sh.k.evflags evid = some bits ∧ bits &&& evFlush ≠ 0 := by
  have inside : s.loader.inSession = true := by
    by_contra outside
    have early := (starting reach (by simpa using outside)).before.early thid
    simp [waiting, EventPc.early] at early
  have session := session reach inside
  have self : thid = s.sh.g.gThid := by
    by_contra other
    simp [session.others thid other] at waiting
  subst self
  obtain rfl := session.evid _ evid waiting
  have awake : Awake s.sh (s.threads s.sh.g.gThid) :=
    session_invariant (P := fun s => Awake s.sh (s.threads s.sh.g.gThid))
      (fun _ _ single => single) (fun _ _ fresh => Or.inr (Or.inl (Or.inl fresh.head)))
      (fun _ _ _ reach inside awake single stepped => awake.step reach inside single stepped)
      reach inside
  obtain ⟨bits, flag⟩ := Option.isSome_iff_exists.mp session.evflag
  refine ⟨bits, flag, ?_⟩
  rw [waiting] at awake
  rcases awake with set | covered | ⟨ev, other⟩
  · simpa [Shared.flagged, Shared.flag, flag] using set
  · exact absurd covered (by simp [Covered, EventPc.Passing, queued])
  · simp at other

/-- Witness: a message is queued while the event thread is at its wait. -/
theorem no_lost_wake_up_run
    : ∃ s : State .shipped,
        (s.threads 13 = .waitFlag 11 ∧ s.sh.g.gHead ≠ 0)
        ∧ ∃ bits, s.sh.k.evflags 11 = some bits ∧ bits &&& evFlush ≠ 0 := by
  have done : ((machine .shipped).run SingleSession (machine .shipped).init
      (loopRun ++ kprintfRun 100)).any
      (fun s => s.threads 13 = .waitFlag 11 ∧ s.sh.g.gHead ≠ 0) = true := by
    decide +kernel
  obtain ⟨s, reach, holds⟩ := System.exists_of_run done
  have place : s.threads 13 = .waitFlag 11 ∧ s.sh.g.gHead ≠ 0 := by simpa using holds
  exact ⟨s, place, no_lost_wake_up reach place.1 place.2⟩

end LibKprintf
