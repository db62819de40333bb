import LibKprintf.Handlers.Calls
import LibKprintf.Session.Flags

/-! The acknowledgement of the event thread: EV_STOP_OK is set in its event flag when the thread
has nothing left to do but to return, and not before.
-/

namespace LibKprintf

open Foundation

variable {cfg : Config}

/-- Whether an event tells that EV_STOP_OK is set. -/
def Event.acknowledges : Event → Bool
  | .acknowledged flag => flag &&& evStopOk ≠ 0
  | _ => false

/-- The event thread has set EV_STOP_OK. -/
def Shared.Acknowledged (sh : Shared cfg) : Prop :=
  ∃ event ∈ sh.history, event.acknowledges = true

instance (sh : Shared cfg) : Decidable sh.Acknowledged :=
  inferInstanceAs (Decidable (∃ event ∈ sh.history, _))

section Silence

variable {thid : Uid} {thread : ThreadRef} {sh sh' : Shared cfg} {events : List Event}

/-- Other events do not tell so. -/
theorem acknowledged_append (history : sh'.history = sh.history ++ events)
    (silent : ∀ event ∈ events, event.acknowledges = false)
    : sh'.Acknowledged ↔ sh.Acknowledged := by
  rw [Shared.Acknowledged, history]
  constructor
  · intro ⟨event, member, tells⟩
    refine ⟨event, (List.mem_append.mp member).resolve_right fun new => ?_, tells⟩
    rw [silent event new] at tells
    contradiction
  · intro ⟨event, member, tells⟩
    exact ⟨event, List.mem_append_left _ member, tells⟩

/-- What has been told stays so. -/
theorem Shared.Acknowledged.grows (acknowledged : sh.Acknowledged)
    (grows : sh.history <+: sh'.history)
    : sh'.Acknowledged :=
  acknowledged.imp fun _ both => ⟨grows.subset both.1, both.2⟩

/-- No event before the session does. -/
theorem unacknowledged_beforeSession (before : ∀ event ∈ sh.history, event.BeforeSession)
    : ¬ sh.Acknowledged := by
  intro ⟨event, member, tells⟩
  have kind := before event member
  cases event <;> contradiction

/-- A Kprintf call does not acknowledge. -/
theorem kprintf_acknowledged {during} (printed : kprintf sh during = .next sh')
    : sh'.Acknowledged ↔ sh.Acknowledged := by
  obtain ⟨events, history, accepted⟩ := kprintf_events printed
  refine acknowledged_append history fun event member => ?_
  obtain ⟨stamp, body, rfl⟩ := accepted event member
  rfl

/-- Nor does an API function. -/
theorem ApiEffect.acknowledged {pc pc' : ApiPc} (effect : ApiEffect thread sh pc sh' pc')
    : sh'.Acknowledged ↔ sh.Acknowledged := by
  obtain ⟨events, history, kinds⟩ := effect.events
  refine acknowledged_append history fun event member => ?_
  have ofApi := (kinds event member).1
  cases event <;> first | rfl | contradiction

/-- Nor does a running API call. -/
theorem apiCallStep_acknowledged {call : ApiCall} {api : ApiPc} {api' : Option ApiPc}
    {choice : Choice cfg} (stepped : apiCallStep thread call sh api choice = .next (sh', api'))
    : sh'.Acknowledged ↔ sh.Acknowledged := by
  obtain ⟨ret, rfl, rfl, rfl⟩ | ⟨pc', ran, rfl⟩ := apiCallStep_cases stepped
  · exact acknowledged_append rfl (List.forall_mem_singleton.mpr rfl)
  · exact (apiStep_effect ran).acknowledged

/-- Nor does a client. -/
theorem ClientEffect.acknowledged {n : Nat} {pc pc' : ClientPc}
    (effect : ClientEffect n sh pc sh' pc')
    : sh'.Acknowledged ↔ sh.Acknowledged := by
  cases effect with
  | enter | leave => exact acknowledged_append rfl (List.forall_mem_singleton.mpr rfl)
  | run stepped => exact (apiStep_effect stepped).acknowledged

/-- Nor does flush_messages. -/
theorem FlushEffect.acknowledged {pc : FlushPc} {pc' : Option FlushPc}
    (effect : FlushEffect thid sh pc sh' pc')
    : sh'.Acknowledged ↔ sh.Acknowledged := by
  cases effect with
  | read => exact Iff.rfl
  | @observe _ _ event ofDelivery =>
      refine acknowledged_append rfl (List.forall_mem_singleton.mpr ?_)
      cases event <;> first | rfl | contradiction
  | callbackReturns | callbackCalls =>
      exact acknowledged_append rfl (List.forall_mem_singleton.mpr rfl)
  | nested stepped => exact apiCallStep_acknowledged stepped
  | remove freed =>
      refine acknowledged_append rfl fun event member => ?_
      obtain ⟨stamp, rfl⟩ := freed event member
      rfl

/-- Nor does _stop. -/
theorem StopEffect.acknowledgement {pc pc' : LoaderPc} {choice : Choice cfg}
    (effect : StopEffect sh pc choice sh' pc')
    : sh'.Acknowledged ↔ sh.Acknowledged := by
  cases effect with
  | announce printed =>
      rcases printed with rfl | ⟨during, printed⟩
      · exact Iff.rfl
      · exact kprintf_acknowledged printed
  | unhook => exact acknowledged_append rfl (List.forall_mem_singleton.mpr rfl)
  | enter | setStopped | post | acknowledged | giveUp => exact Iff.rfl

/-- The event thread does so with one call, after which EV_STOP_OK is set. -/
theorem acknowledge_acknowledged (flag : (sh.k.evflags sh.g.gEvid).isSome = true)
    : sh.acknowledge.flagged evStopOk ∧ sh.acknowledge.Acknowledged := by
  have set : sh.acknowledge.flagged evStopOk :=
    (flagged_of_set flag rfl).mpr (Or.inr (by decide))
  exact ⟨set, _, List.mem_append_right _ (List.mem_singleton.mpr rfl), decide_eq_true set⟩

/-- A step after which the thread has nothing left to do but to return either is that call, or
changes nothing any more.
-/
theorem EventEffect.ends {pc pc' : EventPc} (effect : EventEffect thid sh pc sh' pc')
    (ended : pc'.ended = true)
    : pc = .stopOk ∧ sh' = sh.acknowledge ∨ pc.ended = true ∧ sh' = sh := by
  cases effect with
  | move move =>
      cases move with
      | starts =>
          rcases afterPoll_cases cfg with same | same <;> rw [same] at ended <;> contradiction
      | returns => exact Or.inr ⟨rfl, rfl⟩
      | _ => contradiction
  | @register api sh' api' => cases api' <;> contradiction
  | @flush ev pc sh' pc' => cases pc' <;> contradiction
  | callRegister | wake | acquire | release | resend => contradiction
  | stopOk => exact Or.inl ⟨rfl, rfl⟩

/-- It acknowledges with the step to its end only. -/
theorem EventEffect.acknowledged {pc pc' : EventPc} (effect : EventEffect thid sh pc sh' pc')
    (flag : (sh.k.evflags sh.g.gEvid).isSome = true)
    (before : sh.Acknowledged ↔ pc.ended = true)
    : sh'.Acknowledged ↔ pc'.ended = true := by
  cases effect with
  | move move =>
      rw [before]
      cases move with
      | starts => rcases afterPoll_cases cfg with same | same <;> rw [same] <;> rfl
      | _ => rfl
  | callRegister => exact (acknowledged_append rfl (List.forall_mem_singleton.mpr rfl)).trans before
  | @register api sh' api' choice stepped =>
      refine (apiCallStep_acknowledged stepped).trans (before.trans ?_)
      cases api' <;> rfl
  | @flush ev pc sh' pc' choice stepped =>
      refine (flushStep_effect stepped).acknowledged.trans (before.trans ?_)
      cases pc' <;> rfl
  | wake | acquire | release | resend => exact before
  | stopOk => exact iff_of_true (acknowledge_acknowledged flag).2 rfl

end Silence

/-- In a session the event thread has set EV_STOP_OK exactly if it has nothing left to do but to
return.
-/
theorem acknowledged_iff {s : State cfg} (reach : (machine cfg).Reachable SingleSession s)
    (inside : s.loader.inSession = true)
    : s.sh.Acknowledged ↔ (s.threads s.sh.g.gThid).ended = true := by
  refine session_invariant
    (P := fun s => s.sh.Acknowledged ↔ (s.threads s.sh.g.gThid).ended = true)
    (fun _ _ single => single) ?_ ?_ reach inside
  · intro s _ fresh
    refine iff_of_false (unacknowledged_beforeSession fresh.history) ?_
    rcases fresh.polling with polls | polls <;> simp [polls, EventPc.ended]
  · intro s action t reach inside before single stepped
    have session := session reach inside
    cases State.step_cases stepped with
    | crash | overRegister => exact before
    | kprintf printed =>
        simp only [(kprintf_frame printed).gThid]
        exact (kprintf_acknowledged printed).trans before
    | @event thid choice sh' pc' ran =>
        obtain rfl := session.runs ran
        simp only [(eventStep_effect ran).frame.gThid, Function.update_self]
        exact (eventStep_effect ran).acknowledged session.evflag before
    | client ran =>
        have effect := clientStep_effect ran
        simp only [effect.frame.gThid]
        exact effect.acknowledged.trans before
    | loader ran =>
        obtain ⟨effect, rfl⟩ := loaderStep_effect ran inside (not_start single inside)
        simp only [effect.frame_gThid]
        exact effect.acknowledgement.trans before

/-- So it is the thread of the session that has set EV_STOP_OK, or that returns. -/
theorem ended_of_acknowledged {s : State cfg} (reach : (machine cfg).Reachable SingleSession s)
    (acknowledged : s.sh.Acknowledged ∨ ∃ thid, (s.threads thid).ended = true)
    : s.loader.inSession = true ∧ (s.threads s.sh.g.gThid).ended = true := by
  by_cases inside : s.loader.inSession = true
  · refine ⟨inside, ?_⟩
    rcases acknowledged with set | ⟨thid, ended⟩
    · exact (acknowledged_iff reach inside).mp set
    · have self : thid = s.sh.g.gThid := by
        by_contra other
        simp [(session reach inside).others thid other, EventPc.ended] at ended
      exact self ▸ ended
  · have before := (starting reach (by simpa using inside)).before
    rcases acknowledged with set | ⟨thid, ended⟩
    · exact absurd set (unacknowledged_beforeSession before.history)
    · have early := before.early thid
      cases place : s.threads thid <;> simp [place, EventPc.ended, EventPc.early] at ended early

end LibKprintf
