import LibKprintf.Stop.Drain

/-! Unloading: EV_STOP_OK says that the event thread has nothing left to do but to return. When
_stop has seen it, nothing of the library touches a message or calls a handler any more.
-/

namespace LibKprintf

open Foundation

variable {cfg : Config}

/-- A single session in which the timed wait of _stop does not give up before EV_STOP_OK is
set.
-/
def StopWaits (s : State cfg) (action : Action cfg) : Prop :=
  SingleSession s action
    ∧ match action, s.loader with
      | .loader (.fail _), .stop (.waitStopOk _) => s.sh.flagged evStopOk
      | _, _ => True

/-- The wait of _stop gives up. -/
def givesUp : Action cfg → LoaderPc → Bool
  | .loader (.fail _), .stop (.waitStopOk _) => true
  | _, _ => false

instance (s : State cfg) (action : Action cfg) : Decidable (StopWaits s action) :=
  decidable_of_iff
    (SingleSession s action ∧ (givesUp action s.loader = true → s.sh.flagged evStopOk))
    (by unfold StopWaits givesUp; split <;> simp)

/-- EV_STOP_OK is set, and _stop returns, only when the event thread has nothing left to do but to
return.
-/
structure Acknowledging (sh : Shared cfg) (pc : EventPc) (loader : LoaderPc) : Prop where
  set : sh.flagged evStopOk → pc.ended = true
  returned : loader = .stopped → pc.ended = true

/-- What does not set EV_STOP_OK keeps the invariant. -/
theorem Acknowledging.of_kept {sh sh' : Shared cfg} {pc : EventPc} {loader : LoaderPc}
    (acknowledging : Acknowledging sh pc loader)
    (kept : sh'.flagged evStopOk → sh.flagged evStopOk)
    : Acknowledging sh' pc loader :=
  ⟨fun set => acknowledging.set (kept set), acknowledging.returned⟩

/-- Kprintf calls, and all that touches the event flag by them only, do not set it. -/
theorem stopOk_kept {sh sh' : Shared cfg} (flag : (sh.k.evflags sh.g.gEvid).isSome = true)
    (moves : sh'.flag = sh.flag ∨ ∃ during, kprintf sh during = .next sh')
    (set : sh'.flagged evStopOk)
    : sh.flagged evStopOk := by
  rcases moves with same | ⟨during, printed⟩
  · rwa [Shared.flagged, same] at set
  · exact ((kprintf_flag printed flag).2 evStopOk (by decide)).mp set

/-- The event thread sets EV_STOP_OK with its last call. -/
theorem Acknowledging.event {thid : Uid} {sh sh' : Shared cfg} {pc pc' : EventPc}
    {loader : LoaderPc} {choice : Choice cfg} (acknowledging : Acknowledging sh pc loader)
    (flag : (sh.k.evflags sh.g.gEvid).isSome = true)
    (captured : ∀ evid, pc = .waitFlag evid → evid = sh.g.gEvid)
    (stepped : eventStep thid sh pc choice = .next (sh', pc'))
    : Acknowledging sh' pc' loader := by
  have effect := eventStep_effect stepped
  by_cases ended : pc.ended = true
  · obtain ⟨_, _, rfl⟩ := effect.idle ended
    exact ⟨fun _ => rfl, fun _ => rfl⟩
  have unset : ¬ sh.flagged evStopOk := fun set => ended (acknowledging.set set)
  refine ⟨fun set => ?_, fun returned => absurd (acknowledging.returned returned) ended⟩
  cases effect.flags captured with
  | stays same => exact absurd (stopOk_kept flag (Or.inl same) set) unset
  | prints printed => exact absurd (stopOk_kept flag (Or.inr ⟨_, printed⟩) set) unset
  | wakes before now =>
      have apart : ~~~(evFlush ||| evTerminate) &&& evStopOk = evStopOk := by decide
      rw [Shared.flagged, now, BitVec.and_assoc, apart, ← before] at set
      exact absurd set unset
  | resends same =>
      rcases (flagged_of_set flag same).mp set with old | new
      · exact absurd old unset
      · exact absurd (by decide) new
  | stopOk => rfl

/-- _stop returns only with EV_STOP_OK, or gives up when it is set. -/
theorem Acknowledging.stop {sh sh' : Shared cfg} {pc : EventPc} {place place' : LoaderPc}
    {choice : Choice cfg} (acknowledging : Acknowledging sh pc place)
    (flag : (sh.k.evflags sh.g.gEvid).isSome = true)
    (captured : ∀ evid, place = .stop (.waitStopOk evid) → evid = sh.g.gEvid)
    (state : sh.g.gState = .started ↔ place.isStarted = true)
    (waits
      : ∀ evid code, place = .stop (.waitStopOk evid) → choice = .fail code →
          sh.flagged evStopOk)
    (effect : StopEffect sh place choice sh' place')
    : Acknowledging sh' pc place' := by
  cases effect with
  | enter outside =>
      refine ⟨acknowledging.set, fun returned => ?_⟩
      rcases outside with rfl | rfl
      · have started : sh.g.gState = .started := state.mpr rfl
        simp [stopEntry, started] at returned
      · exact acknowledging.returned rfl
  | announce printed =>
      refine ⟨fun set => acknowledging.set (stopOk_kept flag ?_ set), by simp⟩
      exact printed.imp_left (fun same => by rw [same])
  | unhook | setStopped => exact ⟨acknowledging.set, by simp⟩
  | post =>
      refine ⟨fun set => acknowledging.set ?_, by simp⟩
      exact ((flagged_setEventFlag flag).mp set).resolve_right (by decide)
  | acknowledged took =>
      obtain ⟨before, now⟩ := takeEventFlag_flag took (captured _ rfl)
      have cleared : ~~~evStopOk &&& evStopOk = 0 := by decide
      refine ⟨fun set => ?_, fun _ => acknowledging.set ?_⟩
      · exact absurd (by rw [now, BitVec.and_assoc, cleared, BitVec.ofNat_eq_ofNat, BitVec.and_zero]) set
      · rw [Shared.flagged, before]
        unfold Kernel.takeEventFlag at took
        split at took
        · contradiction
        · split at took
          · contradiction
          · cases took
            assumption
  | giveUp => exact ⟨acknowledging.set, fun _ => acknowledging.set (waits _ _ rfl rfl)⟩

/-- Every step in the session in which _stop waits keeps the invariant. -/
theorem Acknowledging.step {s t : State cfg} {action : Action cfg}
    (acknowledging : Acknowledging s.sh (s.threads s.sh.g.gThid) s.loader) (session : Session s)
    (inside : s.loader.inSession = true) (waits : StopWaits s action)
    (stepped : s.step action = some t)
    : Acknowledging t.sh (t.threads t.sh.g.gThid) t.loader := by
  obtain ⟨single, patient⟩ := waits
  cases State.step_cases stepped with
  | crash => exact acknowledging
  | kprintf printed =>
      have gThid := (kprintf_frame printed).gThid
      simp only [gThid]
      exact acknowledging.of_kept (stopOk_kept session.evflag (Or.inr ⟨_, printed⟩))
  | @event thid choice sh' pc' ran =>
      obtain rfl := session.runs ran
      have gThid := (eventStep_effect ran).frame.gThid
      simpa only [gThid, Function.update_self] using
        acknowledging.event session.evflag (session.evid _) ran
  | @client n choice sh' pc' ran =>
      have effect := clientStep_effect ran
      have gThid := effect.frame.gThid
      simp only [gThid]
      exact acknowledging.of_kept (stopOk_kept session.evflag effect.flags)
  | @loader choice sh' threads' loader' ran =>
      obtain ⟨effect, rfl⟩ := loaderStep_effect ran inside (not_start single inside)
      have gThid := effect.frame_gThid
      simp only [gThid]
      refine acknowledging.stop session.evflag session.stopEvid session.state ?_ effect
      rintro evid code place rfl
      simpa [place] using patient
  | overRegister => exact acknowledging.of_kept id

/-- EV_STOP_OK has been set, and between two states no event thread was left with more to do than
to return, no handler was called and no queue node was touched.
-/
structure Ended (s t : State cfg) : Prop where
  acknowledged : t.sh.Acknowledged
  threads : ∀ thid, t.threads thid = .absent ∨ (t.threads thid).ended = true
  head : t.sh.g.gHead = s.sh.g.gHead
  mem : t.sh.k.mem = s.sh.k.mem
  silent : t.sh.history.filter Event.ofDelivery = s.sh.history.filter Event.ofDelivery

/-- When _stop has returned, the event thread has set EV_STOP_OK and at most returns, in whatever
happens until _start is called again.
-/
def SafeUnload (s : State cfg) : Prop :=
  s.loader = .stopped → ∀ t, (machine cfg).Path SingleSession s t → Ended s t

/-- A module that is not started accepts nothing. -/
theorem kprintf_stopped {sh sh' : Shared cfg} {during} (stopped : sh.g.gState ≠ .started)
    (printed : kprintf sh during = .next sh')
    : sh' = sh := by
  obtain same | ⟨started, _⟩ := kprintf_effect printed
  · exact same
  · exact absurd started stopped

/-- In a stopped module an API function touches no queue node and calls no handler. -/
theorem ApiEffect.stopped {thread : ThreadRef} {sh sh' : Shared cfg} {pc pc' : ApiPc}
    (effect : ApiEffect thread sh pc sh' pc') (stopped : sh.g.gState ≠ .started)
    : sh'.g.gHead = sh.g.gHead ∧ sh'.k.mem = sh.k.mem
      ∧ sh'.history.filter Event.ofDelivery = sh.history.filter Event.ofDelivery := by
  cases effect with
  | acquire _ took =>
      obtain ⟨semas, rfl⟩ := takeSema_shape took
      exact ⟨rfl, rfl, rfl⟩
  | @work _ _ _ _ _ events _ _ ofTable =>
      have silent : events.filter Event.ofDelivery = [] := by
        refine List.filter_eq_nil_iff.mpr fun event member => ?_
        have table := ofTable event member
        cases event <;> first | contradiction | exact Bool.false_ne_true
      exact ⟨rfl, rfl, by simp [silent]⟩
  | release =>
      obtain ⟨semas, same⟩ := signalSema_shape sh.k sh.g.gSemid
      exact ⟨rfl, by rw [same], rfl⟩
  | announce printed =>
      rcases printed with rfl | ⟨during, printed⟩
      · exact ⟨rfl, rfl, rfl⟩
      · rw [kprintf_stopped stopped printed]
        exact ⟨rfl, rfl, rfl⟩
  | refuse | dipsw | hook => exact ⟨rfl, rfl, rfl⟩

/-- Nor does a client. -/
theorem ClientEffect.stopped {n : Nat} {sh sh' : Shared cfg} {pc pc' : ClientPc}
    (effect : ClientEffect n sh pc sh' pc') (stopped : sh.g.gState ≠ .started)
    : sh'.g.gHead = sh.g.gHead ∧ sh'.k.mem = sh.k.mem
      ∧ sh'.history.filter Event.ofDelivery = sh.history.filter Event.ofDelivery := by
  cases effect with
  | enter | leave => exact ⟨rfl, rfl, by simp [Event.ofDelivery]⟩
  | run stepped => exact (apiStep_effect stepped).stopped stopped

/-- The state after _stop has returned, up to what may still change. -/
structure AfterStop (s t : State cfg) : Prop where
  loader : t.loader = .stopped
  ended : Ended s t

/-- Nothing that can still happen undoes the end, by cases of the thread. -/
theorem AfterStop.step {s t u : State cfg} {action : Action cfg} (after : AfterStop s t)
    (session : Session t) (single : SingleSession t action) (stepped : t.step action = some u)
    : AfterStop s u := by
  obtain ⟨loader, acknowledged, ended, head, mem, silent⟩ := after
  replace acknowledged := acknowledged.grows (history_grows stepped)
  have inside : t.loader.inSession = true := by rw [loader]; rfl
  have stopped : t.sh.g.gState ≠ .started := by
    rw [Ne, session.state, loader]
    simp [LoaderPc.isStarted]
  cases State.step_cases stepped with
  | crash => exact ⟨loader, acknowledged, ended, head, mem, silent⟩
  | kprintf printed =>
      rw [kprintf_stopped stopped printed] at acknowledged ⊢
      exact ⟨loader, acknowledged, ended, head, mem, silent⟩
  | @event thid choice sh' pc' ran =>
      have effect := eventStep_effect ran
      rcases ended thid with none | ends
      · rw [none] at ran
        contradiction
      obtain ⟨_, rfl, rfl⟩ := effect.idle ends
      refine ⟨loader, acknowledged, fun other => ?_, head, mem, silent⟩
      by_cases same : other = thid
      · subst same
        simp [EventPc.ended]
      · simpa [same] using ended other
  | @client n choice sh' pc' ran =>
      obtain ⟨head', mem', silent'⟩ := (clientStep_effect ran).stopped stopped
      exact ⟨loader, acknowledged, ended, head'.trans head, mem'.trans mem, silent'.trans silent⟩
  | @loader choice sh' threads' loader' ran =>
      obtain ⟨effect, rfl⟩ := loaderStep_effect ran inside (not_start single inside)
      rw [loader] at effect
      cases effect with
      | enter =>
          have returns : stopEntry t.sh = .stopped := by simp [stopEntry, stopped]
          exact ⟨returns, acknowledged, ended, head, mem, silent⟩
  | overRegister => exact ⟨loader, acknowledged, ended, head, mem, silent⟩

/-- In every run in which the timed wait does not give up before EV_STOP_OK is set, the
module may be unloaded once _stop has returned.
-/
theorem safe_unload {s : State cfg} (reach : (machine cfg).Reachable StopWaits s)
    : SafeUnload s := by
  intro returned t path
  have single := reach.mono (fun _ _ waits => waits.1)
  have inside : s.loader.inSession = true := by rw [returned]; rfl
  have acknowledging : Acknowledging s.sh (s.threads s.sh.g.gThid) s.loader := by
    refine session_invariant
      (P := fun s => Acknowledging s.sh (s.threads s.sh.g.gThid) s.loader)
      (fun _ _ waits => waits.1) ?_ ?_ reach inside
    · intro s _ fresh
      exact ⟨by simp [Shared.flagged, Shared.flag, fresh.evflag], by simp [fresh.loader]⟩
    · exact fun _ _ _ reach inside acknowledging waits stepped =>
        acknowledging.step (session (reach.mono (fun _ _ waits => waits.1)) inside) inside waits
          stepped
  have ended := acknowledging.returned returned
  have threads (thid : Uid) : s.threads thid = .absent ∨ (s.threads thid).ended = true := by
    by_cases self : thid = s.sh.g.gThid
    · subst self
      exact Or.inr ended
    · exact Or.inl ((session single inside).others thid self)
  -- The path is followed together with its reachability, which gives the session.
  have both : (machine cfg).Reachable SingleSession t ∧ AfterStop s t := by
    refine System.Path.preserves
      (P := fun t => (machine cfg).Reachable SingleSession t ∧ AfterStop s t) path
      ⟨single, returned, (acknowledged_iff single inside).mpr ended, threads, rfl, rfl, rfl⟩ ?_
    intro t action u earlier allowed stepped
    obtain ⟨reach, after⟩ := earlier
    have within : t.loader.inSession = true := by rw [after.loader]; rfl
    exact ⟨reach.step allowed stepped, after.step (session reach within) allowed stepped⟩
  exact both.2.ended

/-- Witness: _stop has seen EV_STOP_OK and has returned. -/
theorem safe_unload_run
    : ∃ s : State .shipped, s.loader = .stopped ∧ SafeUnload s := by
  have done : ((machine .shipped).run StopWaits (machine .shipped).init
      (loopRun ++ stopRun ++ eventRun 8 ++ [.loader .go])).any
      (fun s => s.loader = .stopped) = true := by
    decide +kernel
  obtain ⟨s, reach, returned⟩ := System.exists_of_run done
  exact ⟨s, by simpa using returned, safe_unload reach⟩

/-- Counterexample: the timed wait of _stop gives up before the event thread has been woken
up. _stop returns 0, and then the event thread calls a handler for the queued message.
-/
theorem not_safe_unload
    : ¬ ∀ s : State .shipped, (machine .shipped).Reachable SingleSession s → SafeUnload s := by
  intro always
  have done : ((machine .shipped).run SingleSession (machine .shipped).init
      (loopRun ++ kprintfRun 100 ++ stopRun
        ++ [.loader (.fail sceErrorKernelWaitTimeout)])).any
      (fun s => s.loader = .stopped
        ∧ ((machine .shipped).run SingleSession s (eventRun 7)).any
            (fun t => (t.sh.history.filter Event.ofDelivery)
              ≠ s.sh.history.filter Event.ofDelivery) = true) = true := by
    decide +kernel
  obtain ⟨s, reach, holds⟩ := System.exists_of_run done
  obtain ⟨returned, later⟩ := of_decide_eq_true holds
  obtain ⟨t, path, called⟩ := System.exists_path_of_run later
  exact of_decide_eq_true called (always s reach returned t path).silent

end LibKprintf
