import LibKprintf.Handlers.Flush
import LibKprintf.Handlers.Reentry
import LibKprintf.Output.Stdout

/-! Every callback call of a concurrent run. Whatever the clients, the Kprintf calls and the
callbacks themselves do meanwhile, the messages are passed on as if one after the other, each to
the handlers that were registered when its delivery began.
-/

namespace LibKprintf

open Foundation

variable {cfg : Config}

-----------------------------------------------------------------------------------------
-- What is to be called
-----------------------------------------------------------------------------------------

/-- A call of a callback for a message, with its reply. -/
structure ServedCall where
  stamp : Nat
  record : CallRecord
  reply : Reply
  deriving DecidableEq

/-- The calls that a message may come to: the handlers get it one after the other, each as the one
before left it, up to the first that answers `KPRINTF_MSG_STOP`.
-/
inductive Served (stamp : Nat)
    : List (Nat × Callback × U32) → MsgBody → List ServedCall → Prop
  | over {body} : Served stamp [] body []
  | stops {slot cb arg rest body reply} (stop : reply.res = kprintfMsgStop)
    : Served stamp ((slot, cb, arg) :: rest) body [⟨stamp, ⟨slot, cb, body.args arg⟩, reply⟩]
  | passes {slot cb arg rest body reply calls} (pass : reply.res ≠ kprintfMsgStop)
    (later : Served stamp rest (body.leave reply) calls)
    : Served stamp ((slot, cb, arg) :: rest) body
        (⟨stamp, ⟨slot, cb, body.args arg⟩, reply⟩ :: calls)

/-- The registered handlers, in ascending order of their slots. -/
def registeredSlots (cfg : Config) (history : List Event) : List (Nat × Callback × U32) :=
  (List.range cfg.kprintfMaxHandlers).filterMap (fun i => (registered history i).map (i, ·))

/-- The calls that the deliveries of a history may come to: the messages are served one after the
other, each by the handlers registered at the beginning of its delivery.
-/
inductive Explains (cfg : Config) : List Event → List ServedCall → Prop
  | nothing : Explains cfg [] []
  | other {past event calls} (earlier : Explains cfg past calls)
    (quiet : ∀ stamp body, event ≠ .deliveryBegins stamp body)
    : Explains cfg (past ++ [event]) calls
  | delivery {past stamp body calls more} (earlier : Explains cfg past calls)
    (served : Served stamp (registeredSlots cfg past) body more)
    : Explains cfg (past ++ [.deliveryBegins stamp body]) (calls ++ more)

/-- The calls of a dispatch to callbacks that behave as functions are among them; by induction on
the slots.
-/
theorem served_dispatch {σ : Type} (behaviour : Behaviour σ) (stamp : Nat)
    (slots : List (Nat × Callback × U32)) (own : σ) (body : MsgBody)
    : ∃ calls, Served stamp slots body calls
        ∧ calls.map ServedCall.record = (dispatch behaviour slots own body).2 := by
  induction slots generalizing own body with
  | nil => exact ⟨[], .over, rfl⟩
  | cons first rest ih =>
      obtain ⟨slot, cb, arg⟩ := first
      by_cases stop : (behaviour.call own cb (body.args arg)).2.res = kprintfMsgStop
      · exact ⟨_, .stops stop, by rw [dispatch_stop rest stop]; rfl⟩
      · obtain ⟨calls, later, records⟩ := ih (behaviour.call own cb (body.args arg)).1
          (body.leave (behaviour.call own cb (body.args arg)).2)
        refine ⟨_, .passes stop later, ?_⟩
        rw [dispatch_pass rest stop, List.map_cons, records]

/-- So every message can be served. -/
theorem exists_served (stamp : Nat) (slots : List (Nat × Callback × U32)) (body : MsgBody)
    : ∃ calls, Served stamp slots body calls := by
  let quiet : Behaviour Unit := ⟨fun own _ args => (own, ⟨0, args.len, args.msg⟩), fun _ _ _ => rfl⟩
  obtain ⟨calls, served, _⟩ := served_dispatch quiet stamp slots () body
  exact ⟨calls, served⟩

/-- Events that begin no delivery explain no further call; by induction on them. -/
theorem Explains.append {history events : List Event} {calls : List ServedCall}
    (explains : Explains cfg history calls)
    (quiet : ∀ event ∈ events, ∀ stamp body, event ≠ .deliveryBegins stamp body)
    : Explains cfg (history ++ events) calls := by
  induction events using List.reverseRecOn with
  | nil => simpa using explains
  | append_singleton events event ih =>
      rw [← List.append_assoc]
      exact .other (ih fun other member => quiet other (List.mem_append_left _ member))
        (quiet event (by simp))

/-- Before the session there is nothing to explain. -/
theorem explains_beforeSession {history : List Event}
    (before : ∀ event ∈ history, event.BeforeSession)
    : Explains cfg history [] := by
  have explains : Explains cfg ([] ++ history) [] := by
    refine Explains.nothing.append fun event member stamp body begins => ?_
    subst begins
    exact before _ member
  simpa using explains

-----------------------------------------------------------------------------------------
-- What is called
-----------------------------------------------------------------------------------------

/-- The calls that a step completes: a callback returns, which was called with the argument that
the history has noted.
-/
def State.served (s : State cfg) (action : Action cfg) : List ServedCall :=
  match s.returning action with
  | some ⟨m, i, cb, res, len, msg⟩ =>
      let message := s.sh.k.mem.entry m
      let arg := passedArg s.sh.history message.1 i
      [⟨message.1, ⟨i, cb, message.2.args arg⟩, ⟨res, len, msg⟩⟩]
  | none => []

/-- The calls so far, while the message in `m` is passed to the slots from `i` on: whatever these
come to completes an explanation.
-/
def Shared.Serves (sh : Shared cfg) (calls : List ServedCall) (m : Addr) (i : Nat) : Prop :=
  ∀ more, Served (sh.k.mem.entry m).1 (sh.g.usedFrom i) (sh.k.mem.entry m).2 more →
    Explains cfg sh.history (calls ++ more)

/-- The calls so far, at each program point of flush_messages. -/
def FlushPc.Serves (sh : Shared cfg) (calls : List ServedCall) : FlushPc → Prop
  | .slot m i => sh.Serves calls m i
  | .invoke m i => sh.Serves calls m i
  | .callback m i cb _ => (∃ arg, sh.g.pairAt i = some (cb, arg)) ∧ sh.Serves calls m i
  | _ => Explains cfg sh.history calls

/-- The calls so far, wherever the event thread is. -/
def EventPc.Serves (sh : Shared cfg) (calls : List ServedCall) : EventPc → Prop
  | .flush _ pc => pc.Serves sh calls
  | _ => Explains cfg sh.history calls

/-- Whether the event thread is in the middle of invoke_handlers. -/
def EventPc.inHandlers : EventPc → Bool
  | .flush _ (.slot ..) | .flush _ (.invoke ..) | .flush _ (.callback ..) => true
  | _ => false

section Serves

variable {s : State cfg} {sh sh' : Shared cfg} {calls : List ServedCall} {thid : Uid} {ev : U32}
variable {m : Addr} {i : Nat} {pc : FlushPc} {choice : Choice cfg}

/-- A step that changes neither the table nor the message, and begins no delivery, keeps the calls
in agreement.
-/
theorem Shared.Serves.frame {events : List Event} (serves : sh.Serves calls m i)
    (history : sh'.history = sh.history ++ events)
    (quiet : ∀ event ∈ events, ∀ stamp body, event ≠ .deliveryBegins stamp body)
    (table : ∀ j, sh'.g.pairAt j = sh.g.pairAt j) (entry : sh'.k.mem.entry m = sh.k.mem.entry m)
    : sh'.Serves calls m i := by
  intro more served
  have slots : sh'.g.usedFrom i = sh.g.usedFrom i := by simp only [Globals.usedFrom, table]
  rw [entry, slots] at served
  rw [history]
  exact (serves more served).append quiet

/-- The same at every program point. -/
theorem FlushPc.Serves.frame {events : List Event} (serves : pc.Serves sh calls)
    (history : sh'.history = sh.history ++ events)
    (quiet : ∀ event ∈ events, ∀ stamp body, event ≠ .deliveryBegins stamp body)
    (table : ∀ j, sh'.g.pairAt j = sh.g.pairAt j)
    (entries : ∀ a ∈ pc.known, sh'.k.mem.entry a = sh.k.mem.entry a)
    : pc.Serves sh' calls := by
  cases pc with
  | slot m i | invoke m i =>
      exact Shared.Serves.frame serves history quiet table (entries m (List.mem_singleton_self m))
  | callback m i cb nested =>
      obtain ⟨⟨arg, held⟩, serves⟩ := serves
      exact ⟨⟨arg, (table i).trans held⟩,
        serves.frame history quiet table (entries m (List.mem_singleton_self m))⟩
  | _ =>
      show Explains cfg sh'.history calls
      rw [history]
      exact Explains.append serves quiet

/-- A free slot is passed over. -/
theorem Shared.Serves.skip (serves : sh.Serves calls m i) (free : sh.g.pairAt i = none)
    (bound : i < cfg.kprintfMaxHandlers)
    : sh.Serves calls m (i + 1) := by
  intro more served
  refine serves more ?_
  simpa [Globals.usedFrom_next bound, free] using served

/-- Behind the last slot the message has been served. -/
theorem Shared.Serves.finish (serves : sh.Serves calls m i)
    (out : ¬ i < cfg.kprintfMaxHandlers)
    : Explains cfg sh.history calls := by
  have complete := serves [] (by rw [Globals.usedFrom_end out]; exact .over)
  simpa using complete

/-- Only a callback that returns completes a call. -/
theorem State.served_eq_nil {action : Action cfg} (none : s.returning action = none)
    : s.served action = [] := by
  simp [State.served, none]

/-- A callback that returns has been given the message as it is, and leaves it to the next one,
or stops it.
-/
theorem Shared.Serves.returns {cb : Callback} {arg : U32} {res : Int} {len : U16}
    {msg : List Byte} {mem : Mem} (serves : s.sh.Serves calls m i)
    (place : s.threads thid = .flush ev (.callback m i cb none))
    (held : s.sh.g.pairAt i = some (cb, arg))
    (passed : passedArg s.sh.history (s.sh.k.mem.entry m).1 i = arg)
    (stored : s.sh.k.mem.store m (fun node => { node with len := len, msg := msg }) = some mem)
    : FlushPc.Serves
        ({ s.sh with k := { s.sh.k with mem := mem } }.note
          (.returned (s.sh.k.mem.block m).stamp i res))
        (calls ++ s.served (.event thid (.ret res len msg)))
        (if res = kprintfMsgStop then .delivered m else .slot m (i + 1)) := by
  have bound : i < cfg.kprintfMaxHandlers := by
    by_contra out
    rw [Globals.pairAt_out (Nat.le_of_not_lt out)] at held
    contradiction
  have slots : s.sh.g.usedFrom i = (i, cb, arg) :: s.sh.g.usedFrom (i + 1) := by
    simp [Globals.usedFrom_next bound, held]
  have shown : s.served (.event thid (.ret res len msg))
      = [⟨(s.sh.k.mem.entry m).1, ⟨i, cb, (s.sh.k.mem.entry m).2.args arg⟩, ⟨res, len, msg⟩⟩] := by
    simp only [State.served, State.returning, place, passed]
  have quiet (event : Event) (member : event ∈ [Event.returned (s.sh.k.mem.block m).stamp i res])
      (stamp : Nat) (body : MsgBody) : event ≠ .deliveryBegins stamp body := by
    rw [List.mem_singleton.mp member]
    simp
  rw [shown]
  split
  · rename_i stop
    refine Explains.append (serves _ ?_) quiet
    rw [slots]
    exact .stops stop
  · rename_i pass
    intro more served
    have entry : mem.entry m
        = ((s.sh.k.mem.entry m).1, (s.sh.k.mem.entry m).2.leave ⟨res, len, msg⟩) := by
      unfold Mem.store at stored
      split at stored
      · cases stored
        simp [Mem.entry, MsgBody.leave]
      · contradiction
    rw [List.append_assoc, List.singleton_append]
    refine Explains.append (serves _ ?_) quiet
    rw [slots]
    exact .passes pass (by simpa [entry] using served)

/-- Every step of flush_messages keeps the calls in agreement, by cases of its program point. -/
theorem serves_flush {pc' : Option FlushPc} {nodes : List Addr} (serves : pc.Serves s.sh calls)
    (place : s.threads thid = .flush ev pc) (delivery : Delivery s.sh (.flush ev pc) nodes)
    (dispatch : Dispatch s.sh.history (.flush ev pc))
    (table : ∀ slot, s.sh.g.pairAt slot = registered s.sh.history slot)
    (nested : ∀ call api, pc.nested = some (call, api) → api.locked = false)
    (stepped : flushStep thid s.sh pc choice = .next (sh', pc'))
    : (pc'.elim (.signal ev) (.flush ev) : EventPc).Serves sh'
        (calls ++ s.served (.event thid choice)) := by
  have silent (elsewhere : ∀ m i cb, pc ≠ .callback m i cb none) :
      calls ++ s.served (.event thid choice) = calls := by
    have nobody : s.returning (.event thid choice) = none :=
      State.returning_eq_none place fun _ m i cb same =>
        elsewhere m i cb (EventPc.flush.inj same).2
    rw [State.served_eq_nil nobody, List.append_nil]
  cases pc with
  | start | advance n =>
      rw [silent (by simp)]
      simp only [flushStep, Choice.onGo_eq_next, StepResult.next.injEq, Prod.mk.injEq] at stepped
      obtain ⟨_, rfl, rfl⟩ := stepped
      exact serves
  | test m =>
      rw [silent (by simp)]
      simp only [flushStep, Choice.onGo_eq_next, StepResult.next.injEq] at stepped
      obtain ⟨_, stepped⟩ := stepped
      split at stepped <;> cases stepped
      · exact serves
      · -- The table is what has been registered, so the message is served as it is to be.
        intro more served
        refine .delivery serves ?_
        have slots : registeredSlots cfg s.sh.history = s.sh.g.usedFrom 0 := by
          simp only [registeredSlots, Globals.usedFrom_zero, Globals.used, table]
        rw [slots]
        exact served
  | slot m i =>
      rw [silent (by simp)]
      simp only [flushStep, Choice.onGo_eq_next, StepResult.next.injEq] at stepped
      obtain ⟨_, stepped⟩ := stepped
      split at stepped
      · rename_i bound
        split at stepped <;> cases stepped
        · rename_i unused
          exact Shared.Serves.skip serves (Globals.pairAt_eq_none.mpr unused) bound
        · exact serves
      · rename_i out
        cases stepped
        exact Shared.Serves.finish serves out
  | invoke m i =>
      rw [silent (by simp)]
      simp only [flushStep, Choice.onGo_eq_next] at stepped
      obtain ⟨_, stepped⟩ := stepped
      split at stepped
      · rename_i cb arg slot
        split at stepped
        · cases stepped
          exact ⟨⟨arg, pairAt_eq_some.mpr slot⟩,
            Shared.Serves.frame serves rfl (by simp) (fun _ => rfl) rfl⟩
        · contradiction
      · contradiction
  | callback m i cb running =>
      obtain ⟨⟨arg, held⟩, serves⟩ := serves
      obtain ⟨rest, rfl⟩ := delivery.first rfl
      cases running with
      | none =>
          obtain ⟨res, len, msg, mem, rfl, stored, rfl, rfl⟩ | ⟨call, rfl, rfl, rfl⟩ :=
            flushStep_callback stepped
          · have passed : passedArg s.sh.history (s.sh.k.mem.entry m).1 i = arg := by
              rw [show (s.sh.k.mem.entry m).1 = _ from (delivery.stamp_eq rfl).1]
              exact dispatch.passedArg ((table i).symm.trans held)
            exact serves.returns place held passed stored
          · rw [State.served_eq_nil (by rfl), List.append_nil]
            exact ⟨⟨arg, held⟩, serves.frame rfl (by simp) (fun _ => rfl) rfl⟩
      | some running =>
          obtain ⟨call, api⟩ := running
          rw [silent (by simp)]
          simp only [flushStep, StepResult.map_eq_next, Prod.exists, Prod.mk.injEq] at stepped
          obtain ⟨after, api', called, rfl, rfl⟩ := stepped
          obtain ⟨events, history, quiet⟩ := apiCallStep_events called
          have same := apiCallStep_table called (nested call api rfl)
          have pairs (j : Nat) : after.g.pairAt j = s.sh.g.pairAt j := by
            simp only [Globals.pairAt, same.handlers]
          have entries := (Shared.Prints.kept (apiCallStep_queue called) delivery).2
          refine ⟨⟨arg, (pairs i).trans held⟩, serves.frame history (fun event member stamp body
            begins => ?_) pairs (entries m List.mem_cons_self)⟩
          subst begins
          simpa [Event.ofDispatch] using (quiet _ member).1
  | delivered m =>
      rw [silent (by simp)]
      simp only [flushStep, Choice.onGo_eq_next, StepResult.next.injEq, Prod.mk.injEq] at stepped
      obtain ⟨_, rfl, rfl⟩ := stepped
      exact .other serves (by simp)
  | readNext m =>
      rw [silent (by simp)]
      simp only [flushStep, Choice.onGo_eq_next, StepResult.map_eq_next, Prod.mk.injEq] at stepped
      obtain ⟨_, n, _, rfl, rfl⟩ := stepped
      exact serves
  | remove m n =>
      rw [silent (by simp)]
      simp only [flushStep, Choice.onGo_eq_next, StepResult.map_eq_next, Prod.exists,
        StepResult.ofMemory_eq_next, Prod.mk.injEq] at stepped
      obtain ⟨_, _, ret, removed, rfl, rfl⟩ := stepped
      obtain ⟨head, mem, events, freed, rfl⟩ := removeDeleteMsg_effect removed
      refine Explains.append serves fun event member stamp body begins => ?_
      obtain ⟨_, told⟩ := freed event member
      simp [begins] at told

/-- A step outside flush_messages begins no delivery. -/
theorem Shared.Prints.quiet (prints : sh.Prints sh')
    : ∃ events, sh'.history = sh.history ++ events
        ∧ ∀ event ∈ events, ∀ stamp body, event ≠ .deliveryBegins stamp body := by
  rcases prints with ⟨_, _, _, events, history, silent⟩ | ⟨during, printed⟩
  · refine ⟨events, history, fun event member stamp body begins => ?_⟩
    subst begins
    exact absurd (silent _ member) (by simp [Event.ofQueue])
  · obtain ⟨events, history, accepted⟩ := kprintf_events printed
    refine ⟨events, history, fun event member stamp body begins => ?_⟩
    obtain ⟨_, _, told⟩ := accepted event member
    simp [begins] at told

/-- Such a step keeps the calls in agreement, if it leaves the table alone during a flush. -/
theorem EventPc.Serves.prints {pc : EventPc} {nodes : List Addr} (serves : pc.Serves sh calls)
    (delivery : Delivery sh pc nodes) (prints : sh.Prints sh')
    (table : pc.locked = true → sh.SameTable sh')
    : pc.Serves sh' calls := by
  obtain ⟨events, history, quiet⟩ := prints.quiet
  have entries := (prints.kept delivery).2
  cases pc with
  | flush ev place =>
      refine FlushPc.Serves.frame serves history quiet (fun j => ?_) fun a member => ?_
      · simp only [Globals.pairAt, (table rfl).handlers]
      · exact entries a (delivery.known.subset member)
  | _ =>
      show Explains cfg sh'.history calls
      rw [history]
      exact Explains.append serves quiet

/-- A step of the event thread outside flush_messages leaves nothing half served. -/
theorem EventEffect.serves {pc pc' : EventPc} (effect : EventEffect thid sh pc sh' pc')
    (elsewhere : ∀ ev place, pc ≠ .flush ev place) (explains : Explains cfg sh.history calls)
    : pc'.Serves sh' calls := by
  obtain ⟨events, history, quiet⟩ := (effect.prints elsewhere).quiet
  have later : Explains cfg sh'.history calls := history ▸ explains.append quiet
  cases effect with
  | flush => exact absurd rfl (elsewhere _ _)
  | move move =>
      have free := move.free.2
      cases pc' <;> first | contradiction | exact later
  | @register api sh' api' choice => cases api' <;> exact later
  | callRegister | wake | acquire | release | resend | stopOk => exact later

/-- Every step in the session keeps the calls in agreement. -/
theorem serves_step {t : State cfg} {action : Action cfg}
    (serves : (s.threads s.sh.g.gThid).Serves s.sh calls)
    (reach : (machine cfg).Reachable SingleSession s) (inside : s.loader.inSession = true)
    (single : SingleSession s action) (stepped : s.step action = some t)
    : (t.threads t.sh.g.gThid).Serves t.sh (calls ++ s.served action) := by
  have exclusive := exclusion reach inside
  obtain ⟨nodes, delivered⟩ := (delivering reach inside).delivery
  cases State.step_cases stepped with
  | crash =>
      have running := (delivery (reach.step single stepped)).1
      contradiction
  | overRegister =>
      rw [State.served_eq_nil (by rfl), List.append_nil]
      exact serves.prints delivered (Or.inl ⟨rfl, rfl, rfl, [], by simp, by simp⟩)
        fun _ => ⟨rfl, rfl, rfl⟩
  | kprintf printed =>
      rw [State.served_eq_nil (by rfl), List.append_nil, (kprintf_frame printed).gThid]
      exact serves.prints delivered (Or.inr ⟨_, printed⟩) fun _ => kprintf_table printed
  | @loader choice sh' threads' loader' ran =>
      obtain ⟨effect, rfl⟩ := loaderStep_effect ran inside (not_start single inside)
      rw [State.served_eq_nil (by rfl), List.append_nil, effect.frame_gThid]
      exact serves.prints delivered effect.prints fun _ => effect.table
  | @client n choice sh' pc' ran =>
      have effect := clientStep_effect ran
      rw [State.served_eq_nil (by rfl), List.append_nil, effect.frame.gThid]
      refine serves.prints delivered effect.prints fun locked => effect.table ?_
      obtain ⟨holder, _, guarded⟩ := exclusive.owned
      by_contra held
      have both : ThreadRef.client n = .event s.sh.g.gThid :=
        guarded.exclusive (show s.locked (.client n) = true by simpa [State.locked] using held)
          locked
      contradiction
  | @event thid choice sh' pc' ran =>
      obtain rfl := (session reach inside).runs ran
      have effect := eventStep_effect ran
      rw [effect.frame.gThid]
      simp only [Function.update_self]
      by_cases elsewhere : ∀ ev place, s.threads s.sh.g.gThid ≠ .flush ev place
      · have explains : Explains cfg s.sh.history calls := by
          cases place : s.threads s.sh.g.gThid with
          | flush ev pc => exact absurd place (elsewhere ev pc)
          | _ =>
              rw [place] at serves
              exact serves
        rw [State.served_eq_nil (State.returning_eq_none rfl fun ev m i cb => elsewhere ev _),
          List.append_nil]
        exact effect.serves elsewhere explains
      · push Not at elsewhere
        obtain ⟨ev, pc, place⟩ := elsewhere
        rw [place] at serves delivered ran
        simp only [eventStep, StepResult.map_eq_next] at ran
        obtain ⟨⟨next, pc''⟩, flushed, same⟩ := ran
        obtain ⟨dispatch, table, unlocked⟩ := in_flush reach inside place
        have later := serves_flush serves place delivered dispatch table unlocked flushed
        cases pc'' <;> cases same <;> exact later

end Serves

-----------------------------------------------------------------------------------------
-- Whole runs
-----------------------------------------------------------------------------------------

/-- In every run the calls are in agreement with the deliveries. -/
theorem calls_serve {s : State cfg} {calls : List ServedCall}
    (observed : (machine cfg).Observed SingleSession State.served s calls)
    : (s.loader.inSession = false → calls = [])
      ∧ (s.loader.inSession = true → (s.threads s.sh.g.gThid).Serves s.sh calls) := by
  refine observed.invariant (P := fun s calls =>
    (s.loader.inSession = false → calls = [])
      ∧ (s.loader.inSession = true → (s.threads s.sh.g.gThid).Serves s.sh calls))
    ⟨fun _ => rfl, fun inside => by contradiction⟩ ?_
  intro s action t calls reach earlier single stepped
  by_cases inside : s.loader.inSession = true
  · have inside' := inSession_step single inside stepped
    exact ⟨fun outside => by simp [inside'] at outside, fun _ =>
      serves_step (earlier.2 inside) reach inside single stepped⟩
  · -- Before the session no callback runs.
    have before : s.loader.inSession = false := by simpa using inside
    have early := (starting reach before).before.early
    have silent : s.served action = [] := by
      refine State.served_eq_nil ?_
      cases action with
      | event thid choice =>
          refine State.returning_eq_none rfl fun ev m i cb same => ?_
          simpa [same, EventPc.early] using early thid
      | _ => rfl
    rw [silent, List.append_nil, earlier.1 before]
    refine ⟨fun _ => rfl, fun inside' => ?_⟩
    rcases (starting reach before).step before single stepped with ⟨outside, _⟩ | fresh
    · simp [inside'] at outside
    · have explains : Explains cfg t.sh.history [] := explains_beforeSession fresh.history
      rcases fresh.polling with polls | polls <;> rw [polls] <;> exact explains

/-- Dispatch is atomic. In every run of a session, whatever happens between the steps of
flush_messages, the callbacks get what they get when the messages are served one after the other by
the handlers registered at the beginning of each delivery: the calls so far are the first ones of
such calls, and all of them wherever the event thread is not in the middle of invoke_handlers.
-/
theorem dispatch_atomic {s : State cfg} {calls : List ServedCall}
    (observed : (machine cfg).Observed SingleSession State.served s calls)
    : ∃ rest, Explains cfg s.sh.history (calls ++ rest)
        ∧ ((s.threads s.sh.g.gThid).inHandlers = false → rest = []) := by
  obtain ⟨before, after⟩ := calls_serve observed
  by_cases inside : s.loader.inSession = true
  swap
  · have outside : s.loader.inSession = false := by simpa using inside
    have history := (starting observed.reachable outside).before.history
    exact ⟨[], by rw [before outside]; exact explains_beforeSession history, fun _ => rfl⟩
  have serves := after inside
  have complete (explains : Explains cfg s.sh.history calls) :
      ∃ rest, Explains cfg s.sh.history (calls ++ rest)
        ∧ ((s.threads s.sh.g.gThid).inHandlers = false → rest = []) :=
    ⟨[], by simpa using explains, fun _ => rfl⟩
  have partly {m : Addr} {i : Nat} (serves : s.sh.Serves calls m i)
      (within : (s.threads s.sh.g.gThid).inHandlers = true) :
      ∃ rest, Explains cfg s.sh.history (calls ++ rest)
        ∧ ((s.threads s.sh.g.gThid).inHandlers = false → rest = []) := by
    obtain ⟨rest, served⟩ := exists_served (s.sh.k.mem.entry m).1 (s.sh.g.usedFrom i)
      (s.sh.k.mem.entry m).2
    exact ⟨rest, serves rest served, fun without => by simp [within] at without⟩
  cases place : s.threads s.sh.g.gThid with
  | flush ev pc =>
      rw [place] at serves complete partly
      cases pc with
      | slot m i | invoke m i => exact partly serves rfl
      | callback m i cb nested => exact partly serves.2 rfl
      | _ => exact complete serves
  | _ =>
      rw [place] at serves complete
      exact complete serves

/-- Witness: a message has been served by the default handler and by a client's callback. -/
theorem dispatch_atomic_run
    : ∃ (s : State .shipped) (calls : List ServedCall),
        calls.map (·.record.cb) = [.defaultFileHandler, .client 7]
          ∧ Explains .shipped s.sh.history calls := by
  have done : ((machine .shipped).runObserving SingleSession State.served (machine .shipped).init
      (loopRun ++ registerRun ++ kprintfRun 100 ++ dispatchRun
        ++ [.event 13 (.ret 0 3 (List.replicate 19 66))] ++ eventRun 12)).any (fun (s, calls) =>
          calls.map (·.record.cb) = [.defaultFileHandler, .client 7]
            ∧ (s.threads s.sh.g.gThid).inHandlers = false) = true := by
    decide +kernel
  obtain ⟨s, calls, observed, holds⟩ := System.exists_of_runObserving done
  obtain ⟨shown, outside⟩ := of_decide_eq_true holds
  obtain ⟨rest, explains, complete⟩ := dispatch_atomic observed
  rw [complete outside, List.append_nil] at explains
  exact ⟨s, calls, shown, explains⟩

end LibKprintf
