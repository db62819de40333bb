import LibKprintf.Session.Exclusion

/-! The handler table is written only between the semaphore calls of an API function that
runs outside a flush. So dispatch finds each slot as it has tested it.
-/

namespace LibKprintf

open Foundation

variable {cfg : Config}

/-- The handler table, its count and the default index are the same. -/
structure Shared.SameTable (sh sh' : Shared cfg) : Prop where
  handlers : sh'.g.gHandlers = sh.g.gHandlers
  count : sh'.g.gHandlerCount = sh.g.gHandlerCount
  default : sh'.g.gDefaultHandlerIndex = sh.g.gDefaultHandlerIndex

/-- Nothing changed. -/
theorem Shared.SameTable.refl (sh : Shared cfg) : sh.SameTable sh :=
  ⟨rfl, rfl, rfl⟩

/-- An unchanged table has the same callbacks. -/
theorem Shared.SameTable.callbackAt {sh sh' : Shared cfg} (same : sh.SameTable sh') (i : Nat)
    : sh'.g.callbackAt i = sh.g.callbackAt i := by
  simp only [Globals.callbackAt, same.handlers]

/-- A Kprintf call does not touch the table. -/
theorem kprintf_table {sh sh' : Shared cfg} {call} (printed : kprintf sh call = .next sh')
    : sh.SameTable sh' := by
  obtain rfl | ⟨_, head, mem, stamp, body, rfl⟩ := kprintf_effect printed
  · exact .refl _
  · exact ⟨rfl, rfl, rfl⟩

/-- Nor does an API function outside its semaphore calls. -/
theorem ApiEffect.table {thread : ThreadRef} {sh sh' : Shared cfg} {pc pc' : ApiPc}
    (effect : ApiEffect thread sh pc sh' pc') (unlocked : pc.locked = false)
    : sh.SameTable sh' := by
  cases effect with
  | work locked => simp [locked] at unlocked
  | announce printed =>
      rcases printed with rfl | ⟨during, printed⟩
      · exact .refl _
      · exact kprintf_table printed
  | acquire | refuse | release | dipsw | hook => exact ⟨rfl, rfl, rfl⟩

/-- Nor does a running API call there. -/
theorem apiCallStep_table {thread : ThreadRef} {call : ApiCall} {sh sh' : Shared cfg}
    {api : ApiPc} {api' : Option ApiPc} {choice : Choice cfg}
    (stepped : apiCallStep thread call sh api choice = .next (sh', api'))
    (unlocked : api.locked = false)
    : sh.SameTable sh' := by
  obtain ⟨ret, rfl, rfl, rfl⟩ | ⟨pc', ran, rfl⟩ := apiCallStep_cases stepped
  · exact ⟨rfl, rfl, rfl⟩
  · exact (apiStep_effect ran).table unlocked

/-- The event thread writes the table only inside its own register_default_handler call. -/
theorem EventEffect.table {thid : Uid} {sh sh' : Shared cfg} {pc pc' : EventPc}
    (effect : EventEffect thid sh pc sh' pc')
    (nested : ∀ call api, pc.nested = some (call, api) → api.locked = false)
    (outside : ∀ api, pc = .register api → api.locked = false)
    : sh.SameTable sh' := by
  cases effect with
  | register stepped => exact apiCallStep_table stepped (outside _ rfl)
  | flush stepped =>
      cases flushStep_effect stepped with
      | nested called => exact apiCallStep_table called (nested _ _ rfl)
      | read | observe | callbackReturns | callbackCalls | remove => exact ⟨rfl, rfl, rfl⟩
  | move | callRegister | wake | acquire | release | resend | stopOk => exact ⟨rfl, rfl, rfl⟩

/-- A client writes the table only between its semaphore calls. -/
theorem ClientEffect.table {n : Nat} {sh sh' : Shared cfg} {pc pc' : ClientPc}
    (effect : ClientEffect n sh pc sh' pc')
    (unlocked : pc.any (fun running => running.2.locked) = false)
    : sh.SameTable sh' := by
  cases effect with
  | enter | leave => exact ⟨rfl, rfl, rfl⟩
  | run stepped => exact (apiStep_effect stepped).table (by simpa using unlocked)

/-- _stop does not touch the table. -/
theorem StopEffect.table {sh sh' : Shared cfg} {pc pc' : LoaderPc} {choice : Choice cfg}
    (effect : StopEffect sh pc choice sh' pc')
    : sh.SameTable sh' := by
  cases effect with
  | announce printed =>
      rcases printed with rfl | ⟨during, printed⟩
      · exact .refl _
      · exact kprintf_table printed
  | enter | unhook | setStopped | post | acknowledged | giveUp => exact ⟨rfl, rfl, rfl⟩

/-- While the event thread holds the semaphore outside its registration, no step changes the
table: the other threads are outside their semaphore calls.
-/
theorem table_held {s t : State cfg} {action : Action cfg} (session : Session s)
    (exclusion : Exclusion s) (inside : s.loader.inSession = true)
    (single : SingleSession s action) (stepped : s.step action = some t)
    (held : (s.threads s.sh.g.gThid).locked = true)
    (outside : ∀ api, s.threads s.sh.g.gThid ≠ .register api)
    : s.sh.SameTable t.sh := by
  cases State.step_cases stepped with
  | crash | overRegister => exact ⟨rfl, rfl, rfl⟩
  | kprintf printed => exact kprintf_table printed
  | @event thid choice sh' pc' ran =>
      obtain rfl := session.runs ran
      exact (eventStep_effect ran).table (exclusion.nested _)
        (fun api same => absurd same (outside api))
  | @client n choice sh' pc' ran =>
      refine (clientStep_effect ran).table ?_
      obtain ⟨holder, _, guarded⟩ := exclusion.owned
      by_contra locked
      have both : ThreadRef.client n = .event s.sh.g.gThid :=
        guarded.exclusive (show s.locked (.client n) = true by simpa [State.locked] using locked) held
      contradiction
  | loader ran => exact (loaderStep_effect ran inside (not_start single inside)).1.table

/-- Only the test of a slot that is occupied leads to its call. -/
theorem flushStep_to_invoke {thid : Uid} {sh sh' : Shared cfg} {pc : FlushPc} {m : Addr} {i : Nat}
    {choice : Choice cfg} (stepped : flushStep thid sh pc choice = .next (sh', some (.invoke m i)))
    : sh' = sh ∧ sh.g.callbackAt i ≠ none := by
  cases pc with
  | slot m' i' =>
      simp only [flushStep, Choice.onGo_eq_next, StepResult.next.injEq] at stepped
      obtain ⟨_, stepped⟩ := stepped
      split at stepped
      · split at stepped
        · simp at stepped
        · rename_i occupied
          cases stepped
          exact ⟨rfl, occupied⟩
      · simp at stepped
  | test m' =>
      simp only [flushStep, Choice.onGo_eq_next, StepResult.next.injEq] at stepped
      obtain ⟨_, stepped⟩ := stepped
      split at stepped <;> simp at stepped
  | invoke m' i' =>
      simp only [flushStep, Choice.onGo_eq_next] at stepped
      obtain ⟨_, stepped⟩ := stepped
      split at stepped
      · split at stepped <;> simp at stepped
      · contradiction
  | callback m' i' cb nested =>
      generalize after : some (FlushPc.invoke m i) = pc' at stepped
      cases flushStep_effect stepped with
      | read place | observe _ place => simp [FlushPc.inCallback] at place
      | callbackReturns => split at after <;> simp at after
      | callbackCalls | nested => simp at after
  | start | delivered | readNext | remove | advance => simp [flushStep] at stepped

/-- The same of the whole event thread. -/
theorem eventStep_to_invoke {thid : Uid} {sh sh' : Shared cfg} {pc : EventPc} {ev : U32}
    {m : Addr} {i : Nat} {choice : Choice cfg}
    (stepped : eventStep thid sh pc choice = .next (sh', .flush ev (.invoke m i)))
    : sh' = sh ∧ sh.g.callbackAt i ≠ none := by
  generalize after : EventPc.flush ev (.invoke m i) = pc' at stepped
  cases eventStep_effect stepped with
  | @flush ev' pc sh' pc' choice ran =>
      cases pc' with
      | none => simp at after
      | some next =>
          simp only [Option.elim_some, EventPc.flush.injEq] at after
          obtain ⟨rfl, rfl⟩ := after
          exact flushStep_to_invoke ran
  | move move =>
      subst after
      exact absurd move.free.2 (by simp [EventPc.free])
  | @register api sh' api' choice ran => cases api' <;> simp at after
  | acquire => simp at after
  | callRegister | wake | release | resend | stopOk => simp at after

/-- Between the test of a slot and the call of its callback the slot stays occupied. -/
def SlotReady (s : State cfg) : Prop :=
  ∀ thid ev m i, s.threads thid = .flush ev (.invoke m i) → s.sh.g.callbackAt i ≠ none

/-- Every step keeps tested slots occupied. -/
theorem SlotReady.step {s t : State cfg} {action : Action cfg} (ready : SlotReady s)
    (session : Session s) (exclusion : Exclusion s) (inside : s.loader.inSession = true)
    (single : SingleSession s action) (stepped : s.step action = some t)
    : SlotReady t := by
  -- A thread that stays at its invoke holds the semaphore, so the table stays as it is.
  have stays (thid : Uid) (ev : U32) (m : Addr) (i : Nat)
      (place : s.threads thid = .flush ev (.invoke m i)) : t.sh.g.callbackAt i ≠ none := by
    have self : thid = s.sh.g.gThid := by
      by_contra other
      simp [session.others thid other] at place
    subst self
    have same := table_held session exclusion inside single stepped
      (by simp [place, EventPc.locked]) (by simp [place])
    rw [same.callbackAt]
    exact ready _ ev m i place
  cases State.step_cases stepped with
  | crash | overRegister | kprintf | client => exact stays
  | loader ran =>
      obtain ⟨_, rfl⟩ := loaderStep_effect ran inside (not_start single inside)
      exact stays
  | @event thid choice sh' pc' ran =>
      intro other ev m i place
      by_cases same : other = thid
      · subst same
        simp only [Function.update_self] at place
        subst place
        obtain ⟨rfl, occupied⟩ := eventStep_to_invoke ran
        exact occupied
      · exact stays other ev m i (by simpa [Function.update_of_ne same] using place)

end LibKprintf
