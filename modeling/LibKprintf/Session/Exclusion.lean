import LibKprintf.Foundation.Lock
import LibKprintf.Session.Objects

/-! Mutual exclusion in the session: the semaphore has one unit, and the thread that holds
it is exactly the one between its two semaphore calls.
-/

namespace LibKprintf

open Foundation

variable {cfg : Config}

/-- Whether a thread is between two of its semaphore calls. -/
def State.locked (s : State cfg) : ThreadRef → Bool
  | .event thid => (s.threads thid).locked
  | .client n => (s.clients n).any (fun running => running.2.locked)

/-- A binary semaphore: it holds its unit unless a thread does. -/
def Sema.binary (holder : Option ThreadRef) : Sema where
  count := if holder = none then 1 else 0
  max := 1
  holder := holder

/-- A thread takes a binary semaphore only when it is free, and holds it then. -/
theorem takeSema_binary {k k' : Kernel} {semid : Uid} {thread : ThreadRef}
    {holder : Option ThreadRef} (sema : k.semas semid = some (.binary holder))
    (took : k.takeSema semid thread = some k')
    : holder = none ∧ k'.semas semid = some (.binary (some thread)) := by
  cases holder with
  | none =>
      simp only [Kernel.takeSema, sema, Sema.binary, if_true, Option.some.injEq] at took
      subst took
      simp [Sema.binary]
  | some holder => simp [Kernel.takeSema, sema, Sema.binary] at took

/-- A binary semaphore is free after its holder has signalled it. -/
theorem signalSema_binary {k : Kernel} {semid : Uid} {thread : ThreadRef}
    (sema : k.semas semid = some (.binary (some thread)))
    : (k.sceKernelSignalSema semid).1.semas semid = some (.binary none) := by
  simp [Kernel.sceKernelSignalSema, sema, Sema.binary]

/-- How a step of a thread changes the semaphores: not at all, staying outside or inside of
the guarded section, by entering it, or by leaving it.
-/
inductive SemaMove (thread : ThreadRef) (sh sh' : Shared cfg) : Bool → Bool → Prop
  | stays {inside} (same : sh'.k.semas = sh.k.semas) : SemaMove thread sh sh' inside inside
  | enters (took : sh.k.takeSema sh.g.gSemid thread = some sh'.k) : SemaMove thread sh sh' false true
  | leaves (gave : sh'.k = (sh.k.sceKernelSignalSema sh.g.gSemid).1)
    : SemaMove thread sh sh' true false

/-- Taking an event flag does not touch the semaphores. -/
theorem takeEventFlag_semas {k k' : Kernel} {evid : Uid} {pattern ev : U32}
    (took : k.takeEventFlag evid pattern = some (k', ev))
    : k'.semas = k.semas := by
  obtain ⟨evflags, rfl⟩ := takeEventFlag_shape took
  rfl

/-- A Kprintf call does not touch the semaphores. -/
theorem kprintf_semas {sh sh' : Shared cfg} {call} (printed : kprintf sh call = .next sh')
    : sh'.k.semas = sh.k.semas := by
  obtain rfl | ⟨_, head, mem, stamp, body, rfl⟩ := kprintf_effect printed
  · rfl
  · exact Shared.setEventFlag_semas (sh.withQueue head mem) evFlush

/-- The semaphore move of an API function whose captured id is `g_semid`. -/
theorem ApiEffect.sema {thread : ThreadRef} {sh sh' : Shared cfg} {pc pc' : ApiPc}
    (effect : ApiEffect thread sh pc sh' pc')
    (captured : ∀ semid, pc.waitsFor = some semid → semid = sh.g.gSemid)
    : SemaMove thread sh sh' pc.locked pc'.locked := by
  cases effect with
  | acquire waits took locked =>
      rw [ApiPc.not_locked_of_waitsFor waits, locked]
      rw [captured _ waits] at took
      exact .enters took
  | refuse waits =>
      rw [ApiPc.not_locked_of_waitsFor waits]
      exact .stays rfl
  | work locked locked' =>
      rw [locked, locked']
      exact .stays rfl
  | release free =>
      rw [(ApiPc.free_iff.mp free).2]
      exact .leaves rfl
  | announce printed =>
      refine .stays ?_
      rcases printed with rfl | ⟨during, printed⟩
      · rfl
      · exact kprintf_semas printed
  | dipsw free =>
      rw [(ApiPc.free_iff.mp free).2]
      exact .stays rfl
  | hook => exact .stays rfl

/-- An API function that holds the semaphore's thread outside only waits for it. -/
theorem ApiEffect.sema_blocked {thread : ThreadRef} {sh sh' : Shared cfg} {pc pc' : ApiPc}
    (effect : ApiEffect thread sh pc sh' pc')
    (captured : ∀ semid, pc.waitsFor = some semid → semid = sh.g.gSemid)
    (unlocked : pc.locked = false) (blocked : sh.k.takeSema sh.g.gSemid thread = none)
    : sh'.k.semas = sh.k.semas ∧ pc'.locked = false := by
  have move := effect.sema captured
  rw [unlocked] at move
  generalize after : pc'.locked = inside at move
  cases move with
  | stays same => exact ⟨same, rfl⟩
  | enters took => simp [blocked] at took

/-- A running API call moves the semaphore as its function does; returning does not. -/
theorem apiCallStep_sema {thread : ThreadRef} {call : ApiCall} {sh sh' : Shared cfg}
    {api : ApiPc} {api' : Option ApiPc} {choice : Choice cfg}
    (stepped : apiCallStep thread call sh api choice = .next (sh', api'))
    (captured : ∀ semid, api.waitsFor = some semid → semid = sh.g.gSemid)
    : SemaMove thread sh sh' api.locked (api'.any ApiPc.locked) := by
  obtain ⟨ret, rfl, rfl, rfl⟩ | ⟨pc', ran, rfl⟩ := apiCallStep_cases stepped
  · exact .stays rfl
  · exact (apiStep_effect ran).sema captured

/-- The exported function that a callback of the event thread is in. -/
def EventPc.nested : EventPc → Option (ApiCall × ApiPc)
  | .flush _ pc => pc.nested
  | _ => none

/-- Outside the code that needs the semaphore the event thread is in no callback either. -/
theorem EventPc.outside_of_free {pc : EventPc} (free : pc.free = true)
    : pc.locked = false ∧ pc.nested = none := by
  cases pc <;> first | exact ⟨rfl, rfl⟩ | contradiction

/-- An entered function holds nothing yet. -/
theorem apiEntry_unlocked (sh : Shared cfg) (call : ApiCall)
    : (apiEntry sh call).locked = false := by
  rcases apiEntry_cases sh call with free | ⟨_, waits⟩
  · exact (ApiPc.free_iff.mp free).2
  · exact ApiPc.not_locked_of_waitsFor waits

/-- A flush keeps the semaphore: a callback that calls an exported function can only wait
for it, because its own thread holds it.
-/
theorem FlushEffect.sema {thid : Uid} {sh sh' : Shared cfg} {pc : FlushPc} {pc' : Option FlushPc}
    (effect : FlushEffect thid sh pc sh' pc')
    (captured : ∀ call api, pc.nested = some (call, api) →
      ∀ semid, api.waitsFor = some semid → semid = sh.g.gSemid)
    (nested : ∀ call api, pc.nested = some (call, api) → api.locked = false)
    (blocked : sh.k.takeSema sh.g.gSemid (.event thid) = none)
    : sh'.k.semas = sh.k.semas
      ∧ ∀ next, pc' = some next → ∀ call api, next.nested = some (call, api) →
          api.locked = false := by
  cases effect with
  | read _ outside | observe _ _ outside =>
      refine ⟨rfl, fun next same call api inner => ?_⟩
      simp [outside next same] at inner
  | callbackReturns =>
      refine ⟨rfl, ?_⟩
      rintro _ ⟨⟩ call api inner
      split at inner <;> simp [FlushPc.nested] at inner
  | callbackCalls =>
      refine ⟨rfl, ?_⟩
      rintro _ ⟨⟩ call api ⟨⟩
      exact apiEntry_unlocked sh _
  | nested stepped =>
      obtain ⟨ret, rfl, rfl, rfl⟩ | ⟨next, ran, rfl⟩ := apiCallStep_cases stepped
      · refine ⟨rfl, ?_⟩
        rintro _ ⟨⟩ call api inner
        simp [FlushPc.nested] at inner
      · obtain ⟨same, unlocked⟩ := (apiStep_effect ran).sema_blocked (captured _ _ rfl)
          (nested _ _ rfl) blocked
        refine ⟨same, ?_⟩
        rintro _ ⟨⟩ call api ⟨⟩
        exact unlocked
  | remove =>
      refine ⟨rfl, ?_⟩
      rintro _ ⟨⟩ call api inner
      simp [FlushPc.nested] at inner

/-- The semaphore move of the event thread, which keeps its callbacks outside. -/
theorem EventEffect.sema {thid : Uid} {sh sh' : Shared cfg} {pc pc' : EventPc}
    (effect : EventEffect thid sh pc sh' pc')
    (captured : ∀ semid, pc.waitsFor = some semid → semid = sh.g.gSemid)
    (nested : ∀ call api, pc.nested = some (call, api) → api.locked = false)
    (blocked : pc.locked = true → sh.k.takeSema sh.g.gSemid (.event thid) = none)
    : SemaMove (.event thid) sh sh' pc.locked pc'.locked
      ∧ ∀ call api, pc'.nested = some (call, api) → api.locked = false := by
  cases effect with
  | move move =>
      obtain ⟨unlocked, _⟩ := EventPc.outside_of_free move.free.1
      obtain ⟨unlocked', nested'⟩ := EventPc.outside_of_free move.free.2
      rw [unlocked, unlocked', nested']
      exact ⟨.stays rfl, by simp⟩
  | callRegister =>
      simp only [EventPc.locked, apiEntry_unlocked]
      exact ⟨.stays rfl, by simp [EventPc.nested]⟩
  | @register api sh' api' choice stepped =>
      have move := apiCallStep_sema stepped captured
      cases api' <;> exact ⟨move, by simp [EventPc.nested]⟩
  | wake took => exact ⟨.stays (takeEventFlag_semas took), by simp [EventPc.nested]⟩
  | acquire took =>
      rw [captured _ rfl] at took
      exact ⟨.enters took, by simp [EventPc.nested, FlushPc.nested]⟩
  | @flush ev pc sh' pc' choice stepped =>
      have inner := (flushStep_effect stepped).sema
        (fun call api running semid waits => captured semid (by simp [EventPc.waitsFor, running, waits]))
        nested (blocked rfl)
      cases pc' with
      | none => exact ⟨.stays inner.1, by simp [EventPc.nested]⟩
      | some next => exact ⟨.stays inner.1, fun call api => inner.2 next rfl call api⟩
  | release => exact ⟨.leaves rfl, by simp [EventPc.nested]⟩
  | resend | stopOk => exact ⟨.stays (Shared.setEventFlag_semas sh _), by simp [EventPc.nested]⟩

/-- Outside a callback no step of a flush leads into an exported function. -/
theorem FlushEffect.nested_none {thid : Uid} {sh sh' : Shared cfg} {pc : FlushPc}
    {pc' : Option FlushPc} (effect : FlushEffect thid sh pc sh' pc')
    (place : pc.inCallback = false)
    : ∀ next, pc' = some next → next.nested = none := by
  cases effect with
  | read _ outside | observe _ _ outside => exact outside
  | callbackReturns | callbackCalls | nested => simp [FlushPc.inCallback] at place
  | remove =>
      rintro _ ⟨⟩
      rfl

/-- Nor does a step of the event thread outside a flush. -/
theorem EventEffect.nested_none {thid : Uid} {sh sh' : Shared cfg} {pc pc' : EventPc}
    (effect : EventEffect thid sh pc sh' pc') (outside : ∀ ev place, pc ≠ .flush ev place)
    : pc'.nested = none := by
  cases effect with
  | move move => exact (EventPc.outside_of_free move.free.2).2
  | @register api sh' api' => cases api' <;> rfl
  | flush => exact absurd rfl (outside _ _)
  | callRegister | wake | acquire | release | resend | stopOk => rfl

/-- A callback is inside an exported function after a step only if it was before, and does not
wait any more, or if it has just called it.
-/
theorem flushStep_nested {thid : Uid} {sh sh' : Shared cfg} {pc pc' : FlushPc}
    {choice : Choice cfg} {call : ApiCall} {api : ApiPc}
    (stepped : flushStep thid sh pc choice = .next (sh', some pc'))
    (nested : pc'.nested = some (call, api))
    : (pc.nested ≠ none ∧ api.waitsFor = none)
      ∨ (choice = .call call ∧ api = apiEntry sh call) := by
  cases pc with
  | callback m i cb running =>
      cases running with
      | none =>
          simp only [flushStep, StepResult.map_eq_next, Prod.exists, Prod.mk.injEq,
            Option.some.injEq] at stepped
          obtain ⟨_, _, called, rfl, rfl⟩ := stepped
          unfold callbackStep at called
          split at called
          · split at called
            · contradiction
            · simp only [StepResult.map_eq_next] at called
              obtain ⟨mem, _, same⟩ := called
              cases same
              split at nested <;> simp [FlushPc.nested] at nested
          · split at called
            · contradiction
            · cases called
              simp only [FlushPc.nested, Option.some.injEq, Prod.mk.injEq] at nested
              obtain ⟨rfl, rfl⟩ := nested
              exact Or.inr ⟨rfl, rfl⟩
          · contradiction
      | some running =>
          obtain ⟨call', api'⟩ := running
          simp only [flushStep, StepResult.map_eq_next, Prod.exists, Prod.mk.injEq,
            Option.some.injEq] at stepped
          obtain ⟨_, after, called, rfl, rfl⟩ := stepped
          obtain ⟨ret, rfl, rfl, rfl⟩ | ⟨next, ran, rfl⟩ := apiCallStep_cases called
          · simp [FlushPc.nested] at nested
          · simp only [FlushPc.nested, Option.map_some, Option.some.injEq,
              Prod.mk.injEq] at nested
            obtain ⟨rfl, rfl⟩ := nested
            exact Or.inl ⟨by simp [FlushPc.nested], (apiStep_effect ran).waitsFor⟩
  | _ => simp [(flushStep_effect stepped).nested_none rfl _ rfl] at nested

/-- The same of the whole event thread. -/
theorem eventStep_nested {thid : Uid} {sh sh' : Shared cfg} {pc pc' : EventPc}
    {choice : Choice cfg} {call : ApiCall} {api : ApiPc}
    (stepped : eventStep thid sh pc choice = .next (sh', pc'))
    (nested : pc'.nested = some (call, api))
    : (pc.nested ≠ none ∧ api.waitsFor = none)
      ∨ (choice = .call call ∧ api = apiEntry sh call) := by
  cases pc with
  | flush ev place =>
      simp only [eventStep, StepResult.map_eq_next] at stepped
      obtain ⟨⟨next, place'⟩, flushed, same⟩ := stepped
      cases place' with
      | none =>
          cases same
          simp [EventPc.nested] at nested
      | some place' =>
          cases same
          exact flushStep_nested flushed nested
  | _ => simp [(eventStep_effect stepped).nested_none (by simp)] at nested

/-- The semaphore move of a client. -/
theorem ClientEffect.sema {n : Nat} {sh sh' : Shared cfg} {pc pc' : ClientPc}
    (effect : ClientEffect n sh pc sh' pc')
    (captured : ∀ semid, pc.bind (fun running => running.2.waitsFor) = some semid →
      semid = sh.g.gSemid)
    : SemaMove (.client n) sh sh' (pc.any (fun running => running.2.locked))
        (pc'.any (fun running => running.2.locked)) := by
  cases effect with
  | enter =>
      simp only [Option.any_none, Option.any_some, apiEntry_unlocked]
      exact .stays rfl
  | leave => exact .stays rfl
  | run stepped => exact (apiStep_effect stepped).sema captured

/-- The semaphore is binary, and the threads between their semaphore calls are its holder.
A callback that runs inside the event thread's flush is not between such calls of its own.
-/
structure Exclusion (s : State cfg) : Prop where
  owned
    : ∃ holder, s.sh.k.semas s.sh.g.gSemid = some (.binary holder) ∧ Guarded s.locked holder
  nested
    : ∀ thid call api, (s.threads thid).nested = some (call, api) → api.locked = false

/-- In a fresh session the semaphore is free and nobody is inside. -/
theorem Fresh.exclusion {s : State cfg} (fresh : Fresh s) : Exclusion s where
  owned := by
    refine ⟨none, by simp [fresh.sema, Sema.binary], ?_⟩
    rintro (thid | n)
    · by_cases same : thid = s.sh.g.gThid
      · subst same
        rcases fresh.polling with polls | polls <;> simp [State.locked, polls, EventPc.locked]
      · simp [State.locked, fresh.others thid same, EventPc.locked]
    · cases engaged : s.clients n with
      | none => simp [State.locked, engaged]
      | some running =>
          obtain ⟨call, api⟩ := running
          have place := fresh.clients n call api engaged
          split at place
          · subst place
            simp [State.locked, engaged, ApiPc.locked]
          · simp [State.locked, engaged, (ApiPc.free_iff.mp place).2]
  nested := by
    intro thid call api inner
    by_cases same : thid = s.sh.g.gThid
    · subst same
      rcases fresh.polling with polls | polls <;> simp [polls, EventPc.nested] at inner
    · simp [fresh.others thid same, EventPc.nested] at inner

/-- A step that moves the semaphore as its thread moves keeps them in agreement. -/
theorem SemaMove.owned {thread : ThreadRef} {sh sh' : Shared cfg} {locked : ThreadRef → Bool}
    {after : Bool} {holder : Option ThreadRef}
    (move : SemaMove thread sh sh' (locked thread) after) (gSemid : sh'.g.gSemid = sh.g.gSemid)
    (sema : sh.k.semas sh.g.gSemid = some (.binary holder)) (guarded : Guarded locked holder)
    : ∃ holder, sh'.k.semas sh'.g.gSemid = some (.binary holder)
        ∧ Guarded (Function.update locked thread after) holder := by
  generalize before : locked thread = inside at move
  rw [gSemid]
  cases move with
  | stays same =>
      refine ⟨holder, by rw [same, sema], ?_⟩
      rw [← before, Function.update_eq_self]
      exact guarded
  | enters took =>
      obtain ⟨rfl, held⟩ := takeSema_binary sema took
      exact ⟨_, held, guarded.acquire⟩
  | leaves gave =>
      obtain rfl := (guarded thread).mp before
      refine ⟨none, ?_, guarded.release before⟩
      rw [gave]
      exact signalSema_binary sema

/-- Moving the event thread changes its own place only. -/
theorem locked_event (s : State cfg) (sh' : Shared cfg) (thid : Uid) (pc' : EventPc)
    : ({ s with sh := sh', threads := Function.update s.threads thid pc' } : State cfg).locked
      = Function.update s.locked (.event thid) pc'.locked := by
  funext other
  cases other with
  | event other =>
      by_cases same : other = thid
      · subst same
        simp [State.locked]
      · simp [State.locked, same]
  | client n => simp [State.locked]

/-- Moving a client changes its own place only. -/
theorem locked_client (s : State cfg) (sh' : Shared cfg) (n : Nat) (pc' : ClientPc)
    : ({ s with sh := sh', clients := Function.update s.clients n pc' } : State cfg).locked
      = Function.update s.locked (.client n) (pc'.any (fun running => running.2.locked)) := by
  funext other
  cases other with
  | event thid => simp [State.locked]
  | client other =>
      by_cases same : other = n
      · subst same
        simp [State.locked]
      · simp [State.locked, same]

/-- Moving the module manager's thread changes nobody else's place. -/
theorem locked_loader (s : State cfg) (sh' : Shared cfg) (loader' : LoaderPc)
    : ({ s with sh := sh', loader := loader' } : State cfg).locked = s.locked := by
  funext other
  cases other <;> rfl

/-- A thread between its semaphore calls finds the semaphore taken. -/
theorem Exclusion.blocked {s : State cfg} {thread other : ThreadRef} (exclusion : Exclusion s)
    (held : s.locked thread = true)
    : s.sh.k.takeSema s.sh.g.gSemid other = none := by
  obtain ⟨holder, sema, guarded⟩ := exclusion.owned
  obtain rfl := (guarded thread).mp held
  cases took : s.sh.k.takeSema s.sh.g.gSemid other with
  | none => rfl
  | some k => simpa using (takeSema_binary sema took).1

/-- _stop does not touch the semaphores. -/
theorem StopEffect.semas {sh sh' : Shared cfg} {pc pc' : LoaderPc} {choice : Choice cfg}
    (effect : StopEffect sh pc choice sh' pc')
    : sh'.k.semas = sh.k.semas ∧ sh'.g.gSemid = sh.g.gSemid := by
  cases effect with
  | announce printed =>
      rcases printed with rfl | ⟨during, printed⟩
      · exact ⟨rfl, rfl⟩
      · exact ⟨kprintf_semas printed, (kprintf_frame printed).gSemid⟩
  | post => exact ⟨Shared.setEventFlag_semas sh _, (Shared.frame_setEventFlag sh _).gSemid⟩
  | acknowledged took => exact ⟨takeEventFlag_semas took, rfl⟩
  | enter | unhook | setStopped | giveUp => exact ⟨rfl, rfl⟩

/-- Every step in the session keeps the exclusion, by cases of the thread. -/
theorem Exclusion.step {s t : State cfg} {action : Action cfg} (exclusion : Exclusion s)
    (session : Session s) (inside : s.loader.inSession = true) (single : SingleSession s action)
    (stepped : s.step action = some t)
    : Exclusion t := by
  obtain ⟨holder, sema, guarded⟩ := exclusion.owned
  -- Steps outside the API functions and the event thread keep the holder.
  have same (sh' : Shared cfg) (loader' : LoaderPc) (semas : sh'.k.semas = s.sh.k.semas)
      (gSemid : sh'.g.gSemid = s.sh.g.gSemid) :
      Exclusion { s with sh := sh', loader := loader' } := by
    refine ⟨⟨holder, ?_, ?_⟩, exclusion.nested⟩
    · simpa only [semas, gSemid] using sema
    · rwa [locked_loader]
  cases State.step_cases stepped with
  | crash =>
      refine ⟨⟨holder, sema, fun thread => ?_⟩, exclusion.nested⟩
      have held := guarded thread
      cases thread <;> exact held
  | kprintf printed =>
      exact same _ s.loader (kprintf_semas printed) (kprintf_frame printed).gSemid
  | @event thid choice sh' pc' ran =>
      have effect := eventStep_effect ran
      obtain ⟨move, nested⟩ := effect.sema
        (fun semid waits => session.semid (.event thid) semid waits)
        (exclusion.nested thid) (fun held => exclusion.blocked (show s.locked (.event thid) = true from held))
      refine ⟨?_, ?_⟩
      · rw [locked_event]
        exact move.owned effect.frame.gSemid sema guarded
      · intro other call api inner
        by_cases same : other = thid
        · subst same
          exact nested call api (by simpa using inner)
        · exact exclusion.nested other call api (by simpa [same] using inner)
  | @client n choice sh' pc' ran =>
      have effect := clientStep_effect ran
      have move := effect.sema (fun semid waits => session.semid (.client n) semid waits)
      refine ⟨?_, exclusion.nested⟩
      rw [locked_client]
      exact move.owned effect.frame.gSemid sema guarded
  | @loader choice sh' threads' loader' ran =>
      obtain ⟨effect, rfl⟩ := loaderStep_effect ran inside (not_start single inside)
      exact same sh' loader' effect.semas.1 effect.semas.2
  | overRegister => exact same _ s.loader rfl rfl

/-- Mutual exclusion holds in every state of the session. -/
theorem exclusion {s : State cfg} (reach : (machine cfg).Reachable SingleSession s)
    (inside : s.loader.inSession = true)
    : Exclusion s :=
  session_invariant (fun _ _ single => single) (fun _ _ fresh => fresh.exclusion)
    (fun _ _ _ reach inside exclusion single stepped =>
      exclusion.step (session reach inside) inside single stepped)
    reach inside

end LibKprintf
