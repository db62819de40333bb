import LibKprintf.Handlers.Calls

/-! The hook of the module: from the moment _stop has taken the library's Kprintf handler out
until the next init begins, the kernel must not call it. Only kprintf_install, which has no
test of the module's state, can put it back.
-/

namespace LibKprintf

open Foundation

variable {cfg : Config}

/-- What an event says of the life of the hook: init begins, or _stop has taken it out. -/
def Event.tellsHook : Event → Option Bool
  | .initBegins => some true
  | .stopUnhooks => some false
  | _ => none

/-- _stop has taken the hook out, and no init has begun since. -/
def Unhooked (history : List Event) : Prop := latest Event.tellsHook history = some false

instance (history : List Event) : Decidable (Unhooked history) :=
  inferInstanceAs (Decidable (_ = _))

/-- The handler registered with the kernel is not kprintf_handler while it must not be. -/
def HookReleased (s : State cfg) : Prop :=
  Unhooked s.sh.history → s.sh.k.hook ≠ .kprintfHandler

/-- Of the events of init only its beginning says something of the hook. -/
theorem Event.tellsHook_of_init {event : Event} (ofInit : event.ofInit = true)
    (later : event ≠ .initBegins)
    : event.tellsHook = none := by
  cases event with
  | initBegins => contradiction
  | _ => first | rfl | contradiction

/-- Other events neither begin nor end the time without a hook. -/
theorem unhooked_append {history events : List Event}
    (silent : ∀ event ∈ events, event.tellsHook = none)
    : Unhooked (history ++ events) ↔ Unhooked history := by
  rw [Unhooked, latest_append_of_silent silent]
  rfl

/-- What most steps leave alone. -/
structure Shared.SameHook (sh sh' : Shared cfg) : Prop where
  hook : sh'.k.hook = sh.k.hook
  time : Unhooked sh'.history ↔ Unhooked sh.history

/-- Nothing changed. -/
theorem Shared.SameHook.refl (sh : Shared cfg) : sh.SameHook sh :=
  ⟨rfl, Iff.rfl⟩

/-- A Kprintf call does not touch the hook. -/
theorem kprintf_sameHook {sh sh' : Shared cfg} {during}
    (printed : kprintf sh during = .next sh')
    : sh.SameHook sh' := by
  refine ⟨?_, ?_⟩
  · obtain rfl | ⟨_, head, mem, stamp, body, rfl⟩ := kprintf_effect printed
    · rfl
    · exact Shared.setEventFlag_hook (sh.withQueue head mem) evFlush
  · obtain ⟨events, history, accepted⟩ := kprintf_events printed
    rw [history, unhooked_append]
    intro event member
    obtain ⟨stamp, body, rfl⟩ := accepted event member
    rfl

/-- Whether a thread is about to take the last step of install_kernel_handler. -/
def ClientPc.hooks (pc : ClientPc) : Bool :=
  pc.any (fun running => running.2 = .registerHook)

/-- A call of kprintf_install gets to sceKernelRegisterKprintfHandler(kprintf_handler, NULL). -/
def State.hooks (s : State cfg) : Action cfg → Bool
  | .event thid _ => (s.inApi (.event thid)).hooks
  | .client n _ => (s.inApi (.client n)).hooks
  | _ => false

/-- No call of kprintf_install does so during the time without a hook. -/
def HookKept (s : State cfg) (action : Action cfg) : Prop :=
  Unhooked s.sh.history → s.hooks action = false

instance (s : State cfg) (action : Action cfg) : Decidable (HookKept s action) :=
  inferInstanceAs (Decidable (_ → _))

/-- An API function touches the hook only in its step that registers it. -/
theorem ApiEffect.sameHook {thread : ThreadRef} {sh sh' : Shared cfg} {pc pc' : ApiPc}
    (effect : ApiEffect thread sh pc sh' pc') (elsewhere : pc ≠ .registerHook)
    : sh.SameHook sh' := by
  refine ⟨?_, ?_⟩
  · cases effect with
    | acquire _ took =>
        obtain ⟨semas, rfl⟩ := takeSema_shape took
        rfl
    | release =>
        obtain ⟨semas, same⟩ := signalSema_shape sh.k sh.g.gSemid
        simp [same]
    | announce printed =>
        rcases printed with rfl | ⟨during, printed⟩
        · rfl
        · exact (kprintf_sameHook printed).hook
    | refuse | work | dipsw => rfl
    | hook => exact absurd rfl elsewhere
  · obtain ⟨events, history, kinds⟩ := effect.events
    rw [history, unhooked_append]
    intro event member
    obtain ⟨ofInit, later⟩ := Event.ofInit_of_api (kinds event member).1
    exact Event.tellsHook_of_init ofInit later

/-- A step of a thread that does not register the hook does not touch it. -/
theorem CallMove.sameHook {thread : ThreadRef} {sh sh' : Shared cfg} {before after : ClientPc}
    (move : CallMove thread sh sh' before after) (elsewhere : before.hooks = false)
    : sh.SameHook sh' := by
  cases move with
  | outside history ofEventThread _ hook =>
      refine ⟨hook, ?_⟩
      rw [history, unhooked_append]
      intro event member
      have noted := ofEventThread event member
      cases event <;> first | rfl | contradiction
  | enter entered | leave entered =>
      rw [entered]
      exact ⟨rfl, unhooked_append (List.forall_mem_singleton.mpr rfl)⟩
  | run ran => exact (apiStep_effect ran).sameHook (by simpa [ClientPc.hooks] using elsewhere)

/-- A step that registers the hook puts kprintf_handler in it. -/
theorem CallMove.hooks {thread : ThreadRef} {sh sh' : Shared cfg} {before after : ClientPc}
    (move : CallMove thread sh sh' before after) (registers : before.hooks = true)
    : sh'.k.hook = .kprintfHandler ∧ sh'.history = sh.history := by
  cases move with
  | outside | enter | leave => simp [ClientPc.hooks] at registers
  | run ran =>
      obtain rfl : _ = ApiPc.registerHook := by simpa [ClientPc.hooks] using registers
      simp only [apiStep, Choice.onGo_eq_next, StepResult.next.injEq, Prod.mk.injEq] at ran
      obtain ⟨_, rfl, rfl⟩ := ran
      exact ⟨rfl, rfl⟩

/-- Whether init has begun, and may register the hook itself. -/
def LoaderPc.begun : LoaderPc → Bool
  | .init .stdout _ | .init .starting _ => false
  | .init _ _ => true
  | _ => false

/-- During the time without a hook it is out, and no init has begun. -/
def Unhooking (sh : Shared cfg) (pc : LoaderPc) : Prop :=
  Unhooked sh.history → sh.k.hook ≠ .kprintfHandler ∧ pc.begun = false

/-- Nothing but the hook and the history matters. -/
theorem Unhooking.of_same {sh sh' : Shared cfg} {pc pc' : LoaderPc} (unhooking : Unhooking sh pc)
    (same : sh.SameHook sh') (begun : pc.begun = false → pc'.begun = false)
    : Unhooking sh' pc' := by
  intro unhooked
  obtain ⟨out, before⟩ := unhooking (same.time.mp unhooked)
  exact ⟨by rwa [same.hook], begun before⟩

/-- init ends the time without a hook when it begins, before it registers the hook. -/
theorem Unhooking.init {sh sh' : Shared cfg} {threads threads' : Threads} {ip : InitPc}
    {l : InitLocals} {pc' : LoaderPc} {choice : Choice cfg}
    (unhooking : Unhooking sh (.init ip l))
    (stepped : initStep sh threads ip l choice = .next (sh', threads', pc'))
    : Unhooking sh' pc' := by
  cases ip with
  | stdout =>
      simp only [initStep] at stepped
      split at stepped
      · cases stepped
        exact unhooking.of_same ⟨rfl, Iff.rfl⟩ (fun _ => rfl)
      · contradiction
  | starting =>
      simp only [initStep, Choice.onGo_eq_next, StepResult.next.injEq] at stepped
      obtain ⟨_, same⟩ := stepped
      cases same
      have begins : latest Event.tellsHook (sh.history ++ [.initBegins]) = some true :=
        latest_concat rfl
      simp [Unhooking, Unhooked, begins]
  | _ =>
      obtain ⟨⟨events, history, kinds⟩, _⟩ := initStep_events stepped
      intro unhooked
      rw [history, unhooked_append] at unhooked
      · have before := (unhooking unhooked).2
        contradiction
      · intro event member
        obtain ⟨ofInit, begins⟩ := kinds event member
        exact Event.tellsHook_of_init ofInit fun same => absurd (begins same) (by simp)

/-- _stop takes the hook out, and otherwise does not touch it. -/
theorem Unhooking.stop {sh sh' : Shared cfg} {pc pc' : LoaderPc} {choice : Choice cfg}
    (unhooking : Unhooking sh pc) (effect : StopEffect sh pc choice sh' pc')
    : Unhooking sh' pc' := by
  cases effect with
  | enter =>
      refine unhooking.of_same (.refl sh) fun _ => ?_
      unfold stopEntry
      split <;> rfl
  | announce printed =>
      rcases printed with rfl | ⟨during, printed⟩
      · exact unhooking.of_same (.refl _) (fun _ => rfl)
      · exact unhooking.of_same (kprintf_sameHook printed) (fun _ => rfl)
  | unhook => exact fun _ => ⟨by simp, rfl⟩
  | post => exact unhooking.of_same ⟨by simp, Iff.rfl⟩ (fun _ => rfl)
  | acknowledged took =>
      obtain ⟨evflags, rfl⟩ := takeEventFlag_shape took
      exact unhooking.of_same ⟨rfl, Iff.rfl⟩ (fun _ => rfl)
  | setStopped | giveUp => exact unhooking.of_same ⟨rfl, Iff.rfl⟩ (fun _ => rfl)

/-- Every step that meets the condition keeps the invariant. -/
theorem Unhooking.step {s t : State cfg} {action : Action cfg}
    (unhooking : Unhooking s.sh s.loader) (kept : HookKept s action)
    (stepped : s.step action = some t)
    : Unhooking t.sh t.loader := by
  -- Outside the time without a hook a thread may register it.
  have thread {thread : ThreadRef} {sh' : Shared cfg} {after : ClientPc}
      (move : CallMove thread s.sh sh' (s.inApi thread) after)
      (kept : Unhooked s.sh.history → (s.inApi thread).hooks = false) :
      Unhooking sh' s.loader := by
    by_cases registers : (s.inApi thread).hooks = true
    · intro unhooked
      rw [(move.hooks registers).2] at unhooked
      simp [kept unhooked] at registers
    · exact unhooking.of_same (move.sameHook (by simpa using registers)) id
  cases State.step_cases stepped with
  | crash => exact unhooking
  | kprintf printed => exact unhooking.of_same (kprintf_sameHook printed) id
  | @event thid choice sh' pc' ran =>
      exact thread (eventStep_effect ran).callMove kept
  | @client n choice sh' pc' ran =>
      exact thread (clientStep_effect ran).callMove kept
  | loader ran =>
      rcases loaderStep_cases ran with ⟨ip, l, place, ran⟩ | ⟨rfl, rfl, _⟩ | ⟨effect, _⟩
      · rw [place] at unhooking
        exact unhooking.init ran
      · exact fun unhooked => ⟨(unhooking unhooked).1, rfl⟩
      · exact unhooking.stop effect
  | overRegister => exact fun unhooked => ⟨by simp, (unhooking unhooked).2⟩

/-- In a run whose steps all meet the condition the invariant holds, over any number of
sessions.
-/
theorem unhooking {s : State cfg} (reach : (machine cfg).Reachable HookKept s)
    : Unhooking s.sh s.loader := by
  refine System.Reachable.invariant
    (P := fun s : State cfg => Unhooking s.sh s.loader) reach ?_ ?_
  · intro unhooked
    contradiction
  · exact fun _ _ _ _ unhooking kept stepped => unhooking.step kept stepped

/-- Registering the hook touches no message memory. -/
theorem State.hooks_ne_fault {s : State cfg} {action : Action cfg} (registers : s.hooks action = true)
    : ¬ s.Faults action := by
  have safe (thread : ThreadRef) (call : ApiCall) (choice : Choice cfg) :
      apiCallStep thread call s.sh .registerHook choice ≠ .fault := by
    simp [apiCallStep, apiStep]
  have running {pc : ClientPc} (registers : pc.hooks = true) :
      ∃ call, pc = some (call, .registerHook) := by
    cases pc with
    | none => contradiction
    | some running => exact ⟨running.1, by simpa [ClientPc.hooks, Prod.ext_iff] using registers⟩
  intro faults
  cases action with
  | event thid choice =>
      obtain ⟨call, place⟩ := running registers
      simp only [State.Faults, State.inApi] at faults place
      cases pc : s.threads thid with
      | register api =>
          simp only [pc, EventPc.inApi, Option.some.injEq, Prod.mk.injEq] at place
          obtain ⟨_, rfl⟩ := place
          simp only [pc, eventStep, StepResult.map_eq_fault] at faults
          exact safe _ _ _ faults
      | flush ev pc' =>
          simp only [pc, EventPc.inApi, EventPc.nested] at place
          cases pc' with
          | callback m i cb nested =>
              obtain rfl : nested = some (call, .registerHook) := place
              simp only [pc, eventStep, flushStep, StepResult.map_eq_fault] at faults
              exact safe _ _ _ faults
          | _ => simp [FlushPc.nested] at place
      | _ => simp [pc, EventPc.inApi, EventPc.nested] at place
  | client n choice =>
      obtain ⟨call, place⟩ := running registers
      simp only [State.Faults, State.inApi] at faults place
      simp only [place, clientStep, StepResult.map_eq_fault] at faults
      exact safe _ _ _ faults
  | kprintf | loader | overRegister => contradiction

/-- In every run in which no kprintf_install call gets to its registration of the hook between
the moment _stop takes it out and the next init, the hook stays out. And the first step that
does not meet this condition leaves the kernel with a handler that is about to be unloaded.
-/
theorem hook_released {s : State cfg} (reach : (machine cfg).Reachable HookKept s)
    : HookReleased s
      ∧ ∀ action t, s.step action = some t → (HookReleased t ↔ HookKept s action) := by
  refine ⟨fun unhooked => (unhooking reach unhooked).1, fun action t stepped => ⟨?_, ?_⟩⟩
  · intro released unhooked
    by_contra registers
    have registers : s.hooks action = true := by simpa using registers
    cases State.step_cases stepped with
    | crash faults => exact State.hooks_ne_fault registers faults
    | event ran =>
        obtain ⟨hook, history⟩ := (eventStep_effect ran).callMove.hooks registers
        exact released (by rwa [history]) hook
    | client ran =>
        obtain ⟨hook, history⟩ := (clientStep_effect ran).callMove.hooks registers
        exact released (by rwa [history]) hook
    | kprintf | loader | overRegister => simp [State.hooks] at registers
  · exact fun kept unhooked => ((unhooking reach).step kept stepped unhooked).1

/-- A client calls kprintf_install, which registers the hook and returns. -/
def installRun : List (Action .shipped) :=
  [.client 0 (.call .install)] ++ List.replicate 3 (.client 0 .go)

/-- Witness: the hook is reinstalled before _stop, and out when _stop waits. -/
theorem hook_released_run
    : ∃ s : State .shipped,
        (Unhooked s.sh.history ∧ .answered (.client 0) .install 0 ∈ s.sh.history)
        ∧ HookReleased s := by
  have done : ((machine .shipped).run HookKept (machine .shipped).init
      (loopRun ++ installRun ++ stopRun)).any
      (fun s => Unhooked s.sh.history ∧ .answered (.client 0) .install 0 ∈ s.sh.history) = true := by
    decide +kernel
  obtain ⟨s, reach, holds⟩ := System.exists_of_run done
  exact ⟨s, of_decide_eq_true holds, (hook_released reach).1⟩

/-- Counterexample: _stop has returned 0, and then a client calls kprintf_install. -/
theorem not_hook_released
    : ¬ ∀ s : State .shipped, (machine .shipped).Reachable SingleSession s → HookReleased s := by
  intro always
  have done : ((machine .shipped).run SingleSession (machine .shipped).init
      (loopRun ++ stopRun ++ eventRun 8 ++ [.loader .go] ++ installRun)).any
      (fun s => s.loader = .stopped ∧ Unhooked s.sh.history ∧ s.sh.k.hook = .kprintfHandler)
      = true := by
    decide +kernel
  obtain ⟨s, reach, holds⟩ := System.exists_of_run done
  obtain ⟨_, unhooked, dangles⟩ := of_decide_eq_true holds
  exact always s reach unhooked dangles

end LibKprintf
