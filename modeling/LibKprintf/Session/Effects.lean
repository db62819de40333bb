import LibKprintf.Model.Machine

/-! What a step of each kind of thread can do to the shared state, one case per kind of
effect. The invariants of the later modules are derived from these cases.
-/

namespace LibKprintf

variable {cfg : Config}

/-- Taking a semaphore changes semaphores only. -/
theorem takeSema_shape {k k' : Kernel} {semid : Uid} {thread : ThreadRef}
    (took : k.takeSema semid thread = some k')
    : ∃ semas, k' = { k with semas := semas } := by
  unfold Kernel.takeSema at took
  split at took
  · cases took
    exact ⟨_, rfl⟩
  · contradiction

/-- Signalling a semaphore changes semaphores only. -/
theorem signalSema_shape (k : Kernel) (semid : Uid)
    : ∃ semas, (k.sceKernelSignalSema semid).1 = { k with semas := semas } := by
  unfold Kernel.sceKernelSignalSema
  split
  · exact ⟨k.semas, rfl⟩
  · split
    · exact ⟨_, rfl⟩
    · exact ⟨k.semas, rfl⟩

/-- Taking an event flag changes event flags only. -/
theorem takeEventFlag_shape {k k' : Kernel} {evid : Uid} {pattern ev : U32}
    (took : k.takeEventFlag evid pattern = some (k', ev))
    : ∃ evflags, k' = { k with evflags := evflags } := by
  unfold Kernel.takeEventFlag at took
  split at took
  · contradiction
  · split at took
    · contradiction
    · cases took
      exact ⟨_, rfl⟩

/-- The shared state with another queue head and other message memory. -/
def Shared.withQueue (sh : Shared cfg) (head : Addr) (mem : Mem) : Shared cfg :=
  { sh with g := { sh.g with gHead := head }, k := { sh.k with mem := mem } }

section WithQueue

variable (sh : Shared cfg) (head : Addr) (mem : Mem)

@[simp] theorem Shared.withQueue_gHead : (sh.withQueue head mem).g.gHead = head := rfl

@[simp] theorem Shared.withQueue_mem : (sh.withQueue head mem).k.mem = mem := rfl

@[simp] theorem Shared.withQueue_gVplid : (sh.withQueue head mem).g.gVplid = sh.g.gVplid := rfl

@[simp] theorem Shared.withQueue_gEvid : (sh.withQueue head mem).g.gEvid = sh.g.gEvid := rfl

@[simp] theorem Shared.withQueue_vpls : (sh.withQueue head mem).k.vpls = sh.k.vpls := rfl

@[simp] theorem Shared.withQueue_evflags : (sh.withQueue head mem).k.evflags = sh.k.evflags := rfl

@[simp] theorem Shared.withQueue_history : (sh.withQueue head mem).history = sh.history := rfl

end WithQueue

/-- add_msg writes the queue only, in both branches. -/
theorem addMsg_withQueue {sh sh' : Shared cfg} {m : Addr} (added : addMsg sh m = some sh')
    : ∃ head mem, sh' = sh.withQueue head mem := by
  simp only [addMsg, Option.bind_eq_bind, Option.bind_eq_some_iff] at added
  obtain ⟨⟨prev, cur⟩, _, added⟩ := added
  split at added
  · cases added
    exact ⟨_, _, rfl⟩
  · obtain ⟨mem, _, added⟩ := Option.bind_eq_some_iff.mp added
    cases added
    exact ⟨_, _, rfl⟩

/-- A Kprintf call is refused without any effect, or appends: it writes the queue, sets
EV_FLUSH and is noted.
-/
theorem kprintfHandler_effect {sh sh' : Shared cfg} {call ret}
    (handled : kprintfHandler sh call = some (sh', ret))
    : sh' = sh
      ∨ sh.g.gState = .started
        ∧ ∃ head mem stamp body,
            sh' = ((sh.withQueue head mem).setEventFlag evFlush).note (.accepted stamp body) := by
  unfold kprintfHandler at handled
  split at handled
  · cases handled
    exact Or.inl rfl
  rename_i started
  split at handled
  · cases handled
    exact Or.inl rfl
  simp only [Option.bind_eq_bind, Option.bind_eq_some_iff] at handled
  obtain ⟨⟨made, result⟩, new, handled⟩ := handled
  cases answer : call.answer with
  | error code =>
      simp only [newMsg, answer, Option.some.injEq, Prod.mk.injEq] at new
      obtain ⟨rfl, rfl⟩ := new
      cases handled
      exact Or.inl rfl
  | ok m =>
      simp only [newMsg, answer, Option.bind_eq_bind, Option.bind_eq_some_iff] at new
      obtain ⟨contents, _, new⟩ := new
      cases new
      obtain ⟨linked, added, handled⟩ := Option.bind_eq_some_iff.mp handled
      obtain ⟨head, mem, rfl⟩ := addMsg_withQueue added
      cases handled
      exact Or.inr ⟨by simpa using started, head, mem, _, _, rfl⟩

/-- A Kprintf call that reaches the library's handler has one of the handler's effects. -/
theorem kprintf_effect {sh sh' : Shared cfg} {call} (printed : kprintf sh call = .next sh')
    : sh' = sh
      ∨ sh.g.gState = .started
        ∧ ∃ head mem stamp body,
            sh' = ((sh.withQueue head mem).setEventFlag evFlush).note (.accepted stamp body) := by
  unfold kprintf at printed
  split at printed
  · simp only [StepResult.map_eq_next, StepResult.ofMemory_eq_next] at printed
    obtain ⟨⟨_, ret⟩, handled, rfl⟩ := printed
    exact kprintfHandler_effect handled
  · contradiction

/-- remove_delete_msg writes the queue, and notes the message it frees. The interrupt state
it restores is the one it saved.
-/
theorem removeDeleteMsg_effect {sh sh' : Shared cfg} {m ret}
    (removed : removeDeleteMsg sh m = some (sh', ret))
    : ∃ head mem events,
        (∀ event ∈ events, ∃ stamp, event = Event.freed stamp)
        ∧ sh' = { sh.withQueue head mem with history := sh.history ++ events } := by
  have quiet : ∃ head mem events,
      (∀ event ∈ events, ∃ stamp, event = Event.freed stamp)
      ∧ sh = { sh.withQueue head mem with history := sh.history ++ events } :=
    ⟨sh.g.gHead, sh.k.mem, [], by simp, by simp [Shared.withQueue]⟩
  unfold removeDeleteMsg at removed
  split at removed
  · cases removed
    exact quiet
  simp only [Kernel.sceKernelCpuSuspendIntr, Option.bind_eq_bind,
    Option.bind_eq_some_iff] at removed
  obtain ⟨⟨prev, cur⟩, _, removed⟩ := removed
  split at removed
  · cases removed
    exact quiet
  obtain ⟨unlinked, unlink, removed⟩ := Option.bind_eq_some_iff.mp removed
  have shape : ∃ head mem,
      unlinked = ({ sh with k := { sh.k with intr := false } } : Shared cfg).withQueue head mem := by
    simp only [unlinkMsg, Option.bind_eq_bind, Option.bind_eq_some_iff] at unlink
    obtain ⟨next, _, unlink⟩ := unlink
    split at unlink
    · cases unlink
      exact ⟨_, _, rfl⟩
    split at unlink
    · obtain ⟨mem, _, unlink⟩ := Option.bind_eq_some_iff.mp unlink
      cases unlink
      exact ⟨_, _, rfl⟩
    · cases unlink
      exact ⟨_, _, rfl⟩
  obtain ⟨head, mem, rfl⟩ := shape
  simp only [freeMsg, Kernel.sceKernelFreeVpl] at removed
  -- The pool may refuse the block in two ways; only a success notes an event.
  split at removed
  · cases removed
    exact ⟨head, mem, [], by simp, by simp [Shared.withQueue, sceErrorKernelNotFoundVpool,
      Kernel.sceKernelCpuResumeIntrWithSync]⟩
  split at removed
  · cases removed
    exact ⟨head, _, [_], by simp, rfl⟩
  · cases removed
    exact ⟨head, mem, [], by simp, by simp [Shared.withQueue, sceErrorKernelIllegalMemblock,
      Kernel.sceKernelCpuResumeIntrWithSync]⟩

-----------------------------------------------------------------------------------------
-- The API functions
-----------------------------------------------------------------------------------------

/-- The shared state with another handler table. -/
def Shared.withTable (sh : Shared cfg) (default : Int) (count : U32)
    (handlers : Vector RegHandler cfg.kprintfMaxHandlers)
    : Shared cfg :=
  { sh with
    g :=
      { sh.g with
        gDefaultHandlerIndex := default
        gHandlerCount := count
        gHandlers := handlers } }

/-- The history events that writing the handler table notes. -/
def Event.ofTable : Event → Bool
  | .stored .. | .cleared .. => true
  | _ => false

namespace ApiPc

/-- The semaphore an API function is about to wait for. -/
def waitsFor : ApiPc → Option Uid
  | .regWait _ semid | .unregWait _ semid => some semid
  | _ => none

/-- Whether an API function is between its two semaphore calls. -/
def locked : ApiPc → Bool
  | .regTestDefault _ | .regTestCount _ | .regFind _ _ | .regSetDefault _ _ | .regSetCb _ _
  | .regSetArg _ _ | .regCount _ _ | .unregTestIndex _ | .unregTestCb _ | .unregDefault _
  | .unregClearCb _ | .unregClearArg _ | .unregCount | .signal _ _ => true
  | _ => false

/-- Whether an API function is past its semaphore calls, or makes none. -/
def free : ApiPc → Bool
  | .announce | .dipsw | .registerHook | .done _ => true
  | _ => false

/-- The program points before, between and behind the semaphore calls are disjoint. -/
theorem free_iff {pc : ApiPc} : pc.free = true ↔ pc.waitsFor = none ∧ pc.locked = false := by
  cases pc <;> simp [free, waitsFor, locked]

/-- A function that waits holds nothing yet. -/
theorem not_locked_of_waitsFor {pc : ApiPc} {semid : Uid} (waits : pc.waitsFor = some semid)
    : pc.locked = false := by
  cases pc <;> simp_all [waitsFor, locked]

/-- A function between its semaphore calls does not wait. -/
theorem waitsFor_of_locked {pc : ApiPc} (locked : pc.locked = true) : pc.waitsFor = none := by
  cases pc <;> simp_all [waitsFor, ApiPc.locked]

end ApiPc

/-- The results of register_handler need no semaphore. -/
theorem afterRegister_free (isDefaultHandler : Bool) (ret : Int)
    : (afterRegister isDefaultHandler ret).free = true := by
  unfold afterRegister
  split <;> rfl

/-- An exported function enters with a free program point or a wait for `g_semid`, the
latter only in a started module.
-/
theorem apiEntry_cases (sh : Shared cfg) (call : ApiCall)
    : (apiEntry sh call).free = true
      ∨ sh.g.gState = .started ∧ (apiEntry sh call).waitsFor = some sh.g.gSemid := by
  cases call with
  | registerHandler cb arg =>
      by_cases started : sh.g.gState = .started <;> cases cb <;>
        simp [apiEntry, registerEntry, started, ApiPc.free, ApiPc.waitsFor]
  | registerDefaultHandler =>
      by_cases started : sh.g.gState = .started <;>
        simp [apiEntry, registerEntry, started, ApiPc.free, ApiPc.waitsFor]
  | unregisterHandler index =>
      by_cases started : sh.g.gState = .started <;>
        simp [apiEntry, started, ApiPc.free, ApiPc.waitsFor]
  | install | isStarted => exact Or.inl rfl

/-- What one step of an API function can do. -/
inductive ApiEffect (thread : ThreadRef) (sh : Shared cfg) : ApiPc → Shared cfg → ApiPc → Prop
  | acquire {pc pc' semid k} (waits : pc.waitsFor = some semid)
    (took : sh.k.takeSema semid thread = some k) (locked : pc'.locked = true)
    : ApiEffect thread sh pc { sh with k := k } pc'
  | refuse {pc semid code} (waits : pc.waitsFor = some semid) (negative : code < 0)
    : ApiEffect thread sh pc sh (.done code)
  | work {pc pc' default count handlers events} (locked : pc.locked = true)
    (locked' : pc'.locked = true) (ofTable : ∀ event ∈ events, event.ofTable = true)
    : ApiEffect thread sh pc
        { sh.withTable default count handlers with history := sh.history ++ events } pc'
  | release {isDefaultHandler ret pc'} (free : pc'.free = true)
    : ApiEffect thread sh (.signal isDefaultHandler ret)
        { sh with k := (sh.k.sceKernelSignalSema sh.g.gSemid).1 } pc'
  | announce {sh'} (printed : sh' = sh ∨ ∃ during, kprintf sh during = .next sh')
    : ApiEffect thread sh .announce sh' (.done 0)
  | dipsw {pc'} (free : pc'.free = true) : ApiEffect thread sh .dipsw sh pc'
  | hook
    : ApiEffect thread sh .registerHook { sh with k := { sh.k with hook := .kprintfHandler } }
        (.done 0)

/-- A statement between the semaphore calls that changes no shared state. -/
theorem ApiEffect.read {thread : ThreadRef} {sh : Shared cfg} {pc pc' : ApiPc}
    (locked : pc.locked = true) (locked' : pc'.locked = true)
    : ApiEffect thread sh pc sh pc' := by
  have effect : ApiEffect thread sh pc
      { sh.withTable sh.g.gDefaultHandlerIndex sh.g.gHandlerCount sh.g.gHandlers with
        history := sh.history ++ [] } pc' :=
    .work locked locked' (by simp)
  simpa [Shared.withTable] using effect

/-- Every step of an API function has one of these effects, by cases of its program point. -/
theorem apiStep_effect {thread : ThreadRef} {sh sh' : Shared cfg} {pc pc' : ApiPc}
    {choice : Choice cfg} (stepped : apiStep thread sh pc choice = .next (sh', pc'))
    : ApiEffect thread sh pc sh' pc' := by
  have quiet : ∀ {default count handlers}, ApiPc.locked pc = true → ApiPc.locked pc' = true →
      ApiEffect thread sh pc (sh.withTable default count handlers) pc' := by
    intro default count handlers locked locked'
    have effect : ApiEffect thread sh pc
        { sh.withTable default count handlers with history := sh.history ++ [] } pc' :=
      .work locked locked' (by simp)
    simpa [Shared.withTable] using effect
  cases pc with
  | regWait args semid =>
      simp only [apiStep, Choice.onKernel_eq_next, StepResult.map_eq_next,
        StepResult.ofBlocking_eq_next, Prod.mk.injEq] at stepped
      obtain ⟨_, k, took, rfl, rfl⟩ | ⟨code, negative, _, rfl, rfl⟩ := stepped
      · exact .acquire rfl took rfl
      · have refused : afterRegister args.isDefaultHandler code = .done code := by
          simp [afterRegister, Int.ne_of_lt negative]
        rw [refused]
        exact .refuse rfl negative
  | unregWait index semid =>
      simp only [apiStep, Choice.onKernel_eq_next, StepResult.map_eq_next,
        StepResult.ofBlocking_eq_next, Prod.mk.injEq] at stepped
      obtain ⟨_, k, took, rfl, rfl⟩ | ⟨code, negative, _, rfl, rfl⟩ := stepped
      · exact .acquire rfl took rfl
      · exact .refuse rfl negative
  | signal isDefaultHandler ret =>
      simp only [apiStep, Choice.onGo_eq_next, StepResult.next.injEq, Prod.mk.injEq] at stepped
      obtain ⟨_, rfl, rfl⟩ := stepped
      exact .release (afterRegister_free _ _)
  | announce =>
      simp only [apiStep, StepResult.map_eq_next, Choice.onKprintf_eq_next,
        Prod.mk.injEq] at stepped
      obtain ⟨_, ⟨_, rfl⟩ | ⟨during, _, printed⟩, rfl, rfl⟩ := stepped
      · exact .announce (Or.inl rfl)
      · exact .announce (Or.inr ⟨during, printed⟩)
  | dipsw =>
      simp only [apiStep, Choice.onKernel_eq_next, StepResult.next.injEq,
        Prod.mk.injEq] at stepped
      obtain ⟨_, rfl, rfl⟩ | ⟨code, _, _, rfl, rfl⟩ := stepped <;> exact .dipsw rfl
  | registerHook =>
      simp only [apiStep, Choice.onGo_eq_next, StepResult.next.injEq, Prod.mk.injEq] at stepped
      obtain ⟨_, rfl, rfl⟩ := stepped
      exact .hook
  | done ret => contradiction
  | regSetArg args index =>
      simp only [apiStep, Choice.onGo_eq_next, StepResult.next.injEq, Prod.mk.injEq] at stepped
      obtain ⟨_, rfl, rfl⟩ := stepped
      exact .work rfl rfl (List.forall_mem_singleton.mpr rfl)
  | unregClearCb index =>
      simp only [apiStep, Choice.onGo_eq_next, StepResult.next.injEq, Prod.mk.injEq] at stepped
      obtain ⟨_, rfl, rfl⟩ := stepped
      exact .work rfl rfl (List.forall_mem_singleton.mpr rfl)
  | _ =>
      -- The remaining statements write the table without an event, or only read it.
      simp only [apiStep, Choice.onGo_eq_next, StepResult.next.injEq] at stepped
      obtain ⟨_, stepped⟩ := stepped
      first
        | (split at stepped <;> first
            | (cases stepped; first | exact .read rfl rfl | exact quiet rfl rfl)
            | (split at stepped <;> cases stepped <;> exact .read rfl rfl))
        | (cases stepped; exact quiet rfl rfl)

/-- No step of an API function leads to a wait: functions wait at their entry only. -/
theorem ApiEffect.waitsFor {thread : ThreadRef} {sh sh' : Shared cfg} {pc pc' : ApiPc}
    (effect : ApiEffect thread sh pc sh' pc')
    : pc'.waitsFor = none := by
  cases effect with
  | acquire _ _ locked | work _ locked => exact ApiPc.waitsFor_of_locked locked
  | release free | dipsw free => exact (ApiPc.free_iff.mp free).1
  | refuse | announce | hook => rfl

/-- An API function touches message memory only inside a Kprintf call. -/
theorem apiStep_fault {thread : ThreadRef} {sh : Shared cfg} {pc : ApiPc} {choice : Choice cfg}
    (fault : apiStep thread sh pc choice = .fault)
    : ∃ during, kprintf sh during = .fault := by
  cases pc <;> simp [apiStep] at fault
  case announce =>
    obtain ⟨during, _, fault⟩ := fault
    exact ⟨during, fault⟩

/-- So does a running API call. -/
theorem apiCallStep_fault {thread : ThreadRef} {call : ApiCall} {sh : Shared cfg} {api : ApiPc}
    {choice : Choice cfg} (fault : apiCallStep thread call sh api choice = .fault)
    : ∃ during, kprintf sh during = .fault := by
  unfold apiCallStep at fault
  split at fault
  · simp at fault
  · exact apiStep_fault (StepResult.map_eq_fault.mp fault)

/-- A running API call returns, which is noted, or takes a step of the function. -/
theorem apiCallStep_cases {thread : ThreadRef} {call : ApiCall} {sh sh' : Shared cfg}
    {api : ApiPc} {api' : Option ApiPc} {choice : Choice cfg}
    (stepped : apiCallStep thread call sh api choice = .next (sh', api'))
    : (∃ ret, api = .done ret ∧ sh' = sh.note (.answered thread call ret) ∧ api' = none)
      ∨ ∃ pc', apiStep thread sh api choice = .next (sh', pc') ∧ api' = some pc' := by
  by_cases returns : ∃ ret, api = .done ret
  · obtain ⟨ret, rfl⟩ := returns
    simp only [apiCallStep, Choice.onGo_eq_next, StepResult.next.injEq, Prod.mk.injEq] at stepped
    obtain ⟨_, rfl, rfl⟩ := stepped
    exact Or.inl ⟨ret, rfl, rfl, rfl⟩
  · rw [apiCallStep, StepResult.map_eq_next] at stepped
    · obtain ⟨⟨next, pc'⟩, stepped, same⟩ := stepped
      cases same
      exact Or.inr ⟨pc', stepped, rfl⟩
    · intro ret same
      exact returns ⟨ret, same⟩

-----------------------------------------------------------------------------------------
-- The event thread
-----------------------------------------------------------------------------------------

/-- The history events that a running flush_messages notes, apart from freeing. -/
def Event.ofDelivery : Event → Bool
  | .deliveryBegins .. | .invoked .. | .returned .. | .deliveryEnds .. => true
  | _ => false

/-- The exported function that a running callback is in. -/
def FlushPc.nested : FlushPc → Option (ApiCall × ApiPc)
  | .callback _ _ _ nested => nested
  | _ => none

/-- Whether flush_messages is inside a callback. -/
def FlushPc.inCallback : FlushPc → Bool
  | .callback .. => true
  | _ => false

/-- What one step of flush_messages can do. -/
inductive FlushEffect (thid : Uid) (sh : Shared cfg)
    : FlushPc → Shared cfg → Option FlushPc → Prop
  | read {pc pc'} (place : pc.inCallback = false)
    (outside : ∀ next, pc' = some next → next.nested = none)
    : FlushEffect thid sh pc sh pc'
  | observe {pc pc' event} (ofDelivery : event.ofDelivery = true) (place : pc.inCallback = false)
    (outside : ∀ next, pc' = some next → next.nested = none)
    : FlushEffect thid sh pc (sh.note event) pc'
  | callbackReturns {m i cb res len msg mem}
    (stored : sh.k.mem.store m (fun node => { node with len := len, msg := msg }) = some mem)
    : FlushEffect thid sh (.callback m i cb none)
        ({ sh with k := { sh.k with mem := mem } }.note
          (.returned (sh.k.mem.block m).stamp i res))
        (some (if res = kprintfMsgStop then .delivered m else .slot m (i + 1)))
  | callbackCalls {m i cb call}
    : FlushEffect thid sh (.callback m i cb none) (sh.note (.called (.event thid) call))
        (some (.callback m i cb (some (call, apiEntry sh call))))
  | nested {m i cb call api sh' api' choice}
    (stepped : apiCallStep (.event thid) call sh api choice = .next (sh', api'))
    : FlushEffect thid sh (.callback m i cb (some (call, api))) sh'
        (some (.callback m i cb (api'.map (call, ·))))
  | remove {m n head mem events} (freed : ∀ event ∈ events, ∃ stamp, event = Event.freed stamp)
    : FlushEffect thid sh (.remove m n)
        { sh.withQueue head mem with history := sh.history ++ events } (some (.advance n))

/-- Every step of flush_messages has one of these effects, by cases of its program point. -/
theorem flushStep_effect {thid : Uid} {sh sh' : Shared cfg} {pc : FlushPc}
    {pc' : Option FlushPc} {choice : Choice cfg}
    (stepped : flushStep thid sh pc choice = .next (sh', pc'))
    : FlushEffect thid sh pc sh' pc' := by
  cases pc with
  | start | advance n =>
      simp only [flushStep, Choice.onGo_eq_next, StepResult.next.injEq, Prod.mk.injEq] at stepped
      obtain ⟨_, rfl, rfl⟩ := stepped
      exact .read rfl (by simp [FlushPc.nested])
  | test m =>
      simp only [flushStep, Choice.onGo_eq_next, StepResult.next.injEq] at stepped
      obtain ⟨_, stepped⟩ := stepped
      split at stepped <;> cases stepped
      · exact .read rfl (by simp [FlushPc.nested])
      · exact .observe rfl rfl (by simp [FlushPc.nested])
  | slot m i =>
      simp only [flushStep, Choice.onGo_eq_next, StepResult.next.injEq] at stepped
      obtain ⟨_, stepped⟩ := stepped
      split at stepped
      · split at stepped <;> cases stepped <;> exact .read rfl (by simp [FlushPc.nested])
      · cases stepped
        exact .read rfl (by simp [FlushPc.nested])
  | invoke m i =>
      simp only [flushStep, Choice.onGo_eq_next] at stepped
      obtain ⟨_, stepped⟩ := stepped
      split at stepped
      · split at stepped
        · cases stepped
          exact .observe rfl rfl (by simp [FlushPc.nested])
        · contradiction
      · contradiction
  | callback m i cb nested =>
      cases nested with
      | none =>
          simp only [flushStep, StepResult.map_eq_next, Prod.exists, Prod.mk.injEq] at stepped
          obtain ⟨_, pc', called, rfl, rfl⟩ := stepped
          unfold callbackStep at called
          split at called
          · split at called
            · contradiction
            · simp only [StepResult.map_eq_next, StepResult.ofMemory_eq_next] at called
              obtain ⟨mem, stored, same⟩ := called
              cases same
              exact .callbackReturns stored
          · split at called
            · contradiction
            · cases called
              exact .callbackCalls
          · contradiction
      | some running =>
          obtain ⟨call, api⟩ := running
          simp only [flushStep, StepResult.map_eq_next, Prod.exists, Prod.mk.injEq] at stepped
          obtain ⟨_, api', called, rfl, rfl⟩ := stepped
          exact .nested called
  | delivered m =>
      simp only [flushStep, Choice.onGo_eq_next, StepResult.next.injEq, Prod.mk.injEq] at stepped
      obtain ⟨_, rfl, rfl⟩ := stepped
      exact .observe rfl rfl (by simp [FlushPc.nested])
  | readNext m =>
      simp only [flushStep, Choice.onGo_eq_next, StepResult.map_eq_next, Prod.mk.injEq] at stepped
      obtain ⟨_, n, _, rfl, rfl⟩ := stepped
      exact .read rfl (by simp [FlushPc.nested])
  | remove m n =>
      simp only [flushStep, Choice.onGo_eq_next, StepResult.map_eq_next, Prod.exists,
        StepResult.ofMemory_eq_next, Prod.mk.injEq] at stepped
      obtain ⟨_, _, ret, removed, rfl, rfl⟩ := stepped
      obtain ⟨head, mem, events, freed, rfl⟩ := removeDeleteMsg_effect removed
      exact .remove freed

/-- The semaphore the event thread is about to wait for, itself or in an API function. -/
def EventPc.waitsFor : EventPc → Option Uid
  | .waitSema _ semid => some semid
  | .register api => api.waitsFor
  | .flush _ pc => pc.nested.bind (fun running => running.2.waitsFor)
  | _ => none

/-- Whether the event thread is between two of its semaphore calls. -/
def EventPc.locked : EventPc → Bool
  | .register api => api.locked
  | .flush _ _ | .signal _ => true
  | _ => false

/-- Whether the event thread runs, and none of the code that needs the semaphore. -/
def EventPc.free : EventPc → Bool
  | .absent | .dormant | .register _ | .flush _ _ | .signal _ => false
  | _ => true

/-- Whether the event thread has nothing left to do but to return. -/
def EventPc.ended : EventPc → Bool
  | .returning | .exited => true
  | _ => false

/-- The steps of the event thread that change no shared state. -/
inductive EventMove (sh : Shared cfg) : EventPc → EventPc → Prop
  | sleeps (state : sh.g.gState ≠ .started) : EventMove sh .poll .pollDelay
  | polls : EventMove sh .pollDelay .poll
  | starts (state : sh.g.gState = .started) : EventMove sh .poll (afterPoll cfg)
  | detects {t} : EventMove sh (.detect t) .usbDelay
  | misses {t} : EventMove sh (.detect t) (.detectDelay t)
  | retries {t} : EventMove sh (.detectDelay t) (.detect (t + 1000))
  | detectEnds {t} : EventMove sh (.detect t) .loop
  | usbEnds : EventMove sh .usbDelay .loop
  | waits : EventMove sh .loop (.waitFlag sh.g.gEvid)
  | waitFails {evid} : EventMove sh (.waitFlag evid) (.testFlush 0)
  | flushes {ev} (set : ev &&& evFlush ≠ 0)
    : EventMove sh (.testFlush ev) (.waitSema ev sh.g.gSemid)
  | skips {ev} (unset : ¬ ev &&& evFlush ≠ 0) : EventMove sh (.testFlush ev) (.testTerminate ev)
  | semaFails {ev semid} : EventMove sh (.waitSema ev semid) (.resend ev)
  | resent {ev} : EventMove sh (.resendDelay ev) (.testTerminate ev)
  | ends {ev} (set : ev &&& evTerminate ≠ 0) : EventMove sh (.testTerminate ev) .stopOk
  | continues {ev} (unset : ¬ ev &&& evTerminate ≠ 0) : EventMove sh (.testTerminate ev) .loop
  | returns : EventMove sh .returning .exited

/-- Where the event thread goes after its start-up loop. -/
theorem afterPoll_cases (cfg : Config) : afterPoll cfg = .callRegister ∨ afterPoll cfg = .detect 0 := by
  unfold afterPoll
  split
  · exact Or.inl rfl
  · exact Or.inr rfl

/-- These steps stay outside all code that needs the semaphore. -/
theorem EventMove.free {sh : Shared cfg} {pc pc' : EventPc} (move : EventMove sh pc pc')
    : pc.free = true ∧ pc'.free = true := by
  cases move with
  | starts =>
      refine ⟨rfl, ?_⟩
      rcases afterPoll_cases cfg with same | same <;> rw [same] <;> rfl
  | _ => exact ⟨rfl, rfl⟩

/-- What one step of the event thread can do. -/
inductive EventEffect (thid : Uid) (sh : Shared cfg) : EventPc → Shared cfg → EventPc → Prop
  | move {pc pc'} (move : EventMove sh pc pc') : EventEffect thid sh pc sh pc'
  | callRegister
    : EventEffect thid sh .callRegister
        (sh.note (.called (.event thid) .registerDefaultHandler))
        (.register (apiEntry sh .registerDefaultHandler))
  | register {api sh' api' choice}
    (stepped
      : apiCallStep (.event thid) .registerDefaultHandler sh api choice = .next (sh', api'))
    : EventEffect thid sh (.register api) sh' (api'.elim (.detect 0) .register)
  | wake {evid k ev}
    (took : sh.k.takeEventFlag evid (evFlush ||| evTerminate) = some (k, ev))
    : EventEffect thid sh (.waitFlag evid) { sh with k := k } (.testFlush ev)
  | acquire {ev semid k} (took : sh.k.takeSema semid (.event thid) = some k)
    : EventEffect thid sh (.waitSema ev semid) { sh with k := k } (.flush ev .start)
  | flush {ev pc sh' pc' choice} (stepped : flushStep thid sh pc choice = .next (sh', pc'))
    : EventEffect thid sh (.flush ev pc) sh' (pc'.elim (.signal ev) (.flush ev))
  | release {ev}
    : EventEffect thid sh (.signal ev)
        { sh with k := (sh.k.sceKernelSignalSema sh.g.gSemid).1 } (.testTerminate ev)
  | resend {ev}
    : EventEffect thid sh (.resend ev) (sh.setEventFlag evFlush) (.resendDelay ev)
  | stopOk : EventEffect thid sh .stopOk sh.acknowledge .returning

/-- Every step of the event thread has one of these effects, by cases of its program point. -/
theorem eventStep_effect {thid : Uid} {sh sh' : Shared cfg} {pc pc' : EventPc}
    {choice : Choice cfg} (stepped : eventStep thid sh pc choice = .next (sh', pc'))
    : EventEffect thid sh pc sh' pc' := by
  cases pc with
  | absent | dormant | exited => contradiction
  | register api =>
      simp only [eventStep, StepResult.map_eq_next] at stepped
      obtain ⟨⟨next, api'⟩, called, same⟩ := stepped
      cases api' <;> cases same
      · exact .register called
      · exact .register called
  | flush ev pc =>
      simp only [eventStep, StepResult.map_eq_next] at stepped
      obtain ⟨⟨next, pc'⟩, flushed, same⟩ := stepped
      cases pc' <;> cases same
      · exact .flush flushed
      · exact .flush flushed
  | poll =>
      simp only [eventStep, Choice.onGo_eq_next, StepResult.next.injEq, Prod.mk.injEq] at stepped
      obtain ⟨_, rfl, rfl⟩ := stepped
      split
      · rename_i started
        exact .move (.starts started)
      · rename_i stopped
        exact .move (.sleeps stopped)
  | detect t =>
      simp only [eventStep] at stepped
      split at stepped
      · split at stepped
        · cases stepped
          exact .move .detects
        · cases stepped
          exact .move .misses
        · contradiction
      · simp only [Choice.onGo_eq_next, StepResult.next.injEq, Prod.mk.injEq] at stepped
        obtain ⟨_, rfl, rfl⟩ := stepped
        exact .move .detectEnds
  | waitFlag evid =>
      simp only [eventStep, Choice.onKernel_eq_next, StepResult.map_eq_next,
        StepResult.ofBlocking_eq_next, Prod.mk.injEq] at stepped
      obtain ⟨_, ⟨k, ev⟩, took, rfl, rfl⟩ | ⟨_, _, _, rfl, rfl⟩ := stepped
      · exact .wake took
      · exact .move .waitFails
  | waitSema ev semid =>
      simp only [eventStep, Choice.onKernel_eq_next, StepResult.map_eq_next,
        StepResult.ofBlocking_eq_next, Prod.mk.injEq] at stepped
      obtain ⟨_, k, took, rfl, rfl⟩ | ⟨_, _, _, rfl, rfl⟩ := stepped
      · exact .acquire took
      · exact .move .semaFails
  | callRegister =>
      simp only [eventStep, Choice.onGo_eq_next, StepResult.next.injEq, Prod.mk.injEq] at stepped
      obtain ⟨_, rfl, rfl⟩ := stepped
      exact .callRegister
  | signal ev =>
      simp only [eventStep, Choice.onGo_eq_next, StepResult.next.injEq, Prod.mk.injEq] at stepped
      obtain ⟨_, rfl, rfl⟩ := stepped
      exact .release
  | resend ev =>
      simp only [eventStep, Choice.onGo_eq_next, StepResult.next.injEq, Prod.mk.injEq] at stepped
      obtain ⟨_, rfl, rfl⟩ := stepped
      exact .resend
  | stopOk =>
      simp only [eventStep, Choice.onGo_eq_next, StepResult.next.injEq, Prod.mk.injEq] at stepped
      obtain ⟨_, rfl, rfl⟩ := stepped
      exact .stopOk
  | testFlush ev =>
      simp only [eventStep, Choice.onGo_eq_next, StepResult.next.injEq, Prod.mk.injEq] at stepped
      obtain ⟨_, rfl, rfl⟩ := stepped
      split
      · rename_i set
        exact .move (.flushes set)
      · rename_i unset
        exact .move (.skips unset)
  | testTerminate ev =>
      simp only [eventStep, Choice.onGo_eq_next, StepResult.next.injEq, Prod.mk.injEq] at stepped
      obtain ⟨_, rfl, rfl⟩ := stepped
      split
      · rename_i set
        exact .move (.ends set)
      · rename_i unset
        exact .move (.continues unset)
  | pollDelay | detectDelay t | usbDelay | loop | resendDelay ev | returning =>
      simp only [eventStep, Choice.onGo_eq_next, StepResult.next.injEq, Prod.mk.injEq] at stepped
      obtain ⟨_, rfl, rfl⟩ := stepped
      exact .move (by constructor)

/-- A thread that has nothing left to do but to return only returns. -/
theorem EventEffect.idle {thid : Uid} {sh sh' : Shared cfg} {pc pc' : EventPc}
    (effect : EventEffect thid sh pc sh' pc') (ended : pc.ended = true)
    : pc = .returning ∧ sh' = sh ∧ pc' = .exited := by
  cases effect with
  | move move => cases move <;> first | exact ⟨rfl, rfl, rfl⟩ | contradiction
  | _ => contradiction

-----------------------------------------------------------------------------------------
-- Client threads
-----------------------------------------------------------------------------------------

/-- What one step of a client thread can do. -/
inductive ClientEffect (n : Nat) (sh : Shared cfg) : ClientPc → Shared cfg → ClientPc → Prop
  | enter {call}
    : ClientEffect n sh none (sh.note (.called (.client n) call))
        (some (call, apiEntry sh call))
  | leave {call ret}
    : ClientEffect n sh (some (call, .done ret)) (sh.note (.answered (.client n) call ret)) none
  | run {call api sh' api' choice} (stepped : apiStep (.client n) sh api choice = .next (sh', api'))
    : ClientEffect n sh (some (call, api)) sh' (some (call, api'))

/-- Every step of a client thread enters a call, leaves it or takes a step inside. -/
theorem clientStep_effect {n : Nat} {sh sh' : Shared cfg} {pc pc' : ClientPc}
    {choice : Choice cfg} (stepped : clientStep n sh pc choice = .next (sh', pc'))
    : ClientEffect n sh pc sh' pc' := by
  cases pc with
  | none =>
      simp only [clientStep] at stepped
      split at stepped
      · cases stepped
        exact .enter
      · contradiction
  | some running =>
      obtain ⟨call, api⟩ := running
      simp only [clientStep, StepResult.map_eq_next] at stepped
      obtain ⟨⟨next, api'⟩, called, same⟩ := stepped
      cases same
      obtain ⟨ret, rfl, rfl, rfl⟩ | ⟨pc', stepped, rfl⟩ := apiCallStep_cases called
      · exact .leave
      · exact .run stepped

end LibKprintf
