import LibKprintf.Queue.Delivery

/-! Progress: how far a thread inside the library is from the end of what it does, as a
rank that some plain step lowers. A thread that is not blocked can always run on.
-/

namespace LibKprintf

open Foundation

variable {cfg : Config}

/-- A choice of the ordinary course: no kernel call fails, no callback calls an exported
function, and no Kprintf call falls into the step.
-/
def Choice.plain : Choice cfg → Bool
  | .go | .ret .. | .found _ => true
  | _ => false

/-- The plain steps of one thread. -/
def OwnStep (thread : ThreadRef) (_ : State cfg) : Action cfg → Prop
  | .event thid choice => .event thid = thread ∧ choice.plain = true
  | .client n choice => .client n = thread ∧ choice.plain = true
  | _ => False

/-- A thread's own step does not call _start. -/
theorem OwnStep.single {thread : ThreadRef} {s : State cfg} {action : Action cfg}
    (own : OwnStep thread s action)
    : SingleSession s action := by
  intro start
  cases action with
  | event | client => contradiction
  | kprintf | loader | overRegister => exact own.elim

/-- A step of the event thread's code is a step of a module that has not crashed. -/
theorem State.step_event {s : State cfg} {thid : Uid} {choice : Choice cfg} {sh' : Shared cfg}
    {pc' : EventPc} (running : s.crashed = false)
    (ran : eventStep thid s.sh (s.threads thid) choice = .next (sh', pc'))
    : s.step (.event thid choice)
      = some { s with sh := sh', threads := Function.update s.threads thid pc' } := by
  simp [State.step, State.apply, running, ran]

/-- So is a step of a client. -/
theorem State.step_client {s : State cfg} {n : Nat} {choice : Choice cfg} {sh' : Shared cfg}
    {pc' : ClientPc} (running : s.crashed = false)
    (ran : clientStep n s.sh (s.clients n) choice = .next (sh', pc'))
    : s.step (.client n choice)
      = some { s with sh := sh', clients := Function.update s.clients n pc' } := by
  simp [State.step, State.apply, running, ran]

/-- How many steps an API function has left, at most, for a table of `slots` slots. -/
def ApiPc.rank (slots : Nat) : ApiPc → Nat
  | .done _ => 0
  | .announce | .registerHook => 1
  | .signal .. | .dipsw => 2
  | .regCount .. | .unregCount => 3
  | .regSetArg .. | .unregClearArg _ => 4
  | .regSetCb .. | .unregClearCb _ => 5
  | .regSetDefault .. | .unregDefault _ => 6
  | .unregTestCb _ => 7
  | .unregTestIndex _ => 8
  | .unregWait .. => 9
  | .regFind _ i => 7 + (slots - i)
  | .regTestCount _ => 8 + slots
  | .regTestDefault _ => 9 + slots
  | .regWait .. => 10 + slots

/-- The results of register_handler are near its end. -/
theorem afterRegister_rank (isDefaultHandler : Bool) (ret : Int) (slots : Nat)
    : (afterRegister isDefaultHandler ret).rank slots < 2 := by
  unfold afterRegister
  split <;> simp [ApiPc.rank]

/-- An API function that need not wait for the semaphore takes a plain step. -/
theorem apiStep_progress {thread : ThreadRef} {sh : Shared cfg} {pc : ApiPc}
    (running : ∀ ret, pc ≠ .done ret)
    (unblocked
      : ∀ semid, pc.waitsFor = some semid → ∃ k, sh.k.takeSema semid thread = some k)
    : ∃ sh' pc', apiStep thread sh pc .go = .next (sh', pc') ∧ sh'.k.mem = sh.k.mem
        ∧ pc'.rank cfg.kprintfMaxHandlers < pc.rank cfg.kprintfMaxHandlers := by
  cases pc with
  | regWait args semid =>
      obtain ⟨k, took⟩ := unblocked semid rfl
      refine ⟨{ sh with k := k }, .regTestDefault args, ?_, ?_, by simp [ApiPc.rank]⟩
      · simp [apiStep, took]
      · obtain ⟨semas, rfl⟩ := takeSema_shape took
        rfl
  | unregWait index semid =>
      obtain ⟨k, took⟩ := unblocked semid rfl
      refine ⟨{ sh with k := k }, .unregTestIndex index, ?_, ?_, by simp [ApiPc.rank]⟩
      · simp [apiStep, took]
      · obtain ⟨semas, rfl⟩ := takeSema_shape took
        rfl
  | signal isDefaultHandler ret =>
      obtain ⟨semas, same⟩ := signalSema_shape sh.k sh.g.gSemid
      refine ⟨{ sh with k := (sh.k.sceKernelSignalSema sh.g.gSemid).1 }, _, rfl, ?_,
        afterRegister_rank _ _ _⟩
      rw [same]
  | regFind args i =>
      simp only [apiStep, Choice.onGo]
      split
      · split
        · exact ⟨_, _, rfl, rfl, by simp only [ApiPc.rank]; omega⟩
        · exact ⟨_, _, rfl, rfl, by simp only [ApiPc.rank]; omega⟩
      · exact ⟨_, _, rfl, rfl, by simp only [ApiPc.rank]; omega⟩
  | done ret => exact absurd rfl (running ret)
  | regTestDefault | regTestCount | regSetDefault | unregTestIndex | unregTestCb | unregDefault =>
      simp only [apiStep, Choice.onGo]
      split <;> exact ⟨_, _, rfl, rfl, by simp only [ApiPc.rank]; omega⟩
  | _ => exact ⟨_, _, rfl, rfl, by simp [ApiPc.rank]⟩

/-- So does a running API call, which at last returns. -/
theorem apiCallStep_progress (thread : ThreadRef) (call : ApiCall) {sh : Shared cfg}
    {api : ApiPc}
    (unblocked
      : ∀ semid, api.waitsFor = some semid → ∃ k, sh.k.takeSema semid thread = some k)
    : ∃ sh' api', apiCallStep thread call sh api .go = .next (sh', api')
        ∧ sh'.k.mem = sh.k.mem
        ∧ api'.elim 0 (fun api => api.rank cfg.kprintfMaxHandlers + 1)
            < api.rank cfg.kprintfMaxHandlers + 1 := by
  by_cases returns : ∃ ret, api = .done ret
  · obtain ⟨ret, rfl⟩ := returns
    exact ⟨_, none, rfl, rfl, by simp⟩
  · have running : ∀ ret, api ≠ .done ret := fun ret same => returns ⟨ret, same⟩
    obtain ⟨sh', api', stepped, mem, lower⟩ := apiStep_progress running unblocked
    refine ⟨sh', some api', ?_, mem, by simpa using lower⟩
    rw [apiCallStep, stepped]
    · rfl
    · exact running

/-- The steps that one message takes, at most. -/
def messageRank (slots : Nat) : Nat := 3 * slots + 6

/-- How many steps flush_messages has left, at most, for a number of queued messages. -/
def FlushPc.rank (slots queued : Nat) : FlushPc → Nat
  | .start | .advance _ => queued * messageRank slots + 2
  | .test _ => queued * messageRank slots + 1
  | .slot _ i => (queued - 1) * messageRank slots + 6 + 3 * (slots - i)
  | .invoke _ i => (queued - 1) * messageRank slots + 8 + 3 * (slots - (i + 1))
  | .callback _ i _ nested =>
      (queued - 1) * messageRank slots + 7 + 3 * (slots - (i + 1))
        + nested.elim 0 (fun running => running.2.rank slots + 1)
  | .delivered _ => (queued - 1) * messageRank slots + 5
  | .readNext _ => (queued - 1) * messageRank slots + 4
  | .remove .. => (queued - 1) * messageRank slots + 3

/-- The rank of flush_messages in a state; its end has rank 0. -/
def flushRank (sh : Shared cfg) (pc : Option FlushPc) : Nat :=
  pc.elim 0 (FlushPc.rank cfg.kprintfMaxHandlers sh.k.mem.live.card)

/-- While a callback does not wait for the semaphore, flush_messages takes a plain step: the
callback may return, and a message that has been passed on is removed.
-/
theorem flushStep_progress (thid : Uid) {sh : Shared cfg} {ev : U32} {pc : FlushPc}
    {nodes : List Addr} (delivery : Delivery sh (.flush ev pc) nodes)
    (pool : sh.k.vpls sh.g.gVplid = true)
    (ready : ∀ m i, pc = .invoke m i → sh.g.callbackAt i ≠ none)
    (unblocked : ∀ call api, pc.nested = some (call, api) → api.waitsFor = none)
    : ∃ choice : Choice cfg, choice.plain = true
        ∧ ∃ sh' pc', flushStep thid sh pc choice = .next (sh', pc')
            ∧ sh'.k.mem.live.card ≤ sh.k.mem.live.card
            ∧ flushRank sh' pc' < flushRank sh (some pc) := by
  have queued (m : Addr) (known : (EventPc.flush ev pc).known = [m]) :
      m ∈ sh.k.mem.live ∧ ∃ others, sh.k.mem.live.card = others + 1 := by
    obtain ⟨rest, rfl⟩ := delivery.first known
    exact ⟨(delivery.queue.live m).mpr (by simp), rest.length, delivery.queue.card⟩
  cases pc with
  | start => exact ⟨.go, rfl, sh, _, rfl, le_rfl, by simp [flushRank, FlushPc.rank]⟩
  | test m =>
      by_cases null : m = 0
      · refine ⟨.go, rfl, sh, none, by simp [flushStep, null], le_rfl, ?_⟩
        simp [flushRank, FlushPc.rank]
      · obtain ⟨_, others, card⟩ := queued m (by simp [EventPc.known, FlushPc.known, null])
        refine ⟨.go, rfl,
          sh.note (.deliveryBegins (sh.k.mem.block m).stamp (sh.k.mem.block m).msg.toMsgBody),
          some (.slot m 0), by simp [flushStep, null], le_rfl, ?_⟩
        simp only [flushRank, Option.elim_some, FlushPc.rank, Shared.note_k, card,
          Nat.add_sub_cancel, Nat.succ_mul, messageRank]
        omega
  | slot m i =>
      refine ⟨.go, rfl, sh, ?_⟩
      simp only [flushStep, Choice.onGo]
      split
      · split
        · refine ⟨_, rfl, le_rfl, ?_⟩
          simp only [flushRank, Option.elim_some, FlushPc.rank]
          omega
        · refine ⟨_, rfl, le_rfl, ?_⟩
          simp only [flushRank, Option.elim_some, FlushPc.rank]
          omega
      · refine ⟨_, rfl, le_rfl, ?_⟩
        simp only [flushRank, Option.elim_some, FlushPc.rank]
        omega
  | invoke m i =>
      obtain ⟨live, _⟩ := queued m rfl
      obtain ⟨handler, slot, cb, occupied⟩ : ∃ handler, sh.g.gHandlers[i]? = some handler
          ∧ ∃ cb, handler.cb = some cb := by
        have occupied := ready m i rfl
        simp only [Globals.callbackAt, ne_eq, Option.bind_eq_none_iff, not_forall] at occupied
        obtain ⟨handler, slot, some⟩ := occupied
        exact ⟨handler, slot, Option.ne_none_iff_exists'.mp some⟩
      obtain ⟨_, arg⟩ := handler
      subst occupied
      refine ⟨.go, rfl, sh.note (.invoked (sh.k.mem.block m).stamp i cb arg),
        some (.callback m i cb none), by simp [flushStep, slot, live], le_rfl, ?_⟩
      simp only [flushRank, Option.elim_some, FlushPc.rank, Shared.note_k, Option.elim_none]
      omega
  | callback m i cb nested =>
      cases nested with
      | none =>
          obtain ⟨live, _⟩ := queued m rfl
          let text := (sh.k.mem.block m).msg
          obtain ⟨mem, stored⟩ : ∃ mem, sh.k.mem.store m
              (fun node => { node with len := text.len, msg := text.msg }) = some mem := by
            simp [Mem.store, live]
          have kept : mem.live = sh.k.mem.live := (Mem.store_text stored).1
          refine ⟨.ret 0 text.len text.msg, rfl,
            { sh with k := { sh.k with mem := mem } }.note
              (.returned (sh.k.mem.block m).stamp i 0),
            some (.slot m (i + 1)), ?_, by simp [kept], ?_⟩
          · simp [flushStep, callbackStep, stored, text, kprintfMsgStop]
          · simp only [flushRank, Option.elim_some, FlushPc.rank, Shared.note_k, kept,
              Option.elim_none]
            omega
      | some running =>
          obtain ⟨call, api⟩ := running
          have free : ∀ semid, api.waitsFor = some semid →
              ∃ k, sh.k.takeSema semid (.event thid) = some k := by
            simp [unblocked call api rfl]
          obtain ⟨sh', api', stepped, mem, lower⟩ := apiCallStep_progress (.event thid) call free
          refine ⟨.go, rfl, sh', some (.callback m i cb (api'.map (call, ·))), ?_, ?_⟩
          · simp [flushStep, stepped]
          · refine ⟨by rw [mem], ?_⟩
            simp only [flushRank, Option.elim_some, FlushPc.rank, mem, Option.elim_map]
            exact Nat.add_lt_add_left lower _
  | delivered m =>
      refine ⟨.go, rfl, _, some (.readNext m), rfl, le_rfl, ?_⟩
      simp [flushRank, FlushPc.rank]
  | readNext m =>
      obtain ⟨live, _⟩ := queued m rfl
      refine ⟨.go, rfl, sh, some (.remove m (sh.k.mem.next m)), ?_, le_rfl, ?_⟩
      · simp [flushStep, Mem.loadNext_live live]
      · simp [flushRank, FlushPc.rank]
  | remove m n =>
      obtain ⟨rest, rfl, _⟩ := delivery.removing
      have queue : Queue sh ([] ++ m :: rest) := delivery.queue
      obtain ⟨sh', removed, removes⟩ := removeDeleteMsg_removes queue pool
      have before : sh.k.mem.live.card = rest.length + 1 := queue.card
      have after : sh'.k.mem.live.card = rest.length := removes.queue.card
      refine ⟨.go, rfl, sh', some (.advance n), ?_, by omega, ?_⟩
      · simp [flushStep, removed]
      · simp [flushRank, FlushPc.rank, before, after]
  | advance n => exact ⟨.go, rfl, sh, _, rfl, le_rfl, by simp [flushRank, FlushPc.rank]⟩

/-- Nothing keeps the event thread from its next plain step on the way to its end. Whatever
it is woken up with has to contain EV_TERMINATE.
-/
def EventPc.Unblocked (thid : Uid) (sh : Shared cfg) : EventPc → Prop
  | .absent | .dormant | .poll | .pollDelay | .exited => False
  | .callRegister => sh.g.gState ≠ .started
  | .register api => ∀ semid, api.waitsFor = some semid → ∃ k, sh.k.takeSema semid (.event thid) = some k
  | .waitFlag evid =>
      ∃ k ev, sh.k.takeEventFlag evid (evFlush ||| evTerminate) = some (k, ev)
        ∧ ev &&& evTerminate ≠ 0
  | .waitSema _ semid => ∃ k, sh.k.takeSema semid (.event thid) = some k
  | .flush _ pc => ∀ call api, pc.nested = some (call, api) → api.waitsFor = none
  | _ => True

/-- The steps of one more round of the main loop, for a wake-up without EV_TERMINATE. -/
def roundRank (slots queued : Nat) (ev : U32) : Nat :=
  if ev &&& evTerminate ≠ 0 then 0 else queued * messageRank slots + 11

/-- How many steps the event thread has left, at most, once nothing is appended any more and
EV_TERMINATE is set.
-/
def EventPc.rank (slots queued : Nat) : EventPc → Nat
  | .absent | .dormant | .poll | .pollDelay | .exited => 0
  | .returning => 1
  | .stopOk => 2
  | .testTerminate ev => 3 + roundRank slots queued ev
  | .signal ev | .resendDelay ev => 4 + roundRank slots queued ev
  | .flush ev pc => 5 + pc.rank slots queued + roundRank slots queued ev
  | .resend ev => 5 + roundRank slots queued ev
  | .waitSema ev _ => queued * messageRank slots + 8 + roundRank slots queued ev
  | .testFlush ev => queued * messageRank slots + 9 + roundRank slots queued ev
  | .waitFlag _ => queued * messageRank slots + 10
  | .loop => queued * messageRank slots + 11
  | .usbDelay => queued * messageRank slots + 12
  | .detect _ => queued * messageRank slots + 13
  | .detectDelay _ => queued * messageRank slots + 14
  | .register api => queued * messageRank slots + 14 + api.rank slots
  | .callRegister => queued * messageRank slots + 15

/-- The rank of the event thread in a state. -/
def eventRank (sh : Shared cfg) (pc : EventPc) : Nat :=
  pc.rank cfg.kprintfMaxHandlers sh.k.mem.live.card

/-- Fewer queued messages need fewer steps. -/
theorem roundRank_mono (slots : Nat) {queued queued' : Nat} (fewer : queued' ≤ queued) (ev : U32)
    : roundRank slots queued' ev ≤ roundRank slots queued ev := by
  unfold roundRank
  split
  · exact le_rfl
  · have := Nat.mul_le_mul_right (messageRank slots) fewer
    omega

/-- An event thread that is not blocked takes a plain step that brings it nearer its end. -/
theorem eventStep_progress (thid : Uid) {sh : Shared cfg} {pc : EventPc} {nodes : List Addr}
    (delivery : Delivery sh pc nodes) (pool : sh.k.vpls sh.g.gVplid = true)
    (ready : ∀ ev m i, pc = .flush ev (.invoke m i) → sh.g.callbackAt i ≠ none)
    (unblocked : pc.Unblocked thid sh)
    : ∃ choice : Choice cfg, choice.plain = true
        ∧ ∃ sh' pc', eventStep thid sh pc choice = .next (sh', pc')
            ∧ eventRank sh' pc' < eventRank sh pc := by
  cases pc with
  | absent | dormant | poll | pollDelay | exited => exact unblocked.elim
  | callRegister =>
      have state : sh.g.gState ≠ .started := unblocked
      refine ⟨.go, rfl, _, _, rfl, ?_⟩
      simp [eventRank, EventPc.rank, apiEntry, registerEntry, state, ApiPc.rank]
  | register api =>
      obtain ⟨sh', api', stepped, mem, lower⟩ :=
        apiCallStep_progress (.event thid) .registerDefaultHandler unblocked
      cases api' with
      | none =>
          refine ⟨.go, rfl, sh', .detect 0, by simp [eventStep, stepped], ?_⟩
          simp only [eventRank, EventPc.rank, mem]
          omega
      | some api' =>
          refine ⟨.go, rfl, sh', .register api', by simp [eventStep, stepped], ?_⟩
          simp only [eventRank, EventPc.rank, mem, Option.elim_some] at lower ⊢
          omega
  | detect t =>
      by_cases early : t.toNat < cfg.kprintfPsplinkDetectTimeout.toNat
      · exact ⟨.found true, rfl, sh, .usbDelay, by simp [eventStep, early],
          by simp [eventRank, EventPc.rank]⟩
      · exact ⟨.go, rfl, sh, .loop, by simp [eventStep, early], by simp [eventRank, EventPc.rank]⟩
  | waitFlag evid =>
      obtain ⟨k, ev, took, terminate⟩ := unblocked
      refine ⟨.go, rfl, { sh with k := k }, .testFlush ev, by simp [eventStep, took], ?_⟩
      obtain ⟨evflags, rfl⟩ := takeEventFlag_shape took
      simp only [eventRank, EventPc.rank, roundRank, if_pos terminate]
      omega
  | testFlush ev =>
      refine ⟨.go, rfl, sh, _, rfl, ?_⟩
      split <;> simp only [eventRank, EventPc.rank] <;> omega
  | waitSema ev semid =>
      obtain ⟨k, took⟩ := unblocked
      refine ⟨.go, rfl, { sh with k := k }, .flush ev .start, by simp [eventStep, took], ?_⟩
      obtain ⟨semas, rfl⟩ := takeSema_shape took
      simp only [eventRank, EventPc.rank, FlushPc.rank]
      omega
  | flush ev pc =>
      obtain ⟨choice, plain, sh', pc', stepped, fewer, lower⟩ :=
        flushStep_progress thid delivery pool
          (fun m i place => ready ev m i (by rw [place])) unblocked
      have round := roundRank_mono cfg.kprintfMaxHandlers fewer ev
      cases pc' with
      | none =>
          refine ⟨choice, plain, sh', .signal ev, by simp [eventStep, stepped], ?_⟩
          simp only [flushRank, eventRank, EventPc.rank, Option.elim_some] at lower round ⊢
          omega
      | some pc' =>
          refine ⟨choice, plain, sh', .flush ev pc', by simp [eventStep, stepped], ?_⟩
          simp only [flushRank, eventRank, EventPc.rank, Option.elim_some] at lower round ⊢
          omega
  | signal ev =>
      refine ⟨.go, rfl, _, .testTerminate ev, rfl, ?_⟩
      obtain ⟨semas, same⟩ := signalSema_shape sh.k sh.g.gSemid
      simp [eventRank, EventPc.rank, same]
  | testTerminate ev =>
      by_cases terminate : ev &&& evTerminate = 0#32
      · exact ⟨.go, rfl, sh, .loop, by simp [eventStep, terminate],
          by simp [eventRank, EventPc.rank, roundRank, terminate]⟩
      · exact ⟨.go, rfl, sh, .stopOk, by simp [eventStep, terminate],
          by simp [eventRank, EventPc.rank, roundRank, terminate]⟩
  | resend ev => exact ⟨.go, rfl, _, .resendDelay ev, rfl, by simp [eventRank, EventPc.rank]⟩
  | stopOk => exact ⟨.go, rfl, _, .returning, rfl, by simp [eventRank, EventPc.rank]⟩
  | _ => exact ⟨.go, rfl, sh, _, rfl, by simp [eventRank, EventPc.rank]⟩

end LibKprintf
