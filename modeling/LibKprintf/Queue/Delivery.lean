import LibKprintf.Queue.Operations
import LibKprintf.Session.Table

/-! Every accepted message is passed to the handlers once and in order, and every block is
freed once: the invariant that ties the queue, the place of the event thread and the history
together.
-/

namespace LibKprintf

open Foundation

variable {cfg : Config}

/-- The messages passed to invoke_handlers so far, in order. -/
def delivered (history : List Event) : List (Nat × MsgBody) :=
  history.filterMap fun
    | .deliveryBegins stamp body => some (stamp, body)
    | _ => none

/-- The messages whose blocks have been freed so far, in order. -/
def freed (history : List Event) : List Nat :=
  history.filterMap fun
    | .freed stamp => some stamp
    | _ => none

/-- The events that say something of the messages. -/
def Event.ofQueue : Event → Bool
  | .accepted .. | .deliveryBegins .. | .freed _ => true
  | _ => false

/-- Other events leave the three sequences alone. -/
theorem messages_append {events : List Event} (history : List Event)
    (silent : ∀ event ∈ events, event.ofQueue = false)
    : accepted (history ++ events) = accepted history
      ∧ delivered (history ++ events) = delivered history
      ∧ freed (history ++ events) = freed history := by
  simp only [accepted, delivered, freed, List.filterMap_append, List.append_right_eq_self,
    List.filterMap_eq_nil_iff]
  refine ⟨?_, ?_, ?_⟩ <;> intro event member <;> have quiet := silent event member <;>
    cases event <;> first | rfl | contradiction

/-- No message occurs in the history before the session. -/
theorem messages_beforeSession {history : List Event}
    (before : ∀ event ∈ history, event.BeforeSession)
    : accepted history = [] ∧ delivered history = [] ∧ freed history = [] := by
  have silent : ∀ event ∈ history, event.ofQueue = false := by
    intro event member
    have fits := before event member
    cases event <;> first | rfl | exact fits.elim
  exact messages_append [] silent

/-- The nodes that flush_messages relies on to be the first ones of the queue. -/
def FlushPc.known : FlushPc → List Addr
  | .start => []
  | .test m | .advance m => if m = 0 then [] else [m]
  | .slot m _ | .invoke m _ | .callback m _ _ _ | .delivered m | .readNext m => [m]
  | .remove m n => if n = 0 then [m] else [m, n]

/-- How many of the first nodes have been passed to the handlers but not been removed. -/
def FlushPc.passed : FlushPc → Nat
  | .start | .test _ | .advance _ => 0
  | .slot .. | .invoke .. | .callback .. | .delivered _ | .readNext _ | .remove .. => 1

/-- The nodes that the event thread relies on, wherever it is. -/
def EventPc.known : EventPc → List Addr
  | .flush _ pc => pc.known
  | _ => []

/-- The messages that the event thread has passed on but not removed. -/
def EventPc.passed : EventPc → Nat
  | .flush _ pc => pc.passed
  | _ => 0

/-- A message that has been passed on is a node that the event thread relies on. -/
theorem EventPc.passed_le {pc : EventPc} {nodes : List Addr} (relied : pc.known <+: nodes)
    : pc.passed ≤ nodes.length := by
  have shorter : pc.passed ≤ pc.known.length := by
    cases pc with
    | flush ev pc =>
        cases pc with
        | remove m n => by_cases null : n = 0 <;> simp [EventPc.known, FlushPc.known, EventPc.passed,
            FlushPc.passed, null]
        | _ => simp [EventPc.known, FlushPc.known, EventPc.passed, FlushPc.passed]
    | _ => simp [EventPc.passed]
  exact shorter.trans relied.length_le

/-- The queue, the event thread and the history agree. -/
structure Delivery (sh : Shared cfg) (pc : EventPc) (nodes : List Addr) : Prop where
  queue : Queue sh nodes
  known : pc.known <+: nodes
  removed
    : (accepted sh.history).map Prod.fst
      = freed sh.history ++ nodes.map (fun a => (sh.k.mem.entry a).1)
  passed : delivered sh.history ++ (nodes.drop pc.passed).map sh.k.mem.entry = accepted sh.history
  numbered : (accepted sh.history).map Prod.fst = List.range (accepted sh.history).length

/-- What most steps leave alone. -/
structure Shared.SameQueue (sh sh' : Shared cfg) : Prop where
  head : sh'.g.gHead = sh.g.gHead
  vplid : sh'.g.gVplid = sh.g.gVplid
  mem : sh'.k.mem = sh.k.mem
  history
    : ∃ events, sh'.history = sh.history ++ events ∧ ∀ event ∈ events, event.ofQueue = false

/-- A step without a message event and without a change of the queue keeps the invariant, if
the new place of the event thread relies on nodes that are there.
-/
theorem Delivery.of_same {sh sh' : Shared cfg} {pc pc' : EventPc} {nodes : List Addr}
    (delivery : Delivery sh pc nodes) (same : sh.SameQueue sh') (known : pc'.known <+: nodes)
    (passed : pc'.passed = pc.passed)
    : Delivery sh' pc' nodes := by
  obtain ⟨head, vplid, mem, events, history, silent⟩ := same
  obtain ⟨acceptedSame, deliveredSame, freedSame⟩ := messages_append sh.history silent
  obtain ⟨⟨chain, live, pool⟩, _, removed, passedOn, numbered⟩ := delivery
  refine ⟨⟨?_, ?_, ?_⟩, known, ?_, ?_, ?_⟩
  · rwa [mem, head]
  · rwa [mem]
  · rwa [mem, vplid]
  · rwa [history, mem, acceptedSame, freedSame]
  · rwa [history, mem, acceptedSame, deliveredSame, passed]
  · rwa [history, acceptedSame]

/-- A Kprintf call keeps the invariant: what the event thread relies on stays in front of
the appended message, and no message is told twice.
-/
theorem Delivery.appends {sh sh' : Shared cfg} {pc : EventPc} {nodes : List Addr} {m : Addr}
    (delivery : Delivery sh pc nodes) (appends : Appends sh sh' nodes m)
    : Delivery sh' pc (nodes ++ [m]) := by
  obtain ⟨_, history, fresh, queue, kept, stamp⟩ := appends
  obtain ⟨_, known, removed, passed, numbered⟩ := delivery
  have entry : sh'.k.mem.entry m = ((accepted sh.history).length, (sh'.k.mem.entry m).2) := by
    rw [← stamp]
  have acceptedNow : accepted sh'.history = accepted sh.history ++ [sh'.k.mem.entry m] := by
    rw [history, entry]
    simp [accepted]
  have deliveredNow : delivered sh'.history = delivered sh.history := by
    rw [history]
    simp [delivered]
  have freedNow : freed sh'.history = freed sh.history := by
    rw [history]
    simp [freed]
  have old : (nodes.drop pc.passed).map sh'.k.mem.entry
      = (nodes.drop pc.passed).map sh.k.mem.entry :=
    List.map_congr_left fun a member => kept a (List.mem_of_mem_drop member)
  have oldStamps : nodes.map (fun a => (sh'.k.mem.entry a).1)
      = nodes.map (fun a => (sh.k.mem.entry a).1) :=
    List.map_congr_left fun a member => congrArg Prod.fst (kept a member)
  refine ⟨queue, known.trans (List.prefix_append _ _), ?_, ?_, ?_⟩
  · simp [acceptedNow, freedNow, removed, oldStamps]
  · rw [acceptedNow, deliveredNow, List.drop_append_of_le_length (EventPc.passed_le known),
      List.map_append, ← List.append_assoc, old, passed]
    rfl
  · simp only [acceptedNow, List.map_append, List.map_cons, List.map_nil, numbered, stamp,
      List.length_append, List.length_singleton, List.range_succ]

/-- A Kprintf call never leaves live memory, and keeps the invariant. -/
theorem Delivery.kprintf {sh : Shared cfg} {pc : EventPc} {nodes : List Addr} {call}
    (delivery : Delivery sh pc nodes)
    : kprintf sh call ≠ .fault
      ∧ ∀ sh', LibKprintf.kprintf sh call = .next sh' → ∃ nodes', Delivery sh' pc nodes' := by
  unfold LibKprintf.kprintf
  split
  · rename_i enabled
    obtain ⟨sh'', ret, handled, effect⟩ := kprintfHandler_appends delivery.queue enabled.2
    simp only [handled, StepResult.ofMemory, StepResult.map, ne_eq, reduceCtorEq, not_false_eq_true,
      StepResult.next.injEq, true_and]
    rintro sh' rfl
    rcases effect with rfl | ⟨m, appends⟩
    · exact ⟨nodes, delivery⟩
    · exact ⟨_, delivery.appends appends⟩
  · simp

/-- An API function leaves the queue alone, except for the Kprintf call it may make. -/
theorem ApiEffect.queue {thread : ThreadRef} {sh sh' : Shared cfg} {pc pc' : ApiPc}
    (effect : ApiEffect thread sh pc sh' pc')
    : sh.SameQueue sh' ∨ ∃ during, kprintf sh during = .next sh' := by
  have quiet {sh' : Shared cfg} (head : sh'.g.gHead = sh.g.gHead)
      (vplid : sh'.g.gVplid = sh.g.gVplid) (mem : sh'.k.mem = sh.k.mem)
      (history : sh'.history = sh.history) : sh.SameQueue sh' :=
    ⟨head, vplid, mem, [], by simp [history], by simp⟩
  cases effect with
  | acquire _ took =>
      obtain ⟨semas, rfl⟩ := takeSema_shape took
      exact Or.inl (quiet rfl rfl rfl rfl)
  | refuse | dipsw | hook => exact Or.inl (quiet rfl rfl rfl rfl)
  | work _ _ ofTable =>
      refine Or.inl ⟨rfl, rfl, rfl, _, rfl, fun event member => ?_⟩
      have table := ofTable event member
      cases event <;> first | rfl | contradiction
  | release =>
      obtain ⟨semas, same⟩ := signalSema_shape sh.k sh.g.gSemid
      exact Or.inl (quiet rfl rfl (by rw [same]) rfl)
  | announce printed =>
      rcases printed with rfl | printed
      · exact Or.inl (quiet rfl rfl rfl rfl)
      · exact Or.inr printed

/-- So does a running API call. -/
theorem apiCallStep_queue {thread : ThreadRef} {call : ApiCall} {sh sh' : Shared cfg}
    {api : ApiPc} {api' : Option ApiPc} {choice : Choice cfg}
    (stepped : apiCallStep thread call sh api choice = .next (sh', api'))
    : sh.SameQueue sh' ∨ ∃ during, kprintf sh during = .next sh' := by
  obtain ⟨ret, rfl, rfl, rfl⟩ | ⟨pc', ran, rfl⟩ := apiCallStep_cases stepped
  · exact Or.inl ⟨rfl, rfl, rfl, [_], rfl, by simp [Event.ofQueue]⟩
  · exact (apiStep_effect ran).queue

/-- A running API call keeps the invariant wherever it runs. -/
theorem Delivery.api {thread : ThreadRef} {call : ApiCall} {sh sh' : Shared cfg}
    {api : ApiPc} {api' : Option ApiPc} {choice : Choice cfg} {pc pc' : EventPc}
    {nodes : List Addr} (delivery : Delivery sh pc nodes)
    (stepped : apiCallStep thread call sh api choice = .next (sh', api'))
    (known : pc'.known = pc.known) (passed : pc'.passed = pc.passed)
    : ∃ nodes', Delivery sh' pc' nodes' := by
  rcases apiCallStep_queue stepped with same | ⟨during, printed⟩
  · exact ⟨nodes, delivery.of_same same (known ▸ delivery.known) passed⟩
  · obtain ⟨nodes', later⟩ := delivery.kprintf.2 sh' printed
    obtain ⟨queue, relied, removed, passedOn, numbered⟩ := later
    exact ⟨nodes', queue, known ▸ relied, removed, passed ▸ passedOn, numbered⟩

-----------------------------------------------------------------------------------------
-- The steps of flush_messages
-----------------------------------------------------------------------------------------

section Flush

variable {thid : Uid} {sh sh' : Shared cfg} {ev : U32} {nodes : List Addr} {m n : Addr}

/-- Nothing but the place of the event thread changes. -/
theorem Shared.SameQueue.refl (sh : Shared cfg) : sh.SameQueue sh :=
  ⟨rfl, rfl, rfl, [], by simp, by simp⟩

/-- An event that says nothing of the messages changes nothing of the queue. -/
theorem sameQueue_note (sh : Shared cfg) {event : Event} (silent : event.ofQueue = false)
    : sh.SameQueue (sh.note event) :=
  ⟨rfl, rfl, rfl, [event], rfl, List.forall_mem_singleton.mpr silent⟩

/-- Nor does the acknowledgement of the event thread. -/
theorem sameQueue_acknowledge (sh : Shared cfg) : sh.SameQueue sh.acknowledge :=
  ⟨rfl, rfl, by simp, [_], rfl, List.forall_mem_singleton.mpr rfl⟩

/-- A node that the event thread relies on alone is the first one of the queue. -/
theorem Delivery.first {pc : EventPc} (delivery : Delivery sh pc nodes) (known : pc.known = [m])
    : ∃ rest, nodes = m :: rest := by
  obtain ⟨rest, split⟩ := delivery.known
  rw [known] at split
  exact ⟨rest, split.symm⟩

/-- So is the node that it is about to remove, and `n` stands behind it unless it is `NULL`. -/
theorem Delivery.removing (delivery : Delivery sh (.flush ev (.remove m n)) nodes)
    : ∃ rest, nodes = m :: rest ∧ (EventPc.flush ev (.advance n)).known <+: rest := by
  have known := delivery.known
  by_cases null : n = 0
  · simp only [EventPc.known, FlushPc.known, null, if_true] at known ⊢
    obtain ⟨rest, same⟩ := known
    exact ⟨rest, same.symm, List.nil_prefix⟩
  · simp only [EventPc.known, FlushPc.known, null, if_false] at known ⊢
    obtain ⟨rest, same⟩ := known
    exact ⟨n :: rest, same.symm, by simp⟩

/-- A flush starts with the first node of the queue, if there is one. -/
theorem Delivery.start (delivery : Delivery sh (.flush ev .start) nodes)
    : Delivery sh (.flush ev (.test sh.g.gHead)) nodes := by
  refine delivery.of_same (.refl sh) ?_ rfl
  cases nodes with
  | nil => simp [EventPc.known, FlushPc.known, delivery.queue.head_eq_null.mpr rfl]
  | cons node rest =>
      obtain ⟨first, nonnull, _⟩ := chain_cons.mp delivery.queue.chain
      simp [EventPc.known, FlushPc.known, first, nonnull]

/-- Passing the first node to the handlers is noted, and the invariant counts it. -/
theorem Delivery.begins (delivery : Delivery sh (.flush ev (.test m)) nodes) (nonnull : m ≠ 0)
    : Delivery
        (sh.note (.deliveryBegins (sh.k.mem.block m).stamp (sh.k.mem.block m).msg.toMsgBody))
        (.flush ev (.slot m 0)) nodes := by
  have known : (EventPc.flush ev (.test m)).known = [m] := by
    simp [EventPc.known, FlushPc.known, nonnull]
  obtain ⟨rest, rfl⟩ := delivery.first known
  obtain ⟨queue, _, removed, passed, numbered⟩ := delivery
  refine ⟨⟨queue.chain, queue.live, queue.pool⟩, ?_, ?_, ?_, ?_⟩
  · simp [EventPc.known, FlushPc.known]
  · simpa [accepted, freed] using removed
  · simpa [accepted, delivered, EventPc.passed, FlushPc.passed, Mem.entry] using passed
  · simpa [accepted] using numbered

/-- A callback may write its message, which has been passed on, and no other. -/
theorem Delivery.returns {i : Nat} {cb : Callback} {res : Int} {len : U16} {msg : List Byte}
    {mem : Mem} {pc' : FlushPc}
    (delivery : Delivery sh (.flush ev (.callback m i cb none)) nodes)
    (stored : sh.k.mem.store m (fun node => { node with len := len, msg := msg }) = some mem)
    (known : pc'.known = [m]) (passed : pc'.passed = 1)
    : Delivery ({ sh with k := { sh.k with mem := mem } }.note (.returned (sh.k.mem.block m).stamp i res))
        (.flush ev pc') nodes := by
  obtain ⟨rest, rfl⟩ := delivery.first rfl
  obtain ⟨live, next, vpl, stamp, others⟩ := Mem.store_text stored
  obtain ⟨queue, _, removed, passedOn, numbered⟩ := delivery
  have entries : rest.map mem.entry = rest.map sh.k.mem.entry := by
    refine List.map_congr_left fun a member => ?_
    have apart : a ≠ m := by
      rintro rfl
      exact (List.nodup_cons.mp queue.chain.nodup).1 member
    simp only [Mem.entry, others a apart]
  have one : (EventPc.flush ev pc').passed = 1 := passed
  refine ⟨⟨?_, ?_, ?_⟩, ?_, ?_, ?_, ?_⟩
  · simpa [next] using queue.chain
  · simpa [live] using queue.live
  · simpa [vpl] using queue.pool
  · simp [EventPc.known, known]
  · simpa [accepted, freed, Mem.entry, stamp] using removed
  · rw [one]
    simpa [accepted, delivered, EventPc.passed, FlushPc.passed, entries] using passedOn
  · simpa [accepted] using numbered

/-- Behind the first node of the queue stands the next one, if there is one. -/
theorem Delivery.reads (delivery : Delivery sh (.flush ev (.readNext m)) nodes)
    : Delivery sh (.flush ev (.remove m (sh.k.mem.next m))) nodes := by
  refine delivery.of_same (.refl sh) ?_ rfl
  obtain ⟨rest, rfl⟩ := delivery.first rfl
  obtain ⟨_, _, tail⟩ := chain_cons.mp delivery.queue.chain
  cases rest with
  | nil => simp [EventPc.known, FlushPc.known, chain_nil.mp tail]
  | cons node rest =>
      obtain ⟨next, nonnull, _⟩ := chain_cons.mp tail
      simp [EventPc.known, FlushPc.known, next, nonnull]

/-- Removing the first node frees exactly its block, and leaves the rest of the queue. A
stale `n` is `NULL` and nothing is relied on; else `n` is the new first node.
-/
theorem Delivery.removes {sh' : Shared cfg} {ret : Int}
    (delivery : Delivery sh (.flush ev (.remove m n)) nodes)
    (pool : sh.k.vpls sh.g.gVplid = true) (removed : removeDeleteMsg sh m = some (sh', ret))
    : ∃ rest, nodes = m :: rest ∧ Removes sh sh' rest m ∧ Delivery sh' (.flush ev (.advance n)) rest := by
  obtain ⟨rest, rfl, known⟩ := delivery.removing
  have queue : Queue sh ([] ++ m :: rest) := delivery.queue
  obtain ⟨after, done, removes⟩ := removeDeleteMsg_removes queue pool
  rw [removed, Option.some.injEq, Prod.mk.injEq] at done
  obtain ⟨rfl, _⟩ := done
  refine ⟨rest, rfl, removes, removes.queue, known, ?_, ?_, ?_⟩
  · have stamps : rest.map (fun a => (sh'.k.mem.entry a).1)
        = rest.map (fun a => (sh.k.mem.entry a).1) :=
      List.map_congr_left fun a member => congrArg Prod.fst (removes.kept a member)
    have earlier := delivery.removed
    rw [removes.history]
    simpa [accepted, freed, stamps] using earlier
  · have entries : rest.map sh'.k.mem.entry = rest.map sh.k.mem.entry :=
      List.map_congr_left removes.kept
    have earlier := delivery.passed
    rw [removes.history]
    simpa [accepted, delivered, EventPc.passed, FlushPc.passed, entries] using earlier
  · have earlier := delivery.numbered
    rw [removes.history]
    simpa [accepted] using earlier

/-- Every step of flush_messages keeps the invariant, by cases of its program point. -/
theorem Delivery.flush {pc : FlushPc} {pc' : Option FlushPc} {choice : Choice cfg}
    (delivery : Delivery sh (.flush ev pc) nodes) (pool : sh.k.vpls sh.g.gVplid = true)
    (stepped : flushStep thid sh pc choice = .next (sh', pc'))
    : ∃ nodes', Delivery sh' (pc'.elim (.signal ev) (.flush ev)) nodes' := by
  cases pc with
  | start =>
      simp only [flushStep, Choice.onGo_eq_next, StepResult.next.injEq, Prod.mk.injEq] at stepped
      obtain ⟨_, rfl, rfl⟩ := stepped
      exact ⟨nodes, delivery.start⟩
  | test m =>
      simp only [flushStep, Choice.onGo_eq_next, StepResult.next.injEq] at stepped
      obtain ⟨_, stepped⟩ := stepped
      split at stepped <;> cases stepped
      · exact ⟨nodes, delivery.of_same (.refl sh) List.nil_prefix rfl⟩
      · rename_i nonnull
        exact ⟨nodes, delivery.begins nonnull⟩
  | slot m i =>
      simp only [flushStep, Choice.onGo_eq_next, StepResult.next.injEq] at stepped
      obtain ⟨_, stepped⟩ := stepped
      split at stepped
      · split at stepped <;> cases stepped <;>
          exact ⟨nodes, delivery.of_same (.refl sh) delivery.known rfl⟩
      · cases stepped
        exact ⟨nodes, delivery.of_same (.refl sh) delivery.known rfl⟩
  | invoke m i =>
      simp only [flushStep, Choice.onGo_eq_next] at stepped
      obtain ⟨_, stepped⟩ := stepped
      split at stepped
      · split at stepped
        · cases stepped
          exact ⟨nodes, delivery.of_same (sameQueue_note sh rfl) delivery.known rfl⟩
        · contradiction
      · contradiction
  | callback m i cb nested =>
      cases flushStep_effect stepped with
      | read place | observe _ place => simp [FlushPc.inCallback] at place
      | @callbackReturns _ _ _ res _ _ mem stored =>
          refine ⟨nodes, delivery.returns stored ?_ ?_⟩ <;> split <;> rfl
      | callbackCalls => exact ⟨nodes, delivery.of_same (sameQueue_note sh rfl) delivery.known rfl⟩
      | nested called => exact delivery.api called rfl rfl
  | delivered m =>
      simp only [flushStep, Choice.onGo_eq_next, StepResult.next.injEq, Prod.mk.injEq] at stepped
      obtain ⟨_, rfl, rfl⟩ := stepped
      exact ⟨nodes, delivery.of_same (sameQueue_note sh rfl) delivery.known rfl⟩
  | readNext m =>
      simp only [flushStep, Choice.onGo_eq_next, StepResult.map_eq_next, Prod.mk.injEq,
        StepResult.ofMemory_eq_next] at stepped
      obtain ⟨_, n, read, rfl, rfl⟩ := stepped
      obtain ⟨rest, rfl⟩ := delivery.first rfl
      have live : m ∈ sh.k.mem.live := (delivery.queue.live m).mpr (by simp)
      rw [Mem.loadNext_live live] at read
      cases read
      exact ⟨_, delivery.reads⟩
  | remove m n =>
      simp only [flushStep, Choice.onGo_eq_next, StepResult.map_eq_next, Prod.exists,
        StepResult.ofMemory_eq_next, Prod.mk.injEq] at stepped
      obtain ⟨_, after, ret, removed, rfl, rfl⟩ := stepped
      obtain ⟨rest, _, _, later⟩ := delivery.removes pool removed
      exact ⟨rest, later⟩
  | advance n =>
      simp only [flushStep, Choice.onGo_eq_next, StepResult.next.injEq, Prod.mk.injEq] at stepped
      obtain ⟨_, rfl, rfl⟩ := stepped
      exact ⟨nodes, delivery.of_same (.refl sh) delivery.known rfl⟩

/-- No step of flush_messages leaves live memory: what it dereferences is the first node of
the queue, and a tested slot is still occupied.
-/
theorem Delivery.flush_ne_fault {pc : FlushPc} {choice : Choice cfg}
    (delivery : Delivery sh (.flush ev pc) nodes) (pool : sh.k.vpls sh.g.gVplid = true)
    (ready : ∀ m i, pc = .invoke m i → sh.g.callbackAt i ≠ none)
    : flushStep thid sh pc choice ≠ .fault := by
  have live (m : Addr) (known : (EventPc.flush ev pc).known = [m]) : m ∈ sh.k.mem.live := by
    obtain ⟨rest, rfl⟩ := delivery.first known
    exact (delivery.queue.live m).mpr (by simp)
  intro fault
  cases pc with
  | invoke m i =>
      simp only [flushStep, Choice.onGo_eq_fault] at fault
      obtain ⟨_, fault⟩ := fault
      split at fault
      · simp [live m rfl] at fault
      · rename_i empty
        have occupied := ready m i rfl
        simp only [Globals.callbackAt] at occupied
        cases slot : sh.g.gHandlers[i]? with
        | none => simp [slot] at occupied
        | some handler =>
            obtain ⟨cb, arg⟩ := handler
            cases cb with
            | none => simp [slot] at occupied
            | some cb => exact empty cb arg slot
  | callback m i cb nested =>
      cases nested with
      | none =>
          simp only [flushStep, StepResult.map_eq_fault, callbackStep] at fault
          split at fault
          · split at fault
            · contradiction
            · simp [Mem.store, live m rfl] at fault
          · split at fault <;> simp at fault
          · contradiction
      | some running =>
          obtain ⟨call, api⟩ := running
          simp only [flushStep, StepResult.map_eq_fault] at fault
          obtain ⟨during, fault⟩ := apiCallStep_fault fault
          exact delivery.kprintf.1 fault
  | readNext m =>
      simp [flushStep, Mem.loadNext_live (live m rfl)] at fault
  | remove m n =>
      obtain ⟨rest, rfl, _⟩ := delivery.removing
      have queue : Queue sh ([] ++ m :: rest) := delivery.queue
      obtain ⟨after, done, _⟩ := removeDeleteMsg_removes queue pool
      simp [flushStep, done] at fault
  | start | test | slot | delivered | advance => simp [flushStep] at fault

end Flush

-----------------------------------------------------------------------------------------
-- The whole session
-----------------------------------------------------------------------------------------

/-- The event thread keeps the invariant, by cases of its effect. -/
theorem Delivery.event {thid : Uid} {sh sh' : Shared cfg} {pc pc' : EventPc} {nodes : List Addr}
    (delivery : Delivery sh pc nodes) (pool : sh.k.vpls sh.g.gVplid = true)
    (effect : EventEffect thid sh pc sh' pc')
    : ∃ nodes', Delivery sh' pc' nodes' := by
  have quiet {sh' : Shared cfg} (head : sh'.g = sh.g) (mem : sh'.k.mem = sh.k.mem)
      (history : sh'.history = sh.history) : sh.SameQueue sh' :=
    ⟨by rw [head], by rw [head], mem, [], by simp [history], by simp⟩
  have outside (pc : EventPc) (free : pc.free = true) : pc.known = [] ∧ pc.passed = 0 := by
    cases pc <;> first | exact ⟨rfl, rfl⟩ | contradiction
  cases effect with
  | move move =>
      obtain ⟨free, free'⟩ := move.free
      obtain ⟨_, passed⟩ := outside _ free
      obtain ⟨known', passed'⟩ := outside _ free'
      exact ⟨nodes, delivery.of_same (.refl sh) (known' ▸ List.nil_prefix) (by rw [passed, passed'])⟩
  | callRegister =>
      exact ⟨nodes, delivery.of_same (sameQueue_note sh rfl) List.nil_prefix rfl⟩
  | @register api sh' api' choice stepped => cases api' <;> exact delivery.api stepped rfl rfl
  | wake took =>
      obtain ⟨evflags, rfl⟩ := takeEventFlag_shape took
      exact ⟨nodes, delivery.of_same (quiet rfl rfl rfl) List.nil_prefix rfl⟩
  | acquire took =>
      obtain ⟨semas, rfl⟩ := takeSema_shape took
      exact ⟨nodes, delivery.of_same (quiet rfl rfl rfl) List.nil_prefix rfl⟩
  | flush stepped => exact delivery.flush pool stepped
  | release =>
      obtain ⟨semas, same⟩ := signalSema_shape sh.k sh.g.gSemid
      exact ⟨nodes, delivery.of_same (quiet rfl (by rw [same]) rfl) List.nil_prefix rfl⟩
  | resend => exact ⟨nodes, delivery.of_same (quiet rfl (by simp) rfl) List.nil_prefix rfl⟩
  | stopOk => exact ⟨nodes, delivery.of_same (sameQueue_acknowledge sh) List.nil_prefix rfl⟩

/-- A client keeps the invariant. -/
theorem Delivery.client {n : Nat} {sh sh' : Shared cfg} {pc : EventPc} {place place' : ClientPc}
    {nodes : List Addr} (delivery : Delivery sh pc nodes)
    (effect : ClientEffect n sh place sh' place')
    : ∃ nodes', Delivery sh' pc nodes' := by
  cases effect with
  | enter | leave =>
      exact ⟨nodes, delivery.of_same (sameQueue_note sh rfl) delivery.known rfl⟩
  | run stepped =>
      rcases (apiStep_effect stepped).queue with same | ⟨during, printed⟩
      · exact ⟨nodes, delivery.of_same same delivery.known rfl⟩
      · exact delivery.kprintf.2 _ printed

/-- _stop keeps the invariant. -/
theorem Delivery.stop {sh sh' : Shared cfg} {pc : EventPc} {place place' : LoaderPc}
    {choice : Choice cfg} {nodes : List Addr} (delivery : Delivery sh pc nodes)
    (effect : StopEffect sh place choice sh' place')
    : ∃ nodes', Delivery sh' pc nodes' := by
  have quiet {sh' : Shared cfg} (head : sh'.g.gHead = sh.g.gHead)
      (vplid : sh'.g.gVplid = sh.g.gVplid) (mem : sh'.k.mem = sh.k.mem)
      (history : sh'.history = sh.history) : ∃ nodes', Delivery sh' pc nodes' :=
    ⟨nodes, delivery.of_same ⟨head, vplid, mem, [], by simp [history], by simp⟩ delivery.known rfl⟩
  cases effect with
  | enter | setStopped | giveUp => exact quiet rfl rfl rfl rfl
  | announce printed =>
      rcases printed with rfl | ⟨during, printed⟩
      · exact quiet rfl rfl rfl rfl
      · exact delivery.kprintf.2 _ printed
  | unhook =>
      exact ⟨nodes, delivery.of_same ⟨rfl, rfl, rfl, [_], rfl,
        List.forall_mem_singleton.mpr rfl⟩ delivery.known rfl⟩
  | post => exact quiet rfl rfl (by simp) rfl
  | acknowledged took =>
      obtain ⟨evflags, rfl⟩ := takeEventFlag_shape took
      exact quiet rfl rfl rfl rfl

/-- No thread has left live memory, dispatch is at occupied slots only, and the queue, the
event thread and the history agree.
-/
structure Delivering (s : State cfg) : Prop where
  running : s.crashed = false
  ready : SlotReady s
  delivery : ∃ nodes, Delivery s.sh (s.threads s.sh.g.gThid) nodes

/-- While nothing has been accepted the queue is empty. -/
theorem delivery_empty {sh : Shared cfg} {pc : EventPc} (head : sh.g.gHead = 0)
    (live : sh.k.mem.live = ∅) (history : ∀ event ∈ sh.history, event.BeforeSession)
    (early : pc.early = true)
    : Delivery sh pc [] := by
  obtain ⟨none, nobody, nothing⟩ := messages_beforeSession history
  have known : pc.known = [] := by
    cases pc <;> simp_all [EventPc.early, EventPc.known]
  refine ⟨⟨chain_nil.mpr head, by simp [live], by simp⟩, by simp [known], ?_, ?_, ?_⟩ <;>
    simp [none, nobody, nothing]

/-- A fresh session has accepted nothing. -/
theorem Fresh.delivering {s : State cfg} (fresh : Fresh s) : Delivering s where
  running := fresh.running
  ready := by
    intro thid ev m i place
    by_cases same : thid = s.sh.g.gThid
    · subst same
      rcases fresh.polling with polls | polls <;> simp [polls] at place
    · simp [fresh.others thid same] at place
  delivery := by
    refine ⟨[], delivery_empty fresh.head fresh.live fresh.history ?_⟩
    rcases fresh.polling with polls | polls <;> simp [polls, EventPc.early]

/-- Every step in the session keeps the agreement, and none leaves live memory. -/
theorem Delivering.step {s t : State cfg} {action : Action cfg} (delivering : Delivering s)
    (session : Session s) (exclusion : Exclusion s) (inside : s.loader.inSession = true)
    (single : SingleSession s action) (stepped : s.step action = some t)
    : Delivering t := by
  have ready := delivering.ready.step session exclusion inside single stepped
  obtain ⟨running, ready', nodes, delivery⟩ := delivering
  cases State.step_cases stepped with
  | crash faults =>
      exfalso
      cases action with
      | kprintf call => exact delivery.kprintf.1 faults
      | event thid choice =>
          by_cases self : thid = s.sh.g.gThid
          · subst self
            simp only [State.Faults] at faults
            cases place : s.threads s.sh.g.gThid with
            | flush ev pc =>
                rw [place] at delivery faults
                simp only [eventStep, StepResult.map_eq_fault] at faults
                refine delivery.flush_ne_fault session.vpl ?_ faults
                rintro m i rfl
                exact ready' _ ev m i place
            | register api =>
                simp only [place, eventStep, StepResult.map_eq_fault] at faults
                obtain ⟨during, faults⟩ := apiCallStep_fault faults
                exact delivery.kprintf.1 faults
            | detect t =>
                simp only [place, eventStep] at faults
                split at faults
                · split at faults <;> simp at faults
                · simp at faults
            | _ => simp [place, eventStep] at faults
          · simp [State.Faults, session.others thid self, eventStep] at faults
      | client n choice =>
          simp only [State.Faults, clientStep] at faults
          split at faults
          · split at faults <;> simp at faults
          · obtain ⟨during, faults⟩ := apiCallStep_fault (StepResult.map_eq_fault.mp faults)
            exact delivery.kprintf.1 faults
      | loader choice =>
          obtain ⟨during, faults⟩ := loaderStep_fault faults inside
          exact delivery.kprintf.1 faults
      | overRegister => exact faults
  | kprintf printed =>
      refine ⟨running, ready, ?_⟩
      have gThid := (kprintf_frame printed).gThid
      simpa only [gThid] using delivery.kprintf.2 _ printed
  | @event thid choice sh' pc' ran =>
      refine ⟨running, ready, ?_⟩
      have effect := eventStep_effect ran
      obtain rfl := session.runs ran
      have gThid := effect.frame.gThid
      simpa only [gThid, Function.update_self] using delivery.event session.vpl effect
  | @client n choice sh' pc' ran =>
      refine ⟨running, ready, ?_⟩
      have effect := clientStep_effect ran
      have gThid := effect.frame.gThid
      simpa only [gThid] using delivery.client effect
  | @loader choice sh' threads' loader' ran =>
      refine ⟨running, ready, ?_⟩
      obtain ⟨effect, rfl⟩ := loaderStep_effect ran inside (not_start single inside)
      have gThid := effect.frame_gThid
      simpa only [gThid] using delivery.stop effect
  | overRegister =>
      exact ⟨running, ready, nodes, delivery.of_same ⟨rfl, rfl, rfl, [], by simp, by simp⟩
        delivery.known rfl⟩

/-- The agreement holds in every state of the session. -/
theorem delivering {s : State cfg} (reach : (machine cfg).Reachable SingleSession s)
    (inside : s.loader.inSession = true)
    : Delivering s :=
  session_invariant (fun _ _ single => single) (fun _ _ fresh => fresh.delivering)
    (fun _ _ _ reach inside delivering single stepped =>
      delivering.step (session reach inside) (exclusion reach inside) inside single stepped)
    reach inside

/-- In every reachable state nothing has crashed, and the queue, the event thread and the
history agree.
-/
theorem delivery {s : State cfg} (reach : (machine cfg).Reachable SingleSession s)
    : s.crashed = false ∧ ∃ nodes, Delivery s.sh (s.threads s.sh.g.gThid) nodes := by
  by_cases inside : s.loader.inSession = true
  · have holds := delivering reach inside
    exact ⟨holds.running, holds.delivery⟩
  · have before := (starting reach (by simpa using inside)).before
    exact ⟨before.running, [], delivery_empty before.head before.live before.history
      (before.early _)⟩

end LibKprintf
