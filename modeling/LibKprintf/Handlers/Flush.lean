import LibKprintf.Handlers.Callbacks
import LibKprintf.Handlers.Refinement
import LibKprintf.Queue.Delivery

/-! A flush_messages that nobody interferes with passes every queued message to the handlers of
the table, one after the other, and empties the queue.
-/

namespace LibKprintf

open Foundation

variable {cfg : Config} {σ : Type}

/-- The used slots from slot `i` on. -/
def Globals.usedFrom (g : Globals cfg) (i : Nat) : List (Nat × Callback × U32) :=
  (List.range' i (cfg.kprintfMaxHandlers - i)).filterMap (fun i => (g.pairAt i).map (i, ·))

/-- All slots are those from the first one on. -/
theorem Globals.usedFrom_zero (g : Globals cfg) : g.usedFrom 0 = g.used := by
  simp [usedFrom, used, List.range_eq_range']

/-- A slot comes before the later ones, if it is used. -/
theorem Globals.usedFrom_next {g : Globals cfg} {i : Nat} (bound : i < cfg.kprintfMaxHandlers)
    : g.usedFrom i = ((g.pairAt i).map (i, ·)).toList ++ g.usedFrom (i + 1) := by
  have left : cfg.kprintfMaxHandlers - i = cfg.kprintfMaxHandlers - (i + 1) + 1 := by omega
  simp only [usedFrom, left, List.range'_succ, List.filterMap_cons]
  cases g.pairAt i <;> rfl

/-- There is no slot past the end of the table. -/
theorem Globals.usedFrom_end {g : Globals cfg} {i : Nat} (out : ¬ i < cfg.kprintfMaxHandlers)
    : g.usedFrom i = [] := by
  have left : cfg.kprintfMaxHandlers - i = 0 := by omega
  simp [usedFrom, left]

/-- A slot with a pair holds its callback and its argument. -/
theorem pairAt_eq_some {g : Globals cfg} {i : Nat} {cb : Callback} {arg : U32}
    : g.pairAt i = some (cb, arg) ↔ g.gHandlers[i]? = some ⟨some cb, arg⟩ := by
  unfold Globals.pairAt
  cases g.gHandlers[i]? with
  | none => simp
  | some handler => cases handler; simp [Option.map_eq_some_iff, and_comm]

/-- What passing the message at `m` to a handler leaves alone. -/
structure Passed (sh sh' : Shared cfg) (m : Addr) : Prop where
  g : sh'.g = sh.g
  vpls : sh'.k.vpls = sh.k.vpls
  mem : sh.k.mem.Rewritten sh'.k.mem m
  freed : freed sh'.history = freed sh.history

/-- A step that notes an event, but no freed block. -/
theorem Passed.note {m : Addr} (sh : Shared cfg) {event : Event}
    (keeps : ∀ stamp, event ≠ .freed stamp)
    : Passed sh (sh.note event) m := by
  refine ⟨rfl, rfl, ⟨rfl, rfl, fun _ => rfl, fun _ => rfl, fun _ _ => rfl⟩, ?_⟩
  cases event <;> simp_all [LibKprintf.freed]

/-- What one handler and what the next one leaves alone. -/
theorem Passed.trans {sh sh' sh'' : Shared cfg} {m : Addr} (first : Passed sh sh' m)
    (second : Passed sh' sh'' m)
    : Passed sh sh'' m where
  g := second.g.trans first.g
  vpls := second.vpls.trans first.vpls
  mem :=
    { live := second.mem.live.trans first.mem.live
      next := second.mem.next.trans first.mem.next
      vpl := fun b => (second.mem.vpl b).trans (first.mem.vpl b)
      stamp := fun b => (second.mem.stamp b).trans (first.mem.stamp b)
      others := fun b other => (second.mem.others b other).trans (first.mem.others b other) }
  freed := second.freed.trans first.freed

section Flushes

variable {behaviour : Behaviour σ} {thid : Uid}

/-- A step that calls no callback is the first one of the rest. -/
theorem Flushing.Leads.go {sh sh' : Shared cfg} {pc : FlushPc} {pc' : Option FlushPc} {own : σ}
    {trace : List CallRecord} {last : Flushing cfg σ} (place : pc.inCallback = false)
    (stepped : flushStep thid sh pc .go = .next (sh', pc'))
    (rest : Flushing.Leads behaviour thid ⟨sh', pc', own, trace⟩ last)
    : Flushing.Leads behaviour thid ⟨sh, some pc, own, trace⟩ last := by
  refine rest.head ?_
  cases pc with
  | callback => simp [FlushPc.inCallback] at place
  | _ => simp [Flushing.step, Flushing.advance, stepped]

/-- A callback stores what it leaves in its message. -/
theorem flushStep_reply (thid : Uid) {sh : Shared cfg} {m : Addr} (live : m ∈ sh.k.mem.live)
    (i : Nat) (cb : Callback) {reply : Reply}
    (capacity : reply.msg.length = (sh.k.mem.block m).msg.msg.length)
    : ∃ sh', flushStep thid sh (.callback m i cb none) (.ret reply.res reply.len reply.msg)
          = .next (sh', some (if reply.res = kprintfMsgStop then .delivered m else .slot m (i + 1)))
        ∧ Passed sh sh' m
        ∧ (sh'.k.mem.block m).msg.toMsgBody
          = (sh.k.mem.block m).msg.toMsgBody.leave reply := by
  obtain ⟨mem, stored⟩ : ∃ mem, sh.k.mem.store m
      (fun node => { node with len := reply.len, msg := reply.msg }) = some mem := by
    simp [Mem.store, live]
  refine ⟨{ sh with k := { sh.k with mem := mem } }.note
    (.returned (sh.k.mem.block m).stamp i reply.res), ?_, ?_, ?_⟩
  · simp [flushStep, callbackStep, capacity, stored]
  · refine ⟨rfl, rfl, Mem.store_text stored, ?_⟩
    simp [LibKprintf.freed]
  · simp only [Mem.store, live, if_true, Option.some.injEq] at stored
    subst stored
    simp [MsgBody.leave]

/-- The slots from `i` on are passed over, or their handlers called; by induction on the number
of slots that are left.
-/
theorem leads_delivered (behaviour : Behaviour σ) (thid : Uid) {sh : Shared cfg} {m : Addr}
    (live : m ∈ sh.k.mem.live) (i : Nat) (own : σ) (trace : List CallRecord)
    : ∃ sh', Passed sh sh' m
        ∧ Flushing.Leads behaviour thid ⟨sh, some (.slot m i), own, trace⟩
            ⟨sh', some (.delivered m),
              (dispatch behaviour (sh.g.usedFrom i) own (sh.k.mem.block m).msg.toMsgBody).1,
              trace ++ (dispatch behaviour (sh.g.usedFrom i) own
                (sh.k.mem.block m).msg.toMsgBody).2⟩ := by
  induction left : cfg.kprintfMaxHandlers - i generalizing sh i own trace with
  | zero =>
      have out : ¬ i < cfg.kprintfMaxHandlers := by omega
      refine ⟨sh, ⟨rfl, rfl, ⟨rfl, rfl, fun _ => rfl, fun _ => rfl, fun _ _ => rfl⟩, rfl⟩, ?_⟩
      have returned : flushStep thid sh (.slot m i) .go = .next (sh, some (.delivered m)) := by
        simp [flushStep, out]
      refine .go rfl returned ?_
      rw [Globals.usedFrom_end out, dispatch, List.append_nil]
      exact .refl
  | succ n ih =>
      have bound : i < cfg.kprintfMaxHandlers := by omega
      cases pair : sh.g.pairAt i with
      | none =>
          obtain ⟨sh', passed, rest⟩ := ih live (i + 1) own trace (by omega)
          refine ⟨sh', passed, .go rfl ?_ (by simpa [Globals.usedFrom_next bound, pair] using rest)⟩
          simp [flushStep, bound, Globals.pairAt_eq_none.mp pair]
      | some entry =>
          obtain ⟨cb, arg⟩ := entry
          have held := pairAt_eq_some.mp pair
          have used : ¬ sh.g.callbackAt i = none := by simp [Globals.callbackAt, held]
          let body := (sh.k.mem.block m).msg.toMsgBody
          let called := sh.note (.invoked (sh.k.mem.block m).stamp i cb arg)
          let replied := behaviour.call own cb (body.args arg)
          have args : called.argsAt m i = body.args arg := by
            simp [called, Shared.argsAt, held, body]
          have inPool : m ∈ called.k.mem.live := live
          obtain ⟨sh', stepped, passed, left'⟩ := flushStep_reply thid inPool i cb
            (behaviour.capacity own cb (body.args arg))
          have through : Passed sh sh' m := (Passed.note sh (by simp)).trans passed
          have reaches {last : Flushing cfg σ}
              (rest : Flushing.Leads behaviour thid
                ⟨sh', some (if replied.2.res = kprintfMsgStop then .delivered m
                  else .slot m (i + 1)), replied.1, trace ++ [⟨i, cb, body.args arg⟩]⟩ last) :
              Flushing.Leads behaviour thid ⟨sh, some (.slot m i), own, trace⟩ last := by
            have invoked : flushStep thid sh (.invoke m i) .go
                = .next (called, some (.callback m i cb none)) := by
              simp [flushStep, held, live, called]
            refine .go rfl (by simp [flushStep, bound, used]) (.go rfl invoked (rest.head ?_))
            simp only [Flushing.step, args]
            rw [stepped]
            rfl
          have slots : sh.g.usedFrom i = (i, cb, arg) :: sh.g.usedFrom (i + 1) := by
            simp [Globals.usedFrom_next bound, pair]
          by_cases stop : replied.2.res = kprintfMsgStop
          · refine ⟨sh', through, reaches ?_⟩
            rw [if_pos stop, slots, dispatch_stop _ stop]
            exact .refl
          · have live' : m ∈ sh'.k.mem.live := by
              rw [through.mem.live]
              exact live
            obtain ⟨last, passed', rest⟩ := ih live' (i + 1) replied.1
              (trace ++ [⟨i, cb, body.args arg⟩]) (by omega)
            refine ⟨last, through.trans passed', reaches ?_⟩
            rw [if_neg stop, slots, dispatch_pass _ stop]
            rw [through.g, left', List.append_assoc] at rest
            exact rest

/-- What holds between two messages: the queue has these nodes, the messages in them are as in
the first state, and so are the globals but for the head.
-/
structure Between (sh sh' : Shared cfg) (nodes : List Addr) : Prop where
  queue : Queue sh' nodes
  handlers : sh'.g.gHandlers = sh.g.gHandlers
  vplid : sh'.g.gVplid = sh.g.gVplid
  vpls : sh'.k.vpls = sh.k.vpls
  kept : ∀ a ∈ nodes, sh'.k.mem.entry a = sh.k.mem.entry a

/-- A message that has been passed on is still the first one of the queue. -/
theorem Passed.queue {sh sh' : Shared cfg} {m : Addr} {nodes : List Addr} (passed : Passed sh sh' m)
    (queue : Queue sh nodes)
    : Queue sh' nodes where
  chain := by
    rw [passed.mem.next, passed.g]
    exact queue.chain
  live := fun a => by
    rw [passed.mem.live]
    exact queue.live a
  pool := fun a member => by
    rw [passed.mem.vpl, passed.g]
    exact queue.pool a member

/-- remove_delete_msg leaves the handlers and the pool alone. -/
theorem removeDeleteMsg_keeps {sh sh' : Shared cfg} {m : Addr} {ret : Int}
    (removed : removeDeleteMsg sh m = some (sh', ret))
    : sh'.g.gHandlers = sh.g.gHandlers ∧ sh'.g.gVplid = sh.g.gVplid ∧ sh'.k.vpls = sh.k.vpls := by
  obtain ⟨head, mem, events, _, rfl⟩ := removeDeleteMsg_effect removed
  exact ⟨rfl, rfl, rfl⟩

/-- One message is passed to the handlers and removed. -/
theorem leads_next (behaviour : Behaviour σ) (thid : Uid) {sh : Shared cfg} {m : Addr}
    {rest : List Addr} (queue : Queue sh (m :: rest)) (pool : sh.k.vpls sh.g.gVplid = true)
    (own : σ) (trace : List CallRecord)
    : ∃ sh', Between sh sh' rest
        ∧ freed sh'.history = freed sh.history ++ [(sh.k.mem.entry m).1]
        ∧ Flushing.Leads behaviour thid ⟨sh, some (.test m), own, trace⟩
            ⟨sh', some (.test sh'.g.gHead),
              (dispatch behaviour sh.g.used own (sh.k.mem.block m).msg.toMsgBody).1,
              trace ++ (dispatch behaviour sh.g.used own (sh.k.mem.block m).msg.toMsgBody).2⟩ := by
  obtain ⟨_, nonnull, _⟩ := chain_cons.mp queue.chain
  let begun := sh.note (.deliveryBegins (sh.k.mem.block m).stamp (sh.k.mem.block m).msg.toMsgBody)
  have live : m ∈ begun.k.mem.live := (queue.live m).mpr (by simp)
  obtain ⟨called, passed, dispatched⟩ := leads_delivered behaviour thid live 0 own trace
  let ended := called.note (.deliveryEnds (called.k.mem.block m).stamp)
  have through : Passed sh ended m :=
    ((Passed.note sh (by simp)).trans passed).trans (Passed.note called (by simp))
  have queue' : Queue ended ([] ++ m :: rest) := through.queue queue
  have pool' : ended.k.vpls ended.g.gVplid = true := by
    rw [through.vpls, through.g]
    exact pool
  obtain ⟨sh', removed, removes⟩ := removeDeleteMsg_removes queue' pool'
  obtain ⟨handlers, vplid, vpls⟩ := removeDeleteMsg_keeps removed
  have head : ended.k.mem.next m = sh'.g.gHead :=
    (chain_cons.mp queue'.chain).2.2.head_unique removes.queue.chain
  have stamp : (ended.k.mem.entry m).1 = (sh.k.mem.entry m).1 := through.mem.stamp m
  refine ⟨sh', ⟨removes.queue, ?_, ?_, ?_, fun a member => ?_⟩, ?_, ?_⟩
  · rw [handlers, through.g]
  · rw [vplid, through.g]
  · rw [vpls, through.vpls]
  · have other : a ≠ m := by
      rintro rfl
      exact (List.nodup_cons.mp queue.chain.nodup).1 member
    rw [removes.kept a member, Mem.entry, through.mem.others a other]
    rfl
  · rw [removes.history, ← through.freed, ← stamp]
    simp [LibKprintf.freed]
  · have tested : flushStep thid sh (.test m) .go = .next (begun, some (.slot m 0)) := by
      simp [flushStep, nonnull, begun]
    have next : flushStep thid ended (.readNext m) .go
        = .next (ended, some (.remove m sh'.g.gHead)) := by
      have link := Mem.loadNext_live ((queue'.live m).mpr (by simp))
      simp [flushStep, link, head]
    have freed : flushStep thid ended (.remove m sh'.g.gHead) .go
        = .next (sh', some (.advance sh'.g.gHead)) := by
      simp [flushStep, removed]
    have noted : flushStep thid called (.delivered m) .go = .next (ended, some (.readNext m)) := rfl
    have advanced : flushStep thid sh' (.advance sh'.g.gHead) .go
        = .next (sh', some (.test sh'.g.gHead)) :=
      rfl
    rw [← Globals.usedFrom_zero]
    refine Flushing.Leads.go rfl tested (dispatched.trans (Flushing.Leads.go rfl noted ?_))
    refine Flushing.Leads.go rfl next (Flushing.Leads.go rfl freed ?_)
    exact Flushing.Leads.go rfl advanced .refl

/-- All messages of a queue are passed to the handlers and removed; by induction on the queue. -/
theorem leads_returned (behaviour : Behaviour σ) (thid : Uid) {sh : Shared cfg}
    {nodes : List Addr} (queue : Queue sh nodes) (pool : sh.k.vpls sh.g.gVplid = true)
    (own : σ) (trace : List CallRecord)
    : ∃ sh', Between sh sh' []
        ∧ freed sh'.history = freed sh.history ++ nodes.map (fun a => (sh.k.mem.entry a).1)
        ∧ Flushing.Leads behaviour thid ⟨sh, some (.test sh.g.gHead), own, trace⟩
            ⟨sh', none,
              (dispatchAll behaviour sh.g.used (nodes.map fun a => (sh.k.mem.entry a).2) own).1,
              trace
                ++ (dispatchAll behaviour sh.g.used
                  (nodes.map fun a => (sh.k.mem.entry a).2) own).2⟩ := by
  induction nodes generalizing sh own trace with
  | nil =>
      have empty : sh.g.gHead = 0 := queue.head_eq_null.mpr rfl
      have returned : flushStep thid sh (.test sh.g.gHead) .go = .next (sh, none) := by
        simp [flushStep, empty]
      refine ⟨sh, ⟨queue, rfl, rfl, rfl, by simp⟩, by simp, Flushing.Leads.go rfl returned ?_⟩
      rw [List.map_nil, dispatchAll, List.append_nil]
      exact .refl
  | cons m rest ih =>
      obtain ⟨first, _⟩ := chain_cons.mp queue.chain
      obtain ⟨middle, between, freed, one⟩ := leads_next behaviour thid queue pool own trace
      have pool' : middle.k.vpls middle.g.gVplid = true := by
        rw [between.vplid, between.vpls]
        exact pool
      let passed := dispatch behaviour sh.g.used own (sh.k.mem.block m).msg.toMsgBody
      obtain ⟨last, between', freed', others⟩ :=
        ih between.queue pool' passed.1 (trace ++ passed.2)
      have used : middle.g.used = sh.g.used := by
        simp only [Globals.used, Globals.pairAt, between.handlers]
      have bodies : rest.map (fun a => (middle.k.mem.entry a).2)
          = rest.map (fun a => (sh.k.mem.entry a).2) :=
        List.map_congr_left fun a member => by rw [between.kept a member]
      have stamps : rest.map (fun a => (middle.k.mem.entry a).1)
          = rest.map (fun a => (sh.k.mem.entry a).1) :=
        List.map_congr_left fun a member => by rw [between.kept a member]
      refine ⟨last, ⟨between'.queue, ?_, ?_, ?_, by simp⟩, ?_, ?_⟩
      · rw [between'.handlers, between.handlers]
      · rw [between'.vplid, between.vplid]
      · rw [between'.vpls, between.vpls]
      · rw [freed', freed, stamps, List.append_assoc]
        rfl
      · rw [used, bodies, List.append_assoc] at others
        rw [first]
        exact one.trans others

/-- So does a flush_messages from its start on. -/
theorem leads_flushed (behaviour : Behaviour σ) (thid : Uid) {sh : Shared cfg}
    {nodes : List Addr} (queue : Queue sh nodes) (pool : sh.k.vpls sh.g.gVplid = true) (own : σ)
    : ∃ sh', Between sh sh' []
        ∧ freed sh'.history = freed sh.history ++ nodes.map (fun a => (sh.k.mem.entry a).1)
        ∧ Flushing.Leads behaviour thid ⟨sh, some .start, own, []⟩
            ⟨sh', none,
              (dispatchAll behaviour sh.g.used (nodes.map fun a => (sh.k.mem.entry a).2) own).1,
              (dispatchAll behaviour sh.g.used (nodes.map fun a => (sh.k.mem.entry a).2) own).2⟩ := by
  obtain ⟨last, between, freed, leads⟩ := leads_returned behaviour thid queue pool own []
  rw [List.nil_append] at leads
  have started : flushStep thid sh .start .go = .next (sh, some (.test sh.g.gHead)) := rfl
  exact ⟨last, between, freed, Flushing.Leads.go rfl started leads⟩

/-- Where a flush_messages has returned, every course of it has led or leads. -/
theorem Flushing.Leads.only {first last f : Flushing cfg σ}
    (leads : Flushing.Leads behaviour thid first last) (returned : last.pc = none)
    (reached : Flushing.Leads behaviour thid first f)
    : Flushing.Leads behaviour thid f last := by
  have unique : Relator.RightUnique
      (fun f f' : Flushing cfg σ => f.step behaviour thid = some f') := by
    intro f f₁ f₂ step₁ step₂
    exact Option.some.inj (step₁.symm.trans step₂)
  rcases Relation.ReflTransGen.total_of_right_unique unique reached leads with later | earlier
  · exact later
  · rcases Relation.ReflTransGen.cases_head earlier with same | ⟨next, stepped, _⟩
    · rw [same]
      exact .refl
    · simp [Flushing.step, returned] at stepped

end Flushes

/-- A sequential flush_messages is what the handlers are meant to get: for every table, every
queue of messages and every behaviour of the callbacks it returns, with an empty queue and every
node freed, after exactly the calls that passing the messages on one after the other means.
-/
theorem flush_dispatches (behaviour : Behaviour σ) (thid : Uid) {sh : Shared cfg}
    {nodes : List Addr} (queue : Queue sh nodes) (pool : sh.k.vpls sh.g.gVplid = true) (own : σ)
    : ∃ (last : Shared cfg) (result : σ × List CallRecord),
        result = dispatchAll behaviour sh.g.used (nodes.map fun a => (sh.k.mem.entry a).2) own
        ∧ Flushing.Leads behaviour thid ⟨sh, some .start, own, []⟩ ⟨last, none, result.1, result.2⟩
        ∧ (∀ f, Flushing.Leads behaviour thid ⟨sh, some .start, own, []⟩ f →
            Flushing.Leads behaviour thid f ⟨last, none, result.1, result.2⟩)
        ∧ last.g.gHead = 0 ∧ last.k.mem.live = ∅
        ∧ freed last.history = freed sh.history ++ nodes.map (fun a => (sh.k.mem.entry a).1) := by
  obtain ⟨last, between, freed, whole⟩ := leads_flushed behaviour thid queue pool own
  refine ⟨last, _, rfl, whole, fun f reached => whole.only rfl reached, ?_, ?_, freed⟩
  · exact between.queue.head_eq_null.mpr rfl
  · exact Finset.eq_empty_of_forall_notMem fun a member => by
      simpa using (between.queue.live a).mp member

/-- Two messages in the queue, and clients' callbacks in the slots 1 and 3. -/
def twoQueued : Shared .shipped where
  g :=
    { startedGlobals with
      gHandlers := (startedGlobals.setCb 1 (some (.client 7))).setCb 3 (some (.client 8)) |>.gHandlers
      gHead := 100 }
  k :=
    { mem :=
        ⟨{100, 200}, fun a =>
          if a = 100 then ⟨10, 0, ⟨⟨0, 1, 17, 65 :: List.replicate 16 0⟩, 200⟩⟩
          else ⟨10, 1, ⟨⟨1, 1, 17, 66 :: List.replicate 16 0⟩, 0⟩⟩⟩
      vpls := fun id => id = 10
      evflags := fun _ => none
      semas := fun _ => none
      hook := .kprintfHandler
      intr := true }
  history := []

/-- The two nodes are its queue. -/
theorem twoQueued_queue : Queue twoQueued [100, 200] where
  chain := by simp [chain_cons, chain_nil, twoQueued, Mem.next]
  live := by simp [twoQueued]
  pool := by simp [twoQueued, startedGlobals]

/-- Callbacks that count their calls and stop a message that begins with a B. -/
def stopAtB : Behaviour Nat where
  call := fun own _ args =>
    (own + 1, ⟨if args.msg.head? = some 66 then kprintfMsgStop else kprintfMsgOk, args.len, args.msg⟩)
  capacity := fun _ _ _ => rfl

/-- Witness: the first message is passed to both slots, the second one is stopped by the first. -/
theorem flush_dispatches_run
    : ∃ (last : Shared .shipped) (trace : List CallRecord),
        Flushing.Leads stopAtB 13 ⟨twoQueued, some .start, 0, []⟩ ⟨last, none, 3, trace⟩
        ∧ last.g.gHead = 0 ∧ trace.map CallRecord.slot = [1, 3, 1] := by
  obtain ⟨last, result, same, leads, _, head, _⟩ :=
    flush_dispatches stopAtB 13 twoQueued_queue (by decide) 0
  have own : result.1 = 3 := by rw [same]; decide
  exact ⟨last, result.2, own ▸ leads, head, by rw [same]; decide⟩

end LibKprintf
