import LibKprintf.Output.Fairness
import LibKprintf.Queue.Acceptance
import Mathlib.Data.Fintype.EquivFin

/-! How long a call waits for the semaphore that the event thread holds while it delivers. Where the
queue runs empty again and again, every call of an exported function returns; where it does not, a
call can wait for ever, though the scheduler is fair and every message is delivered.
-/

namespace LibKprintf

open Foundation Filter

variable {cfg : Config}

-----------------------------------------------------------------------------------------
-- How far the event thread is from giving the semaphore back
-----------------------------------------------------------------------------------------

/-- How many steps flush_messages has left, at most, once it has met the end of the queue. Nothing
is said of how many messages come before.
-/
def FlushPc.exitRank : FlushPc → Nat
  | .test m => if m = 0 then 2 else 4
  | .advance n => if n = 0 then 3 else 4
  | .slot .. | .invoke .. | .callback .. | .delivered _ | .readNext _ | .remove .. => 4
  | .start => 5

/-- The same for the event thread between its semaphore calls. -/
def EventPc.exitRank (slots : Nat) : EventPc → Nat
  | .register api => api.rank slots + 6
  | .flush _ pc => pc.exitRank
  | .signal _ => 1
  | _ => 0

/-- No step takes flush_messages farther from its end, and without a message in hand each step
brings it nearer.
-/
theorem flushStep_exits {thid : Uid} {sh sh' : Shared cfg} {pc : FlushPc} {pc' : Option FlushPc}
    {choice : Choice cfg} (stepped : flushStep thid sh pc choice = .next (sh', pc'))
    : pc'.elim 1 FlushPc.exitRank ≤ pc.exitRank
      ∧ (pc.known = [] → pc'.elim 1 FlushPc.exitRank < pc.exitRank) := by
  cases pc with
  | start =>
      simp only [flushStep, Choice.onGo_eq_next, StepResult.next.injEq, Prod.mk.injEq] at stepped
      obtain ⟨_, rfl, rfl⟩ := stepped
      simp only [Option.elim_some, FlushPc.exitRank]
      split <;> omega
  | test m =>
      simp only [flushStep, Choice.onGo_eq_next, StepResult.next.injEq] at stepped
      obtain ⟨_, stepped⟩ := stepped
      split at stepped
      · rename_i null
        cases stepped
        simp [FlushPc.exitRank, null]
      · rename_i nonnull
        cases stepped
        simp [FlushPc.exitRank, FlushPc.known, nonnull]
  | advance n =>
      simp only [flushStep, Choice.onGo_eq_next, StepResult.next.injEq, Prod.mk.injEq] at stepped
      obtain ⟨_, rfl, rfl⟩ := stepped
      by_cases null : n = 0 <;> simp [FlushPc.exitRank, FlushPc.known, null]
  | slot m i =>
      simp only [flushStep, Choice.onGo_eq_next, StepResult.next.injEq] at stepped
      obtain ⟨_, stepped⟩ := stepped
      refine ⟨?_, by simp [FlushPc.known]⟩
      split at stepped
      · split at stepped <;> cases stepped <;> simp [FlushPc.exitRank]
      · cases stepped
        simp [FlushPc.exitRank]
  | invoke m i =>
      simp only [flushStep, Choice.onGo_eq_next] at stepped
      obtain ⟨_, stepped⟩ := stepped
      refine ⟨?_, by simp [FlushPc.known]⟩
      split at stepped
      · split at stepped
        · cases stepped
          simp [FlushPc.exitRank]
        · contradiction
      · contradiction
  | callback m i cb api =>
      refine ⟨?_, by simp [FlushPc.known]⟩
      cases flushStep_effect stepped with
      | read place | observe _ place => simp [FlushPc.inCallback] at place
      | @callbackReturns _ _ _ res =>
          by_cases stops : res = kprintfMsgStop <;> simp [FlushPc.exitRank, stops]
      | callbackCalls | nested => simp [FlushPc.exitRank]
  | delivered m =>
      simp only [flushStep, Choice.onGo_eq_next, StepResult.next.injEq, Prod.mk.injEq] at stepped
      obtain ⟨_, rfl, rfl⟩ := stepped
      simp [FlushPc.exitRank, FlushPc.known]
  | readNext m =>
      simp only [flushStep, Choice.onGo_eq_next, StepResult.map_eq_next, Prod.mk.injEq] at stepped
      obtain ⟨_, n, _, rfl, rfl⟩ := stepped
      simp [FlushPc.exitRank, FlushPc.known]
  | remove m n =>
      simp only [flushStep, StepResult.map_eq_next, Choice.onGo_eq_next,
        StepResult.ofMemory_eq_next] at stepped
      obtain ⟨_, _, _, same⟩ := stepped
      cases same
      by_cases null : n = 0 <;> simp [FlushPc.exitRank, FlushPc.known, null]

/-- Between its semaphore calls the same holds of the event thread. -/
theorem eventStep_exits {thid : Uid} {sh sh' : Shared cfg} {pc pc' : EventPc} {choice : Choice cfg}
    (held : pc.locked = true) (stepped : eventStep thid sh pc choice = .next (sh', pc'))
    : pc'.exitRank cfg.kprintfMaxHandlers ≤ pc.exitRank cfg.kprintfMaxHandlers
      ∧ (pc.known = [] →
          pc'.exitRank cfg.kprintfMaxHandlers < pc.exitRank cfg.kprintfMaxHandlers) := by
  cases pc with
  | register api =>
      simp only [eventStep, StepResult.map_eq_next] at stepped
      obtain ⟨⟨next, api'⟩, called, same⟩ := stepped
      suffices lower : pc'.exitRank cfg.kprintfMaxHandlers
          < (EventPc.register api).exitRank cfg.kprintfMaxHandlers from ⟨lower.le, fun _ => lower⟩
      obtain ⟨ret, rfl, rfl, rfl⟩ | ⟨place, ran, rfl⟩ := apiCallStep_cases called <;> cases same
      · contradiction
      · have lower := apiStep_lower ran
        simp only [EventPc.exitRank]
        omega
  | flush ev pc =>
      simp only [eventStep, StepResult.map_eq_next] at stepped
      obtain ⟨⟨next, place⟩, flushed, same⟩ := stepped
      have exits := flushStep_exits flushed
      cases place <;> cases same <;> exact exits
  | signal ev =>
      simp only [eventStep, Choice.onGo_eq_next, StepResult.next.injEq, Prod.mk.injEq] at stepped
      obtain ⟨_, rfl, rfl⟩ := stepped
      simp [EventPc.exitRank]
  | _ => contradiction

/-- Between its semaphore calls the event thread has a message in hand at one rank only. -/
theorem exitRank_eq_four {pc : EventPc} (held : pc.locked = true) (slots : Nat)
    : pc.exitRank slots = 4 ↔ pc.known ≠ [] := by
  cases pc with
  | register api =>
      simp only [EventPc.exitRank, EventPc.known]
      simp
  | signal ev => simp [EventPc.exitRank, EventPc.known]
  | flush ev pc =>
      cases pc with
      | test m | advance m =>
          by_cases null : m = 0 <;>
            simp [EventPc.exitRank, FlushPc.exitRank, EventPc.known, FlushPc.known, null]
      | remove m n =>
          by_cases null : n = 0 <;>
            simp [EventPc.exitRank, FlushPc.exitRank, EventPc.known, FlushPc.known, null]
      | _ => simp [EventPc.exitRank, FlushPc.exitRank, EventPc.known, FlushPc.known]
  | _ => contradiction

/-- Where the queue is empty, the event thread has no message in hand. -/
theorem Delivery.known_of_empty {sh : Shared cfg} {pc : EventPc} {nodes : List Addr}
    (delivery : Delivery sh pc nodes) (empty : sh.g.gHead = 0)
    : pc.known = [] := by
  have known := delivery.known
  rwa [delivery.queue.head_eq_null.mp empty, List.prefix_nil] at known

-----------------------------------------------------------------------------------------
-- The semaphore becomes free again and again
-----------------------------------------------------------------------------------------

section SessionRun

variable {guard : State cfg → Action cfg → Prop} {run : (machine cfg).InfiniteRun guard}

/-- The event thread leaves its semaphore calls, if it is not interrupted for ever between them and
the queue runs empty again and again; by the rank rule.
-/
theorem SessionRun.event_leaves (within : SessionRun run)
    (fair
      : run.WeaklyFair (fun s => (s.threads s.sh.g.gThid).locked = true) EventSteps)
    (drains : ∀ n, ∃ m ≥ n, (run.state m).sh.g.gHead = 0) (n : Nat)
    : ∃ m ≥ n, ((run.state m).threads (run.state m).sh.g.gThid).locked = false := by
  let rank (s : State cfg) : Nat :=
    (s.threads s.sh.g.gThid).exitRank cfg.kprintfMaxHandlers
  refine System.InfiniteRun.eventually_of_falls
    (fun s : State cfg => (s.threads s.sh.g.gThid).locked = false) rank fun held m after => ?_
  have held (k : Nat) (later : k ≥ m) :
      ((run.state k).threads (run.state k).sh.g.gThid).locked = true := by
    simpa using held k (after.trans later)
  have exits (k : Nat) (later : k ≥ m) (own : EventSteps (run.state k) (run.action k)) :
      rank (run.state (k + 1)) ≤ rank (run.state k)
        ∧ (((run.state k).threads (run.state k).sh.g.gThid).known = [] →
            rank (run.state (k + 1)) < rank (run.state k)) := by
    rcases event_or_stays (within.reach k) (within.inside k) (within.single k) (run.stepped k) with
      ⟨_, _, ran⟩ | ⟨idle, _⟩
    · exact eventStep_exits (held k later) ran
    · exact absurd own idle
  have stays (k : Nat) (later : k ≥ m) : rank (run.state (k + 1)) ≤ rank (run.state k) := by
    by_cases own : EventSteps (run.state k) (run.action k)
    · exact (exits k later own).1
    · simp only [rank, within.place_kept own, le_refl]
  have four (k : Nat) (later : k ≥ m) := exitRank_eq_four (held k later) cfg.kprintfMaxHandlers
  by_cases hand : ((run.state m).threads (run.state m).sh.g.gThid).known = []
  · -- Its next step brings it nearer the release, or to the first message.
    obtain ⟨k, later, own⟩ := fair.exists_taken (m := m) fun _ k later => held k later
    have lower := System.InfiniteRun.rank_le rank stays later
    by_cases hand' : ((run.state k).threads (run.state k).sh.g.gThid).known = []
    · exact ⟨k + 1, later.trans k.le_succ, ((exits k later own).2 hand').trans_le lower⟩
    · have now : rank (run.state k) = 4 := (four k later).mpr hand'
      have before : rank (run.state m) ≠ 4 := fun same => (four m le_rfl).mp same hand
      exact ⟨k, later, by omega⟩
  · -- When the queue is empty it has gone through all messages.
    obtain ⟨k, later, empty⟩ := drains m
    obtain ⟨_, nodes, delivery⟩ := delivery (within.reach k)
    have lower := System.InfiniteRun.rank_le rank stays later
    have now : rank (run.state k) ≠ 4 :=
      fun same => (four k later).mp same (delivery.known_of_empty empty)
    have before : rank (run.state m) = 4 := (four m le_rfl).mpr hand
    exact ⟨k, later, by omega⟩

/-- Where the event thread is outside its semaphore calls, no event thread is between them. -/
theorem event_unlocked {s : State cfg} (session : Session s)
    (out : (s.threads s.sh.g.gThid).locked = false) (thid : Uid)
    : s.locked (.event thid) = false := by
  by_cases own : thid = s.sh.g.gThid
  · rw [own]
    exact out
  · simp [State.locked, session.others thid own, EventPc.locked]

/-- Nobody is between its semaphore calls again and again. -/
theorem SessionRun.all_out (within : SessionRun run)
    (event
      : run.WeaklyFair (fun s => (s.threads s.sh.g.gThid).locked = true) EventSteps)
    (clients
      : ∀ n, run.WeaklyFair (fun s => s.locked (.client n) = true)
          (fun _ action => ∃ choice, action = .client n choice))
    (drains : ∀ n, ∃ m ≥ n, (run.state m).sh.g.gHead = 0) (m : Nat)
    : ∃ k ≥ m, ∀ thread, (run.state k).locked thread = false := by
  obtain ⟨k, later, outside⟩ := within.clients_out clients m
  have event_out (j : Nat)
      (out : ((run.state j).threads (run.state j).sh.g.gThid).locked = false) (thid : Uid) :
      (run.state j).locked (.event thid) = false :=
    event_unlocked (session (within.reach j) (within.inside j)) out thid
  by_cases out : ((run.state k).threads (run.state k).sh.g.gThid).locked = false
  · refine ⟨k, later, ?_⟩
    rintro (thid | n)
    · exact event_out k out thid
    · exact outside n
  · obtain ⟨j, after, held, left⟩ := System.InfiniteRun.exists_crossing
      (Q := fun k => ((run.state k).threads (run.state k).sh.g.gThid).locked = false) out
      (within.event_leaves event drains k)
    have locked : (run.state j).locked (.event (run.state j).sh.g.gThid) = true := by
      simpa [State.locked] using held
    exact ⟨j + 1, later.trans (after.trans j.le_succ), vacated (within.reach j) (within.inside j)
      (within.single j) (run.stepped j) locked (event_out (j + 1) left _)⟩

end SessionRun

-----------------------------------------------------------------------------------------
-- Every call returns
-----------------------------------------------------------------------------------------

/-- The client is inside an exported function and not blocked. -/
def CallerReady (n : Nat) (s : State cfg) : Prop :=
  ∃ action t, OwnStep (.client n) s action ∧ s.step action = some t

/-- The event thread is not interrupted for ever between its semaphore calls, and no client inside
an exported function is passed over for ever while it is ready again and again.
-/
structure FairCalls {guard : State cfg → Action cfg → Prop}
    (run : (machine cfg).InfiniteRun guard)
    : Prop where
  event : run.WeaklyFair (fun s => (s.threads s.sh.g.gThid).locked = true) EventSteps
  callers
    : ∀ n, run.StronglyFair (CallerReady n) (fun _ action => ∃ choice, action = .client n choice)

section Callers

variable {s : State cfg} {n : Nat}

/-- A client inside an exported function is ready, unless it waits for a semaphore that is taken. -/
theorem callerReady (reach : (machine cfg).Reachable SingleSession s)
    (inside : s.loader.inSession = true) (engaged : s.clients n ≠ none)
    (free
      : ∀ semid, s.waitsFor (.client n) = some semid →
          ∃ k, s.sh.k.takeSema semid (.client n) = some k)
    : CallerReady n s := by
  obtain ⟨⟨call, api⟩, place⟩ := Option.ne_none_iff_exists'.mp engaged
  have free : ∀ semid, api.waitsFor = some semid →
      ∃ k, s.sh.k.takeSema semid (.client n) = some k := by
    simpa [State.waitsFor, place] using free
  obtain ⟨sh', api', stepped, -⟩ := apiCallStep_progress (.client n) call free
  have ran : clientStep n s.sh (s.clients n) .go = .next (sh', api'.map (call, ·)) := by
    simp [clientStep, place, stepped]
  have own : OwnStep (.client n) s (.client n .go) := ⟨rfl, rfl⟩
  exact ⟨_, _, own, State.step_client (delivering reach inside).running ran⟩

/-- Between its semaphore calls a client is ready. -/
theorem callerReady_of_locked (reach : (machine cfg).Reachable SingleSession s)
    (inside : s.loader.inSession = true) (locked : s.locked (.client n) = true)
    : CallerReady n s := by
  obtain ⟨⟨call, api⟩, place, held⟩ : ∃ calling, s.clients n = some calling
      ∧ calling.2.locked = true := by
    simpa [State.locked, Option.any_eq_true] using locked
  refine callerReady reach inside (by simp [place]) fun semid waits => ?_
  simp [State.waitsFor, place, ApiPc.waitsFor_of_locked held] at waits

/-- So is it while nobody is between its semaphore calls. -/
theorem callerReady_of_out (reach : (machine cfg).Reachable SingleSession s)
    (inside : s.loader.inSession = true) (engaged : s.clients n ≠ none)
    (out : ∀ thread, s.locked thread = false)
    : CallerReady n s := by
  obtain ⟨holder, sema, guarded⟩ := (exclusion reach inside).owned
  refine callerReady reach inside engaged fun semid waits => ?_
  obtain rfl := (session reach inside).semid (.client n) semid waits
  cases holder with
  | none => simp [Kernel.takeSema, sema, Sema.binary]
  | some thread => simpa [out thread] using (guarded thread).mpr rfl

/-- A client that has no plain step is not ready. -/
theorem not_callerReady
    (disabled
      : ∀ choice : Choice cfg, choice.plain = true →
          clientStep n s.sh (s.clients n) choice = .disabled)
    : ¬ CallerReady n s := by
  rintro ⟨action, t, own, stepped⟩
  cases action with
  | client m choice =>
      obtain ⟨rfl, plain⟩ : m = n ∧ choice.plain = true := by simpa [OwnStep] using own
      simp [State.step, State.apply, disabled choice plain] at stepped
  | event => simp [OwnStep] at own
  | kprintf | loader | overRegister => exact own.elim

/-- A client outside the exported functions is not ready to run on in one. -/
theorem not_callerReady_of_outside (outside : s.clients n = none) : ¬ CallerReady n s := by
  refine not_callerReady fun choice plain => ?_
  rw [outside]
  cases choice <;> first | rfl | contradiction

end Callers

/-- A run that begins in a session is the run of a session. -/
theorem single_session {run : (machine cfg).InfiniteRun SingleSession}
    (reach : (machine cfg).Reachable SingleSession (run.state 0))
    (inside : (run.state 0).loader.inSession = true)
    : SessionRun run where
  reach k := reach.path (run.path k.zero_le)
  inside k := (run.path k.zero_le).preserves (P := fun s : State cfg => s.loader.inSession = true)
    inside fun _ _ _ inside single stepped => inSession_step single inside stepped
  single := run.allowed

/-- In every run of a session in which the queue runs empty again and again, each call of an
exported function returns, under a fair scheduler.
-/
theorem registry_returns {run : (machine cfg).InfiniteRun SingleSession} (fair : FairCalls run)
    (reach : (machine cfg).Reachable SingleSession (run.state 0))
    (inside : (run.state 0).loader.inSession = true)
    (drains : ∀ n, ∃ m ≥ n, (run.state m).sh.g.gHead = 0) (n m : Nat)
    : ∃ k ≥ m, (run.state k).clients n = none := by
  have within := single_session reach inside
  refine within.client_reaches n (fun s => s.clients n = none) (fun _ engaged => engaged)
    fun engaged j after => ?_
  refine (fair.callers n).exists_taken fun _ i after' => ?_
  obtain ⟨k, later, out⟩ := within.all_out fair.event
    (fun n => (fair.callers n).weaklyFair
      fun k => callerReady_of_locked (within.reach k) (within.inside k)) drains i
  exact ⟨k, later, callerReady_of_out (within.reach k) (within.inside k)
    (engaged k (after.trans (after'.trans later))) out⟩

/-- A thread that has never called an exported function is outside them. -/
theorem outside_of_uncalled {guard : State cfg → Action cfg → Prop} {s : State cfg}
    (reach : (machine cfg).Reachable guard s) {n : Nat}
    (uncalled : ∀ event ∈ s.sh.history, event.callOf ≠ some (.client n))
    : s.clients n = none := by
  by_contra engaged
  obtain ⟨⟨call, api⟩, place⟩ := Option.ne_none_iff_exists'.mp engaged
  have telling := calling reach (.client n) call api place
  have silent := underWay_append [] uncalled
  rw [List.nil_append, telling] at silent
  contradiction

/-- A run is fair to its calls that comes to rest with nobody inside the library. -/
theorem fairCalls_of_rest {guard : State cfg → Action cfg → Prop}
    {run : (machine cfg).InfiniteRun guard} {t : State cfg}
    (ends : ∀ᶠ n in atTop, run.state n = t)
    (free : (t.threads t.sh.g.gThid).locked = false) (outside : ∀ n, t.clients n = none)
    : FairCalls run where
  event := by
    intro always
    obtain ⟨k, held, rfl⟩ := (always.and ends).exists
    simp [free] at held
  callers := by
    intro n often
    obtain ⟨k, ready, rfl⟩ := (often.and_eventually ends).exists
    exact absurd ready (not_callerReady_of_outside (outside n))

/-- The event thread is inside the default handler, and a client waits for the semaphore to
unregister it.
-/
def waitingRun : List (Action .shipped) :=
  loopRun ++ kprintfRun 100 ++ eventRun 7 ++ [.client 0 (.call (.unregisterHandler 0))]

/-- Whether all calls so far are those of the first client and of the event thread. -/
def onlyFirst (history : List Event) : Bool :=
  history.all fun event =>
    event.callOf = none ∨ event.callOf = some (.client 0) ∨ event.callOf = some (.event 13)

/-- Then the other clients are outside. -/
theorem others_outside {guard : State .shipped → Action .shipped → Prop} {s : State .shipped}
    (reach : (machine .shipped).Reachable guard s) (only : onlyFirst s.sh.history = true) {n : Nat}
    (other : n ≠ 0)
    : s.clients n = none := by
  refine outside_of_uncalled reach fun event member called => ?_
  have known := List.all_eq_true.mp only event member
  simp [called, other] at known

/-- Witness: the call returns once the event thread has delivered its message. -/
theorem registry_returns_run
    : ∃ run : (machine .shipped).InfiniteRun SingleSession,
        ((run.state 0).waitsFor (.client 0) = some (run.state 0).sh.g.gSemid
          ∧ (run.state 0).locked (.event 13) = true)
        ∧ ∀ n m, ∃ k ≥ m, (run.state k).clients n = none := by
  have done : ((machine .shipped).run SingleSession (machine .shipped).init waitingRun).any
      (fun s => (s.waitsFor (.client 0) = some s.sh.g.gSemid ∧ s.locked (.event 13) = true)
        ∧ s.loader.inSession = true
        ∧ ((machine .shipped).run SingleSession s
          ([.event 13 (.ret 0 3 (List.replicate 19 66))] ++ eventRun 14
            ++ List.replicate 9 (.client 0 .go) ++ [.overRegister 0])).any
          (fun t => (t.threads t.sh.g.gThid).locked = false ∧ t.clients 0 = none
            ∧ onlyFirst t.sh.history = true ∧ t.sh.g.gHead = 0
            ∧ t.sh.k.hook = .foreign 0) = true) = true := by
    decide +kernel
  obtain ⟨s, reach, holds⟩ := System.exists_of_run done
  obtain ⟨waits, inside, later⟩ := of_decide_eq_true holds
  obtain ⟨t, path, rests⟩ := System.exists_path_of_run later
  obtain ⟨free, first, only, empty, hook⟩ := of_decide_eq_true rests
  have reach' := reach.path path
  have inside' : t.loader.inSession = true :=
    path.preserves (P := fun s : State .shipped => s.loader.inSession = true) inside
      fun _ _ _ inside single stepped => inSession_step single inside stepped
  have outside (n : Nat) : t.clients n = none := by
    by_cases other : n = 0
    · rw [other, first]
    · exact others_outside reach' only other
  obtain ⟨run, rfl, ends⟩ := path.exists_infiniteRun (a := .overRegister 0)
    (by simp [SingleSession, Action.isStart])
    (overRegister_loop (delivering reach' inside').running hook)
  refine ⟨run, waits, registry_returns (fairCalls_of_rest ends free outside) reach inside
    fun n => ?_⟩
  obtain ⟨bound, rests⟩ := eventually_atTop.mp ends
  exact ⟨max n bound, le_max_left n bound, by rw [rests _ (le_max_right n bound), empty]⟩

-----------------------------------------------------------------------------------------
-- Where the queue never runs empty
-----------------------------------------------------------------------------------------

/-- Whether flush_messages is sure of another message, outside the exported functions. -/
def FlushPc.Continues : FlushPc → Prop
  | .start => False
  | .test m | .advance m => m ≠ 0
  | .remove _ n => n ≠ 0
  | .callback _ _ _ api => api = none
  | .slot .. | .invoke .. | .delivered _ | .readNext _ => True

/-- The event thread is about to find out that its message is the last one. -/
def State.atLast (s : State cfg) : Prop :=
  ∃ ev m, s.threads s.sh.g.gThid = .flush ev (.readNext m) ∧ s.sh.k.mem.next m = 0

/-- The link that is read from a message is that of its block. -/
theorem next_of_loadNext {mem : Mem} {a n : Addr} (loaded : mem.loadNext a = some n)
    : mem.next a = n := by
  simp only [Mem.loadNext, Mem.load, Option.map_eq_some_iff] at loaded
  obtain ⟨msg, found, rfl⟩ := loaded
  split at found
  · cases found
    rfl
  · contradiction

/-- Before it finds that out, a plain step takes flush_messages to where it is sure of another
message again, and out of a callback.
-/
theorem flushStep_continues {thid : Uid} {sh sh' : Shared cfg} {pc : FlushPc}
    {pc' : Option FlushPc} {choice : Choice cfg} (continues : pc.Continues)
    (more : ∀ m, pc = .readNext m → sh.k.mem.next m ≠ 0) (plain : choice.plain = true)
    (stepped : flushStep thid sh pc choice = .next (sh', pc'))
    : ∃ next, pc' = some next ∧ next.Continues
        ∧ (pc.inCallback = true → next.inCallback = false) := by
  cases pc with
  | start => exact continues.elim
  | test m =>
      have nonnull : m ≠ 0 := continues
      simp only [flushStep, Choice.onGo_eq_next, StepResult.next.injEq, if_neg nonnull,
        Prod.mk.injEq] at stepped
      obtain ⟨_, rfl, rfl⟩ := stepped
      exact ⟨_, rfl, trivial, by simp [FlushPc.inCallback]⟩
  | slot m i =>
      simp only [flushStep, Choice.onGo_eq_next, StepResult.next.injEq] at stepped
      obtain ⟨_, stepped⟩ := stepped
      split at stepped
      · split at stepped <;> cases stepped <;>
          exact ⟨_, rfl, trivial, by simp [FlushPc.inCallback]⟩
      · cases stepped
        exact ⟨_, rfl, trivial, by simp [FlushPc.inCallback]⟩
  | invoke m i =>
      simp only [flushStep, Choice.onGo_eq_next] at stepped
      obtain ⟨_, stepped⟩ := stepped
      split at stepped
      · split at stepped
        · cases stepped
          exact ⟨_, rfl, rfl, by simp [FlushPc.inCallback]⟩
        · contradiction
      · contradiction
  | callback m i cb api =>
      obtain rfl : api = none := continues
      simp only [flushStep, StepResult.map_eq_next, Prod.exists, Prod.mk.injEq] at stepped
      obtain ⟨_, next, ran, rfl, rfl⟩ := stepped
      cases choice with
      | ret res len msg =>
          simp only [callbackStep] at ran
          split at ran
          · contradiction
          · simp only [StepResult.map_eq_next, Prod.mk.injEq] at ran
            obtain ⟨_, _, rfl, rfl⟩ := ran
            exact ⟨_, rfl, by split <;> exact trivial, fun _ => by split <;> rfl⟩
      | call => contradiction
      | _ => simp [callbackStep] at ran
  | delivered m =>
      simp only [flushStep, Choice.onGo_eq_next, StepResult.next.injEq, Prod.mk.injEq] at stepped
      obtain ⟨_, rfl, rfl⟩ := stepped
      exact ⟨_, rfl, trivial, by simp [FlushPc.inCallback]⟩
  | readNext m =>
      simp only [flushStep, Choice.onGo_eq_next, StepResult.map_eq_next,
        StepResult.ofMemory_eq_next, Prod.mk.injEq] at stepped
      obtain ⟨_, n, loaded, rfl, rfl⟩ := stepped
      refine ⟨_, rfl, ?_, by simp [FlushPc.inCallback]⟩
      obtain rfl : sh.k.mem.next m = n := next_of_loadNext loaded
      exact more m rfl
  | remove m n =>
      simp only [flushStep, StepResult.map_eq_next, Choice.onGo_eq_next] at stepped
      obtain ⟨_, _, _, same⟩ := stepped
      cases same
      exact ⟨_, rfl, continues, by simp [FlushPc.inCallback]⟩
  | advance n =>
      simp only [flushStep, Choice.onGo_eq_next, StepResult.next.injEq, Prod.mk.injEq] at stepped
      obtain ⟨_, rfl, rfl⟩ := stepped
      exact ⟨_, rfl, continues, by simp [FlushPc.inCallback]⟩

/-- The event thread is sure of another message, Kprintf reaches the library, and the clients stay
where they are.
-/
structure Starving (clients : Nat → ClientPc) (s : State cfg) : Prop where
  reach : (machine cfg).Reachable NoReentry s
  started : s.sh.g.gState = .started
  hook : s.sh.k.hook = .kprintfHandler
  busy : ∃ ev pc, s.threads s.sh.g.gThid = .flush ev pc ∧ pc.Continues
  stay : s.clients = clients

/-- The event thread takes a plain step, out of the callback if it is in one. Only where it is about
to find out that its message is the last one, a Kprintf call appends a message instead.
-/
def KeepsBusy (s : State cfg) (action : Action cfg) (t : State cfg) : Prop :=
  (¬ s.atLast ∧ OwnStep (.event s.sh.g.gThid) s action
      ∧ ((s.threads s.sh.g.gThid).inCallback = true →
          (t.threads t.sh.g.gThid).inCallback = false))
    ∨ s.atLast ∧ ¬ t.atLast
      ∧ ∃ call nodes m, action = .kprintf call ∧ Appends s.sh t.sh nodes m

/-- The plain steps of the event thread are steps of it. -/
theorem OwnStep.eventSteps {s : State cfg} {action : Action cfg}
    (own : OwnStep (.event s.sh.g.gThid) s action)
    : EventSteps s action := by
  cases action with
  | event thid choice =>
      obtain ⟨same, _⟩ := own
      cases same
      exact ⟨choice, rfl⟩
  | client => exact absurd own.1 (by simp)
  | kprintf | loader | overRegister => exact own.elim

section Starving

variable {s : State cfg} {clients : Nat → ClientPc}

/-- Such a module is in its session. -/
theorem Starving.single (starving : Starving clients s)
    : (machine cfg).Reachable SingleSession s ∧ s.loader.inSession = true :=
  have reach := starving.reach.mono fun _ _ reentry => reentry.1
  ⟨reach, inSession_of_started reach starving.started⟩

/-- Before the event thread finds the end of the queue, it takes a plain step. -/
theorem Starving.delivers (starving : Starving clients s) (more : ¬ s.atLast)
    : ∃ action t, Serving s action ∧ s.step action = some t ∧ Starving clients t
        ∧ KeepsBusy s action t := by
  obtain ⟨single, inside⟩ := starving.single
  obtain ⟨ev, pc, place, continues⟩ := starving.busy
  obtain ⟨crashed, ready, nodes, delivery⟩ := delivering single inside
  have outside {pc : FlushPc} (continues : pc.Continues) : pc.nested = none := by
    cases pc <;> first | rfl | exact continues
  have unblocked : (s.threads s.sh.g.gThid).Unblocked s.sh.g.gThid s.sh := by
    rw [place]
    intro call api nested
    simp [outside continues] at nested
  obtain ⟨choice, plain, sh', pc', ran, -⟩ := eventStep_progress s.sh.g.gThid delivery
    (session single inside).vpl (ready _) unblocked
  have own : OwnStep (.event s.sh.g.gThid) s (.event s.sh.g.gThid choice) := ⟨rfl, plain⟩
  have stepped := State.step_event crashed ran
  have effect := eventStep_effect ran
  have frame := effect.frame
  obtain ⟨next, rfl, continues', returns⟩ : ∃ next, pc' = .flush ev next ∧ next.Continues
      ∧ (pc.inCallback = true → next.inCallback = false) := by
    rw [place] at ran
    simp only [eventStep, StepResult.map_eq_next] at ran
    obtain ⟨⟨_, place'⟩, flushed, same⟩ := ran
    obtain ⟨next, rfl, later⟩ := flushStep_continues continues
      (fun m same null => more ⟨ev, m, by rw [place, same], null⟩) plain flushed
    cases same
    exact ⟨next, rfl, later⟩
  have hook : sh'.k.hook = s.sh.k.hook := by
    have move := effect.callMove
    simp only [place, EventPc.inApi, EventPc.nested, outside continues, outside continues'] at move
    cases move with
    | outside _ _ _ same => exact same
  refine ⟨_, _, ⟨own.noReentry, starving.started, ?_⟩, stepped,
    ⟨starving.reach.step own.noReentry stepped, frame.gState.trans starving.started,
      hook.trans starving.hook, ⟨ev, next, ?_, continues'⟩, starving.stay⟩,
    Or.inl ⟨more, own, fun calls => ?_⟩⟩
  · cases choice <;> first | rfl | contradiction
  · simp only [frame.gThid, Function.update_self]
  · simp only [frame.gThid, Function.update_self]
    rw [place] at calls
    exact returns calls

/-- When it is about to find the end of the queue, a message comes. -/
theorem Starving.appends (starving : Starving clients s) (room : 1 < cfg.kprintfBufsz)
    (last : s.atLast)
    : ∃ action t, Serving s action ∧ s.step action = some t ∧ Starving clients t
        ∧ KeepsBusy s action t := by
  obtain ⟨single, inside⟩ := starving.single
  obtain ⟨ev, m, place, null⟩ := last
  obtain ⟨crashed, _, nodes, delivery⟩ := delivering single inside
  rw [place] at delivery
  obtain ⟨rest, rfl⟩ := delivery.first rfl
  obtain rfl : rest = [] := (chain_cons.mp delivery.queue.chain).2.2.head_eq_null.mp null
  obtain ⟨a, unused⟩ := Infinite.exists_notMem_finset (insert 0 s.sh.k.mem.live)
  obtain ⟨nonnull, unused⟩ : a ≠ 0 ∧ a ∉ s.sh.k.mem.live := by simpa using unused
  let call : KprintfCall cfg := ⟨0, 1, Vector.replicate _ 65, .ok a⟩
  have accepts : ¬ (call.len.toInt ≤ 0 ∨ call.len.toNat ≥ cfg.kprintfBufsz) := by
    simpa [call] using room
  obtain ⟨sh', handled, whole⟩ :=
    acceptedWhole call delivery.queue starving.started accepts rfl nonnull unused
  obtain ⟨_, again, appends⟩ :=
    kprintfHandler_ok delivery.queue starving.started accepts rfl nonnull unused
  cases Option.some.inj (handled.symm.trans again)
  have may : s.sh.k.MayAllocate s.sh.g.gVplid call.answer :=
    ⟨(session single inside).vpl, nonnull, unused⟩
  have printed : kprintf s.sh call = .next sh' := by
    simp [kprintf, starving.hook, may, handled]
  have stepped : s.step (.kprintf call) = some { s with sh := sh' } := by
    simp [State.step, crashed, State.apply, printed]
  have frame := kprintf_frame printed
  have allowed : NoReentry s (.kprintf call) := ⟨by simp [SingleSession, Action.isStart], rfl⟩
  refine ⟨_, _, ⟨allowed, starving.started, rfl⟩, stepped,
    ⟨starving.reach.step allowed stepped, frame.gState.trans starving.started, ?_,
      ⟨ev, .readNext m, by simpa only [frame.gThid] using place, trivial⟩, starving.stay⟩,
    Or.inr ⟨⟨ev, m, place, null⟩, ?_, call, _, a, rfl, appends⟩⟩
  · rw [whole.kernel]
    exact starving.hook
  · rintro ⟨ev', m', place', null'⟩
    obtain ⟨-, rfl⟩ : ev = ev' ∧ m = m' := by simpa [frame.gThid, place] using place'
    simp [Mem.next, whole.last m rfl, nonnull] at null'

end Starving

/-- A function does not get past its wait by a plain step, while the semaphore is taken. -/
theorem apiStep_blocked {thread : ThreadRef} {sh : Shared cfg} {pc : ApiPc} {semid : Uid}
    {choice : Choice cfg} (waits : pc.waitsFor = some semid)
    (taken : sh.k.takeSema semid thread = none) (plain : choice.plain = true)
    : apiStep thread sh pc choice = .disabled := by
  cases pc with
  | regWait args captured | unregWait index captured =>
      obtain rfl : captured = semid := by simpa [ApiPc.waitsFor] using waits
      cases choice with
      | fail | answer | kprintf | call | start | stop => contradiction
      | _ => simp [apiStep, Choice.onKernel, StepResult.ofBlocking, StepResult.map, taken]
  | _ => simp [ApiPc.waitsFor] at waits

/-- While a thread is between its semaphore calls, no client is ready that waits for the semaphore.
-/
theorem not_callerReady_of_locked {s : State cfg} {n : Nat}
    (reach : (machine cfg).Reachable SingleSession s) (inside : s.loader.inSession = true)
    {thread : ThreadRef} (held : s.locked thread = true)
    (waits : s.waitsFor (.client n) = some s.sh.g.gSemid)
    : ¬ CallerReady n s := by
  refine not_callerReady fun choice plain => ?_
  obtain ⟨⟨call, api⟩, place, waits⟩ := Option.bind_eq_some_iff.mp waits
  have taken : s.sh.k.takeSema s.sh.g.gSemid (.client n) = none :=
    (exclusion reach inside).blocked held
  have disabled := apiStep_blocked waits taken plain
  rw [place, clientStep, apiCallStep, disabled]
  · rfl
  · rintro ret rfl
    simp [ApiPc.waitsFor] at waits

/-- From every state in which the event thread is sure of another message and Kprintf reaches the
library, while the clients inside exported functions wait for the semaphore, a run goes on in which
they wait for ever, though it is fair to the event thread, to its callbacks and to the clients: a
message is appended whenever the event thread is about to find the end of the queue, and all other
steps are plain ones of that thread.
-/
theorem registry_starves {s : State cfg} (reach : (machine cfg).Reachable NoReentry s)
    (started : s.sh.g.gState = .started) (hook : s.sh.k.hook = .kprintfHandler)
    (room : 1 < cfg.kprintfBufsz) {ev : U32} {pc : FlushPc}
    (flushing : s.threads s.sh.g.gThid = .flush ev pc) (continues : pc.Continues)
    (blocked : ∀ n, s.clients n = none ∨ s.waitsFor (.client n) = some s.sh.g.gSemid)
    : ∃ run : (machine cfg).InfiniteRun Serving,
        run.state 0 = s ∧ Fair run ∧ FairCalls run
        ∧ ∀ k, KeepsBusy (run.state k) (run.action k) (run.state (k + 1))
            ∧ (run.state k).clients = s.clients := by
  have progress (t : State cfg) (starving : Starving s.clients t) :
      ∃ action t', Serving t action ∧ (machine cfg).step t action = some t'
        ∧ Starving s.clients t' ∧ KeepsBusy t action t' := by
    by_cases last : t.atLast
    · exact starving.appends room last
    · exact starving.delivers last
  obtain ⟨run, rfl, all⟩ := System.exists_infiniteRun progress
    ⟨reach, started, hook, ⟨ev, pc, flushing, continues⟩, rfl⟩
  have steps : ∃ᶠ k in atTop, EventSteps (run.state k) (run.action k) := by
    refine frequently_atTop.mpr fun k => ?_
    rcases (all k).2 with ⟨_, own, _⟩ | ⟨_, more, _⟩
    · exact ⟨k, le_rfl, own.eventSteps⟩
    · rcases (all (k + 1)).2 with ⟨_, own, _⟩ | ⟨last, _⟩
      · exact ⟨k + 1, k.le_succ, own.eventSteps⟩
      · exact absurd last more
  have held (k : Nat) : (run.state k).locked (.event (run.state k).sh.g.gThid) = true := by
    obtain ⟨ev, pc, place, _⟩ := (all k).1.busy
    simp [State.locked, place, EventPc.locked]
  have stay (k : Nat) : (run.state k).clients = (run.state 0).clients := (all k).1.stay
  have unready (k n : Nat) : ¬ CallerReady n (run.state k) := by
    obtain ⟨single, inside⟩ := (all k).1.single
    rcases blocked n with outside | waits
    · exact not_callerReady_of_outside (by rw [stay k, outside])
    · have waits : (run.state k).waitsFor (.client n) = some (run.state 0).sh.g.gSemid := by
        simpa only [State.waitsFor, stay k] using waits
      refine not_callerReady_of_locked single inside (held k) ?_
      rw [waits, (session single inside).semid _ _ waits]
  refine ⟨run, rfl, ⟨fun _ => steps, fun n always => ?_, fun k => ?_⟩,
    ⟨fun _ => steps, fun n often => ?_⟩, fun k => ⟨(all k).2, stay k⟩⟩
  · obtain ⟨k, locked⟩ := always.exists
    obtain ⟨single, inside⟩ := (all k).1.single
    obtain ⟨holder, _, guarded⟩ := (exclusion single inside).owned
    exact absurd (guarded.exclusive locked (held k)) (by simp)
  · cases calls : ((run.state k).threads (run.state k).sh.g.gThid).inCallback with
    | false => exact ⟨k, le_rfl, calls⟩
    | true =>
        rcases (all k).2 with ⟨_, _, returns⟩ | ⟨⟨ev, m, place, _⟩, _⟩
        · exact ⟨k + 1, k.le_succ, returns calls⟩
        · simp [place, EventPc.inCallback, FlushPc.inCallback] at calls
  · obtain ⟨k, ready⟩ := often.exists
    exact absurd ready (unready k n)

/-- Witness: the client that waits for the event thread to leave the default handler waits for ever.
-/
theorem registry_starves_run
    : ∃ s : State .shipped, s.waitsFor (.client 0) = some s.sh.g.gSemid
        ∧ ∃ run : (machine .shipped).InfiniteRun Serving,
            run.state 0 = s ∧ Fair run ∧ FairCalls run
            ∧ ∀ k, KeepsBusy (run.state k) (run.action k) (run.state (k + 1))
                ∧ (run.state k).clients = s.clients := by
  have done : ((machine .shipped).run NoReentry (machine .shipped).init waitingRun).any
      (fun s => s.waitsFor (.client 0) = some s.sh.g.gSemid ∧ onlyFirst s.sh.history = true
        ∧ s.sh.g.gState = .started ∧ s.sh.k.hook = .kprintfHandler
        ∧ s.threads s.sh.g.gThid = .flush 1 (.callback 100 0 .defaultFileHandler none))
      = true := by
    decide +kernel
  obtain ⟨s, reach, holds⟩ := System.exists_of_run done
  obtain ⟨waits, only, started, hook, place⟩ := of_decide_eq_true holds
  refine ⟨s, waits, registry_starves reach started hook (by decide) place rfl fun n => ?_⟩
  by_cases other : n = 0
  · exact Or.inr (other ▸ waits)
  · exact Or.inl (others_outside reach only other)

end LibKprintf
