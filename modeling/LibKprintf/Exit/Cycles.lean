import LibKprintf.Model.ExitCallback

/-! Whether kill_callbacks undoes setup_callbacks, cycle after cycle. The flag that the caller waits
for is never reset, so from the second cycle on it says nothing about the thread of the cycle.
-/

namespace LibKprintf.ExitCb

open Foundation

variable {cleansUp : Bool} {s t : State}

/-- The thread has stored `g_sleeping = 1`. -/
def ThreadPc.slept : ThreadPc → Bool
  | .sleep | .userExit | .exitGame | .sleepThread => true
  | _ => false

/-- sceKernelCreateCallback does not fail. -/
def Creates (s : State) : Action → Prop
  | .thread thid (.answer ret) => s.threads thid = .create → 0 < ret
  | _ => True

/-- Besides, the wait loop of kill_callbacks does not read a flag that is left over from an earlier
cycle: if it is set, the thread of this cycle has set it.
-/
def ReadsFresh (s : State) (action : Action) : Prop :=
  Creates s action
    ∧ (action = .caller .go → s.caller = .testSleeping → s.g.gSleeping ≠ 0 →
      (s.threads s.g.gThid).slept = true)

instance (s : State) (action : Action) : Decidable (Creates s action) :=
  match action with
  | .thread thid (.answer ret) => inferInstanceAs (Decidable (s.threads thid = .create → 0 < ret))
  | .thread _ .go | .thread _ .kill | .thread _ .exit | .thread _ (.setup ..) | .caller _ =>
      inferInstanceAs (Decidable True)

instance (s : State) (action : Action) : Decidable (ReadsFresh s action) :=
  inferInstanceAs (Decidable (_ ∧ _))

/-- kill_callbacks undoes setup_callbacks. When its wait loop is passed the thread of this cycle has
created a callback and registered it, and it is this one that is deleted next; between the cycles no
callback is left.
-/
structure State.Undoes (s : State) : Prop where
  passed
    : s.caller = .deleteCallback → ∃ id, 0 < id ∧ s.created = some id
        ∧ s.callbacks id = some s.g.gThid ∧ s.exitCallback = some id ∧ s.g.gExitCbid = id
  undeleted : s.caller = .idle → ∀ id, s.callbacks id = none

/-- No thread exists. -/
def noThreads : Uid → ThreadPc := fun _ => .absent

/-- One thread exists. -/
def oneThread (thid : Uid) (pc : ThreadPc) : Uid → ThreadPc := Function.update noThreads thid pc

/-- The thread runs callback_thread. -/
def ThreadPc.runs : ThreadPc → Bool
  | .absent | .dormant => false
  | _ => true

/-- The caller is between the return of setup_callbacks and the end of the thread. -/
def CallerPc.waits : CallerPc → Bool
  | .running | .testSleeping | .delay | .deleteCallback | .terminateThread => true
  | _ => false

/-- The threads while the caller is at a statement: at most that of this cycle. -/
def ThreadsAt (g : Globals) (threads : Uid → ThreadPc) : CallerPc → Prop
  | .idle | .setUserExitCb .. | .setUserCommon _ | .createThread | .resetCbid | .resetThid =>
      threads = noThreads
  | .setThid ret => threads = oneThread ret .dormant
  | .startThread => threads = oneThread g.gThid .dormant
  | .running | .testSleeping | .delay | .deleteCallback | .terminateThread =>
      ∃ pc : ThreadPc, pc.runs = true ∧ threads = oneThread g.gThid pc
  | .failed _ => ∀ thid, (threads thid).runs = false

/-- The statements of kill_callbacks behind its wait loop. -/
def CallerPc.passed : CallerPc → Bool
  | .deleteCallback | .terminateThread | .resetCbid | .resetThid => true
  | _ => false

/-- The thread of the cycle has been deleted, but the cycle is not over. -/
def CallerPc.ended : CallerPc → Bool
  | .resetCbid | .resetThid => true
  | _ => false

/-- What holds in every run: at most the thread of this cycle exists, and the flag is set after the
first cycle. Before, only the thread of this cycle has set it.
-/
structure State.Tidy (s : State) : Prop where
  threads : ThreadsAt s.g s.threads s.caller
  set : (s.caller.passed = true ∨ 0 < s.cycles) → s.g.gSleeping ≠ 0
  first
    : s.g.gSleeping ≠ 0 →
        0 < s.cycles ∨ (s.threads s.g.gThid).slept = true ∨ s.caller.ended = true

/-- The state of the only thread. -/
@[simp]
theorem oneThread_self (thid : Uid) (pc : ThreadPc) : oneThread thid pc thid = pc := by
  simp [oneThread]

/-- Replacing one state of the only thread by another. -/
theorem oneThread_update (thid : Uid) (pc pc' : ThreadPc)
    : Function.update (oneThread thid pc) thid pc' = oneThread thid pc' :=
  Function.update_idem ..

/-- Without its only thread there is none. -/
theorem oneThread_absent (thid : Uid) : oneThread thid .absent = noThreads :=
  Function.update_eq_self thid noThreads

/-- A thread that is in a state other than absent is the only one. -/
theorem oneThread_only {thid thid' : Uid} {pc : ThreadPc}
    (exists' : oneThread thid pc thid' ≠ .absent)
    : thid' = thid := by
  by_contra other
  exact exists' (Function.update_of_ne other ..)

/-- If the only thread has not been started, none runs. -/
theorem oneThread_dormant (thid thid' : Uid) : (oneThread thid .dormant thid').runs = false := by
  by_cases same : thid' = thid
  · rw [same, oneThread_self]
    rfl
  · rw [oneThread, Function.update_of_ne same]
    rfl

/-- A thread that does not run has not set the flag. -/
theorem ThreadPc.slept_of_idle {pc : ThreadPc} (idle : pc.runs = false) : pc.slept = false := by
  cases pc <;> first | rfl | contradiction

/-- A thread that runs is the only one, that of this cycle, and the caller is waiting for it. -/
theorem ThreadsAt.current {g : Globals} {threads : Uid → ThreadPc} {caller : CallerPc} {thid : Uid}
    (at' : ThreadsAt g threads caller) (runs : (threads thid).runs = true)
    : caller.waits = true ∧ thid = g.gThid ∧ ∃ pc, threads = oneThread g.gThid pc := by
  have present : threads thid ≠ .absent := fun absent => by simp [absent, ThreadPc.runs] at runs
  cases caller with
  | idle | setUserExitCb | setUserCommon | createThread | resetCbid | resetThid =>
      exact absurd (congrFun at' thid) present
  | setThid ret =>
      rw [show threads = _ from at'] at runs present
      rw [oneThread_only present, oneThread_self] at runs
      contradiction
  | startThread =>
      rw [show threads = _ from at'] at runs present
      rw [oneThread_only present, oneThread_self] at runs
      contradiction
  | failed ret => exact absurd runs (by simp [show (threads thid).runs = false from at' thid])
  | running | testSleeping | delay | deleteCallback | terminateThread =>
      obtain ⟨pc, -, one⟩ := at'
      rw [one] at present
      exact ⟨rfl, oneThread_only present, pc, one⟩

/-- What a step of a callback thread leaves as it is. -/
structure ThreadFrame (s t : State) (thid : Uid) (pc : ThreadPc) : Prop where
  threads : t.threads = Function.update s.threads thid pc
  runs : (s.threads thid).runs = true ∧ pc.runs = true
  caller : t.caller = s.caller
  current : t.g.gThid = s.g.gThid
  cycles : t.cycles = s.cycles
  sleeping : t.g.gSleeping = s.g.gSleeping ∨ t.g.gSleeping = 1 ∧ pc.slept = true
  slept : (s.threads thid).slept = true → pc.slept = true

/-- A callback thread changes its own state and leaves the caller alone. -/
theorem threadStep_frame {thid : Uid} {choice : Choice}
    (stepped : threadStep thid s choice = some t)
    : ∃ pc, ThreadFrame s t thid pc := by
  cases threadStep_cases stepped with
  | notCreated here | create here | setCbid here | register here =>
      have awake : (s.threads thid).slept ≠ true := by simp [here, ThreadPc.slept]
      exact ⟨_, rfl, ⟨by rw [here]; rfl, rfl⟩, rfl, rfl, rfl, .inl rfl, (absurd · awake)⟩
  | setSleeping here =>
      exact ⟨_, rfl, ⟨by rw [here]; rfl, rfl⟩, rfl, rfl, rfl, .inr ⟨rfl, rfl⟩, fun _ => rfl⟩
  | wakeUp here | userExit here | exitGame here =>
      exact ⟨_, rfl, ⟨by rw [here]; rfl, rfl⟩, rfl, rfl, rfl, .inl rfl, fun _ => rfl⟩

/-- A step of a callback thread keeps the state tidy. -/
theorem State.Tidy.thread (tidy : s.Tidy) {thid : Uid} {choice : Choice}
    (stepped : threadStep thid s choice = some t)
    : t.Tidy := by
  obtain ⟨pc, frame⟩ := threadStep_frame stepped
  obtain ⟨waits, rfl, pc₀, one⟩ := tidy.threads.current frame.runs.1
  have threads : t.threads = oneThread t.g.gThid pc := by
    rw [frame.threads, one, oneThread_update, frame.current]
  refine ⟨?_, fun passed => ?_, fun set => ?_⟩
  · rw [frame.caller]
    cases at' : s.caller <;> rw [at'] at waits <;>
      first | exact ⟨pc, frame.runs.2, threads⟩ | contradiction
  · rw [frame.caller, frame.cycles] at passed
    rcases frame.sleeping with same | ⟨one, _⟩
    · rw [same]
      exact tidy.set passed
    · omega
  · rw [threads, oneThread_self, frame.caller, frame.cycles]
    rcases frame.sleeping with same | ⟨_, slept⟩
    · rw [same] at set
      exact (tidy.first set).imp_right fun more => more.imp_left frame.slept
    · exact Or.inr (Or.inl slept)

/-- A step of the caller keeps the state tidy. -/
theorem State.Tidy.caller (tidy : s.Tidy) {choice : Choice}
    (stepped : callerStep cleansUp s choice = some t)
    : t.Tidy := by
  obtain ⟨threads, set, first⟩ := tidy
  -- Before the thread of the cycle is started, the flag can only be that of an earlier cycle.
  have earlier (idle : (s.threads s.g.gThid).slept = false) (more : s.caller.ended = false)
      (flag : s.g.gSleeping ≠ 0)
      : 0 < s.cycles := by
    simpa [idle, more] using first flag
  cases callerStep_cases stepped with
  | setup here | setUserExitCb here | setUserCommon here | kill here | stillAwake here | delay here
  | deleteCallback here | resetCbid here =>
      rw [here] at threads set first
      exact ⟨threads, set, first⟩
  | asleep here flag =>
      rw [here] at threads first
      exact ⟨threads, fun _ => flag, first⟩
  | notCreated here =>
      rw [here] at threads set first
      have none : s.threads = noThreads := threads
      exact ⟨fun thid => by rw [none]; rfl, set, first⟩
  | createThread here =>
      rw [here] at threads set earlier
      have none : s.threads = noThreads := threads
      refine ⟨congrArg (Function.update · _ _) none, set, fun flag => Or.inl ?_⟩
      exact earlier (by rw [none]; rfl) rfl flag
  | @setThid ret here =>
      rw [here] at threads set earlier
      have one : s.threads = oneThread ret .dormant := threads
      refine ⟨one, set, fun flag => Or.inl (earlier ?_ rfl flag)⟩
      rw [one]
      exact ThreadPc.slept_of_idle (oneThread_dormant ret _)
  | notStarted here =>
      rw [here] at threads set first
      have one : s.threads = oneThread s.g.gThid .dormant := threads
      refine ⟨fun thid => ?_, set, first⟩
      rw [one]
      exact oneThread_dormant s.g.gThid thid
  | startThread here =>
      rw [here] at threads set earlier
      have one : s.threads = oneThread s.g.gThid .dormant := threads
      refine ⟨⟨.create, rfl, ?_⟩, set, fun flag => Or.inl (earlier ?_ rfl flag)⟩
      · rw [one, oneThread_update]
      · rw [one, oneThread_self]
        rfl
  | terminateThread here =>
      rw [here] at threads set
      obtain ⟨pc, _, one⟩ := threads
      refine ⟨?_, set, fun _ => Or.inr (Or.inr rfl)⟩
      show Function.update s.threads s.g.gThid .absent = noThreads
      rw [one, oneThread_update, oneThread_absent]
  | resetThid here =>
      rw [here] at threads set
      exact ⟨threads, fun _ => set (Or.inl rfl), fun _ => Or.inl (Nat.succ_pos _)⟩

/-- The state before the first call is tidy. -/
theorem loaded_tidy : State.loaded.Tidy := ⟨rfl, by decide, by decide⟩

/-- Every run keeps the state tidy. -/
theorem reachable_tidy {guard : State → Action → Prop}
    (reach : (machine cleansUp).Reachable guard s)
    : s.Tidy := by
  refine System.Reachable.invariant reach loaded_tidy ?_
  intro s action t _ tidy _ stepped
  cases action with
  | caller choice => exact tidy.caller stepped
  | thread thid choice => exact tidy.thread stepped

/-- No callback exists. -/
def noCallbacks : Uid → Option Uid := fun _ => none

/-- The callback that the thread `thid` has created in this cycle is the only one. -/
structure Made (callbacks : Uid → Option Uid) (created : Option Uid) (thid id : Uid) : Prop where
  positive : 0 < id
  answered : created = some id
  only : callbacks = Function.update noCallbacks id (some thid)

/-- What the thread of this cycle has done when it is at a statement. -/
def StageAt (s : State) : ThreadPc → Prop
  | .absent | .dormant => False
  | .create => s.callbacks = noCallbacks
  | .setCbid ret => Made s.callbacks s.created s.g.gThid ret
  | .register => Made s.callbacks s.created s.g.gThid s.g.gExitCbid
  | .setSleeping | .sleep | .userExit | .exitGame | .sleepThread =>
      Made s.callbacks s.created s.g.gThid s.g.gExitCbid ∧ s.exitCallback = some s.g.gExitCbid

/-- The callbacks while the caller is at a statement: at most that of this cycle. -/
def CallbacksAt (s : State) : CallerPc → Prop
  | .running | .testSleeping | .delay => StageAt s (s.threads s.g.gThid)
  | .deleteCallback =>
      StageAt s (s.threads s.g.gThid) ∧ (s.threads s.g.gThid).slept = true
  | .terminateThread =>
      s.callbacks = noCallbacks ∧ (s.threads s.g.gThid).slept = true
  | .failed _ => True
  | _ => s.callbacks = noCallbacks

/-- The thread of this cycle goes from one stage to the next. -/
theorem StageAt.step (stage : StageAt s (s.threads s.g.gThid)) {choice : Choice}
    (creates : Creates s (.thread s.g.gThid choice))
    (stepped : threadStep s.g.gThid s choice = some t)
    : StageAt t (t.threads t.g.gThid) := by
  cases threadStep_cases stepped with
  | notCreated here negative =>
      have positive := creates here
      omega
  | create here positive =>
      rw [here] at stage
      simp only [State.setThread, Function.update_self]
      exact ⟨positive, rfl, congrArg (Function.update · _ _) stage⟩
  | register here =>
      rw [here] at stage
      simp only [State.setThread, State.sceKernelRegisterExitCallback, Function.update_self]
      have existing : (s.callbacks s.g.gExitCbid).isSome = true := by
        rw [Made.only stage, Function.update_self]
        rfl
      exact ⟨stage, if_pos existing⟩
  | setCbid here | setSleeping here | wakeUp here | userExit here | exitGame here =>
      rw [here] at stage
      simp only [State.setThread, Function.update_self]
      exact stage

/-- A thread that has set the flag has created and registered the callback before. -/
theorem StageAt.made {pc : ThreadPc} (stage : StageAt s pc) (slept : pc.slept = true)
    : Made s.callbacks s.created s.g.gThid s.g.gExitCbid
      ∧ s.exitCallback = some s.g.gExitCbid := by
  cases pc with
  | sleep | userExit | exitGame | sleepThread => exact stage
  | _ => contradiction

/-- A thread that has set the flag leaves the callbacks alone. -/
theorem threadStep_slept {thid : Uid} {choice : Choice} (slept : (s.threads thid).slept = true)
    (stepped : threadStep thid s choice = some t)
    : t.callbacks = s.callbacks := by
  cases threadStep_cases stepped with
  | create here =>
      rw [here] at slept
      contradiction
  | _ => rfl

/-- A step of the callback thread keeps to the stages. -/
theorem CallbacksAt.thread (tidy : s.Tidy) (at' : CallbacksAt s s.caller) {thid : Uid}
    {choice : Choice} (creates : Creates s (.thread thid choice))
    (stepped : threadStep thid s choice = some t)
    : CallbacksAt t t.caller := by
  obtain ⟨pc, frame⟩ := threadStep_frame stepped
  obtain ⟨waits, rfl, _⟩ := tidy.threads.current frame.runs.1
  have slept (before : (s.threads s.g.gThid).slept = true)
      : (t.threads t.g.gThid).slept = true := by
    rw [frame.threads, frame.current, Function.update_self]
    exact frame.slept before
  rw [frame.caller]
  cases caller : s.caller <;> rw [caller] at at' waits
  case running | testSleeping | delay => exact StageAt.step at' creates stepped
  case deleteCallback => exact ⟨StageAt.step at'.1 creates stepped, slept at'.2⟩
  case terminateThread => exact ⟨(threadStep_slept at'.2 stepped).trans at'.1, slept at'.2⟩
  all_goals contradiction

/-- So does a step of the caller, if it does not read a flag that is left over. -/
theorem CallbacksAt.caller (at' : CallbacksAt s s.caller) {choice : Choice}
    (fresh : ReadsFresh s (.caller choice)) (stepped : callerStep cleansUp s choice = some t)
    : CallbacksAt t t.caller := by
  cases callerStep_cases stepped with
  | notCreated | notStarted => exact trivial
  | startThread here =>
      rw [here] at at'
      simp only [CallbacksAt, Function.update_self]
      exact at'
  | asleep here flag =>
      have slept := fresh.2 rfl here flag
      rw [here] at at'
      exact ⟨at', slept⟩
  | deleteCallback here =>
      rw [here] at at'
      have only := (at'.1.made at'.2).1.only
      refine ⟨?_, at'.2⟩
      show Function.update s.callbacks s.g.gExitCbid none = noCallbacks
      rw [only, Function.update_idem]
      exact Function.update_eq_self s.g.gExitCbid noCallbacks
  | terminateThread here =>
      rw [here] at at'
      show (if cleansUp then fun id => (s.callbacks id).filter _ else s.callbacks) = noCallbacks
      rw [at'.1]
      split <;> rfl
  | setup here | setUserExitCb here | setUserCommon here | createThread here | setThid here
  | kill here | stillAwake here | delay here | resetCbid here | resetThid here =>
      rw [here] at at'
      exact at'

/-- As long as no wait loop reads a flag that is left over, and the creation of a callback does not
fail, every call of kill_callbacks undoes the matching call of setup_callbacks: in every state of
every run.
-/
theorem kill_undoes_setup (cleansUp : Bool) {s : State}
    (reach : (machine cleansUp).Reachable ReadsFresh s)
    : s.Undoes := by
  have callbacks : CallbacksAt s s.caller := by
    refine System.Reachable.invariant (P := fun s => CallbacksAt s s.caller) reach rfl ?_
    intro s action t earlier at' fresh stepped
    cases action with
    | caller choice => exact at'.caller fresh stepped
    | thread thid choice => exact at'.thread (reachable_tidy earlier) fresh.1 stepped
  constructor
  · intro passed
    rw [passed] at callbacks
    obtain ⟨⟨positive, created, only⟩, registered⟩ := callbacks.1.made callbacks.2
    exact ⟨s.g.gExitCbid, positive, created, by rw [only, Function.update_self], registered, rfl⟩
  · intro idle
    rw [idle] at callbacks
    exact congrFun callbacks

/-- The first cycle up to the end of the wait loop. -/
def firstCycle : List Action :=
  [.caller (.setup 0 0), .caller .go, .caller .go, .caller (.answer 1), .caller .go,
    .caller (.answer 0), .thread 1 (.answer 2), .thread 1 .go, .thread 1 .go, .thread 1 .go,
    .caller .kill, .caller .go]

/-- Witness: in the first cycle the callback that the thread has created is deleted. -/
theorem kill_undoes_first : ∃ s : State, s.caller = .deleteCallback ∧ s.Undoes := by
  have done : ((machine false).run ReadsFresh .loaded firstCycle).any
      (fun s => s.caller = .deleteCallback) = true := by decide
  obtain ⟨s, reach, passed⟩ := System.exists_of_run done
  exact ⟨s, of_decide_eq_true passed, kill_undoes_setup false reach⟩

/-- The cycles that are complete stay complete. -/
theorem step_cycles {action : Action} (stepped : s.step cleansUp action = some t)
    : s.cycles ≤ t.cycles := by
  cases action with
  | thread thid choice =>
      obtain ⟨_, frame⟩ := threadStep_frame stepped
      exact frame.cycles.ge
  | caller choice =>
      cases callerStep_cases stepped with
      | resetThid => exact Nat.le_succ _
      | _ => exact le_rfl

/-- In the first cycle the flag is never left over. -/
theorem first_cycle_fresh (reach : (machine cleansUp).Reachable Creates s) (first : s.cycles = 0)
    : (machine cleansUp).Reachable ReadsFresh s := by
  have all : s.cycles = 0 → (machine cleansUp).Reachable ReadsFresh s := by
    refine System.Reachable.invariant
      (P := fun s => s.cycles = 0 → (machine cleansUp).Reachable ReadsFresh s) reach
      (fun _ => .init) ?_
    intro s action t earlier before creates stepped first
    have still : s.cycles = 0 := Nat.eq_zero_of_le_zero (first ▸ step_cycles stepped)
    refine (before still).step ⟨creates, fun _ caller flag => ?_⟩ stepped
    rcases (reachable_tidy earlier).first flag with later | slept | ended
    · omega
    · exact slept
    · rw [caller] at ended
      contradiction
  exact all first

/-- After every complete cycle there is a continuation in which kill_callbacks passes its wait loop
before the thread of the new cycle has created a callback.
-/
theorem later_cycle_fails (reach : (machine cleansUp).Reachable Creates s)
    (idle : s.caller = .idle) (later : 0 < s.cycles)
    : ∃ t, (machine cleansUp).Path Creates s t ∧ ¬ t.Undoes := by
  have tidy := reachable_tidy reach
  have threads : s.threads = noThreads := by
    have at' := tidy.threads
    rwa [idle] at at'
  have flag := tidy.set (Or.inr later)
  have creates (s : State) (choice : Choice) : Creates s (.caller choice) := trivial
  obtain ⟨g, callbacks, exitCallback, _, _, exited, created, cycles, userCalls⟩ := s
  cases idle
  cases threads
  refine ⟨_, .cons (creates _ (.setup 0 0)) rfl <| .cons (creates _ .go) rfl <|
    .cons (creates _ .go) rfl <| .cons (creates _ (.answer 1)) rfl <|
    .cons (creates _ .go) rfl <| .cons (creates _ (.answer 0)) rfl <|
    .cons (creates _ .kill) rfl <| .single (creates _ .go) rfl, ?_⟩
  intro undoes
  obtain ⟨id, _, made, _⟩ := undoes.passed (if_neg flag)
  contradiction

/-- The first cycle and its end, and a second one whose thread has not run before kill_callbacks.
-/
def secondCycle : List Action :=
  firstCycle
    ++ [.caller .go, .caller .go, .caller .go, .caller .go, .caller (.setup 0 0), .caller .go,
      .caller .go, .caller (.answer 1), .caller .go, .caller (.answer 0), .caller .kill,
      .caller .go]

/-- Counterexample: in the second cycle kill_callbacks passes its wait loop at once, and deletes the
callback -1.
-/
theorem not_kill_undoes
    : ∃ s, (machine false).Reachable Creates s ∧ s.cycles = 1 ∧ s.caller = .deleteCallback
        ∧ s.g.gExitCbid = -1 ∧ s.created = none ∧ ¬ s.Undoes := by
  have done : ((machine false).run Creates .loaded secondCycle).any
      (fun s => s.cycles = 1 ∧ s.caller = .deleteCallback ∧ s.g.gExitCbid = -1
        ∧ s.created = none) = true := by decide
  obtain ⟨s, reach, reached⟩ := System.exists_of_run done
  obtain ⟨second, passed, initial, none⟩ := of_decide_eq_true reached
  refine ⟨s, reach, second, passed, initial, none, fun undoes => ?_⟩
  obtain ⟨id, _, made, _⟩ := undoes.passed passed
  rw [none] at made
  contradiction

end LibKprintf.ExitCb
