import LibKprintf.Foundation.System
import LibKprintf.Model.Basic

/-! The exit callback of cb.c: a caller that sets it up and takes it down again, any number of
times, and the thread that waits for the callback. Both take one memory access or kernel call at a
time.
-/

namespace LibKprintf.ExitCb

/-- The variables of cb.c. A pointer is the number of its address, and `NULL` is 0. -/
structure Globals where
  gUserExitCb : U32
  gUserCommon : U32
  gSleeping : Int
  gExitCbid : Uid
  gThid : Uid

/-- The variables as they are loaded. -/
def Globals.loaded : Globals := ⟨0, 0, 0, -1, -1⟩

/-- The next statement of a callback_thread, and the states of a thread that does not run. -/
inductive ThreadPc
  /-- No thread has this id. -/
  | absent
  /-- Created, not started. -/
  | dormant
  /-- create_callbacks: `sceKernelCreateCallback("exit_cb", exit_callback, NULL)` -/
  | create
  /-- `g_exit_cbid = ret` -/
  | setCbid (ret : Uid)
  /-- `sceKernelRegisterExitCallback(g_exit_cbid)` -/
  | register
  /-- `g_sleeping = 1` -/
  | setSleeping
  /-- `sceKernelSleepThreadCB()` -/
  | sleep
  /-- exit_callback: `if (g_user_exit_cb) g_user_exit_cb(g_user_common)` -/
  | userExit
  /-- `sceKernelExitGame()` -/
  | exitGame
  /-- `sceKernelSleepThread()` -/
  | sleepThread
  deriving DecidableEq, Repr

/-- The next statement of the caller. -/
inductive CallerPc
  /-- Before setup_callbacks, or after kill_callbacks has returned. -/
  | idle
  /-- `g_user_exit_cb = exit_cb_cb` -/
  | setUserExitCb (cb common : U32)
  /-- `g_user_common = common` -/
  | setUserCommon (common : U32)
  /-- `ret = sceKernelCreateThread("cb_thread", callback_thread, ..)` -/
  | createThread
  /-- `g_thid = ret` -/
  | setThid (ret : Uid)
  /-- `return sceKernelStartThread(g_thid, 0, NULL)` -/
  | startThread
  /-- setup_callbacks has failed. -/
  | failed (ret : Int)
  /-- setup_callbacks has returned 0. -/
  | running
  /-- kill_callbacks: `while (!g_sleeping)` -/
  | testSleeping
  /-- `sceKernelDelayThread(1000)` -/
  | delay
  /-- `sceKernelDeleteCallback(g_exit_cbid)` -/
  | deleteCallback
  /-- `sceKernelTerminateDeleteThread(g_thid)` -/
  | terminateThread
  /-- `g_exit_cbid = -1` -/
  | resetCbid
  /-- `g_thid = -1` -/
  | resetThid
  deriving DecidableEq, Repr

/-- The variables, the kernel's objects and the two threads of control. The callbacks are kept with
the threads that created them. What the creation of the callback has answered in this cycle, how
many cycles are complete and what the user's function was called with are history only.
-/
structure State where
  g : Globals
  callbacks : Uid → Option Uid
  exitCallback : Option Uid
  threads : Uid → ThreadPc
  caller : CallerPc
  exited : Bool
  created : Option Uid
  cycles : Nat
  userCalls : List (U32 × U32)

/-- What the environment decides in a step: to call a function, what the kernel answers, or that the
user exits the game.
-/
inductive Choice
  | go
  | setup (cb common : U32)
  | kill
  | answer (ret : Int)
  | exit
  deriving DecidableEq, Repr

/-- Who takes a step. -/
inductive Action
  | caller (choice : Choice)
  | thread (thid : Uid) (choice : Choice)
  deriving DecidableEq, Repr

/-- sceKernelDeleteCallback -/
def State.sceKernelDeleteCallback (s : State) (cbid : Uid) : State :=
  { s with callbacks := Function.update s.callbacks cbid none }

/-- sceKernelTerminateDeleteThread, with the callbacks of the thread if the kernel `cleansUp`. -/
def State.sceKernelTerminateDeleteThread (cleansUp : Bool) (s : State) (thid : Uid) : State :=
  {
    s with
    threads := Function.update s.threads thid .absent
    callbacks :=
      if cleansUp then fun id => (s.callbacks id).filter (· ≠ thid) else s.callbacks
  }

/-- sceKernelRegisterExitCallback, which takes an existing callback only. -/
def State.sceKernelRegisterExitCallback (s : State) (cbid : Uid) : State :=
  { s with exitCallback := if (s.callbacks cbid).isSome then some cbid else s.exitCallback }

/-- A statement that the environment does not decide anything about. -/
def Choice.onGo (choice : Choice) (next : State) : Option State :=
  if choice = .go then some next else none

/-- One step of the caller. -/
def callerStep (cleansUp : Bool) (s : State) (choice : Choice) : Option State :=
  match s.caller with
  | .idle =>
      match choice with
      | .setup cb common => some { s with caller := .setUserExitCb cb common, created := none }
      | _ => none
  | .setUserExitCb cb common =>
      choice.onGo { s with g := { s.g with gUserExitCb := cb }, caller := .setUserCommon common }
  | .setUserCommon common =>
      choice.onGo { s with g := { s.g with gUserCommon := common }, caller := .createThread }
  | .createThread =>
      match choice with
      | .answer ret =>
          if ret < 0 then
            some { s with caller := .failed ret }
          else if 0 < ret ∧ s.threads ret = .absent then
            some
              { s with threads := Function.update s.threads ret .dormant, caller := .setThid ret }
          else
            none
      | _ => none
  | .setThid ret => choice.onGo { s with g := { s.g with gThid := ret }, caller := .startThread }
  | .startThread =>
      match choice with
      | .answer ret =>
          if ret < 0 then
            some { s with caller := .failed ret }
          else if ret = 0 ∧ s.threads s.g.gThid = .dormant then
            some
              { s with threads := Function.update s.threads s.g.gThid .create, caller := .running }
          else
            none
      | _ => none
  | .failed _ => none
  | .running => if choice = .kill then some { s with caller := .testSleeping } else none
  | .testSleeping =>
      choice.onGo { s with caller := if s.g.gSleeping = 0 then .delay else .deleteCallback }
  | .delay => choice.onGo { s with caller := .testSleeping }
  | .deleteCallback =>
      choice.onGo { s.sceKernelDeleteCallback s.g.gExitCbid with caller := .terminateThread }
  | .terminateThread =>
      choice.onGo { s.sceKernelTerminateDeleteThread cleansUp s.g.gThid with caller := .resetCbid }
  | .resetCbid => choice.onGo { s with g := { s.g with gExitCbid := -1 }, caller := .resetThid }
  | .resetThid =>
      choice.onGo
        { s with g := { s.g with gThid := -1 }, caller := .idle, cycles := s.cycles + 1 }

/-- The next statement of a thread. -/
def State.setThread (s : State) (thid : Uid) (pc : ThreadPc) : State :=
  { s with threads := Function.update s.threads thid pc }

/-- One step of the callback thread `thid`. -/
def threadStep (thid : Uid) (s : State) (choice : Choice) : Option State :=
  match s.threads thid with
  | .absent | .dormant | .sleepThread => none
  | .create =>
      match choice with
      | .answer ret =>
          if ret < 0 then
            some (s.setThread thid (.setCbid ret))
          else if 0 < ret ∧ s.callbacks ret = none then
            let s :=
              {
                s with
                callbacks := Function.update s.callbacks ret (some thid)
                created := some ret
              }
            some (s.setThread thid (.setCbid ret))
          else
            none
      | _ => none
  | .setCbid ret =>
      choice.onGo (State.setThread { s with g := { s.g with gExitCbid := ret } } thid .register)
  | .register =>
      choice.onGo
        ((s.sceKernelRegisterExitCallback s.g.gExitCbid).setThread thid .setSleeping)
  | .setSleeping =>
      choice.onGo (State.setThread { s with g := { s.g with gSleeping := 1 } } thid .sleep)
  | .sleep =>
      if choice = .exit ∧ s.exitCallback.bind s.callbacks = some thid then
        some (s.setThread thid .userExit)
      else
        none
  | .userExit =>
      let calls := if s.g.gUserExitCb ≠ 0 then [(s.g.gUserExitCb, s.g.gUserCommon)] else []
      choice.onGo (State.setThread { s with userCalls := s.userCalls ++ calls } thid .exitGame)
  | .exitGame => choice.onGo (State.setThread { s with exited := true } thid .sleepThread)

/-- One step of the system. -/
def State.step (cleansUp : Bool) (s : State) : Action → Option State
  | .caller choice => callerStep cleansUp s choice
  | .thread thid choice => threadStep thid s choice

/-- The state before the first call. -/
def State.loaded : State where
  g := .loaded
  callbacks := fun _ => none
  exitCallback := none
  threads := fun _ => .absent
  caller := .idle
  exited := false
  created := none
  cycles := 0
  userCalls := []

/-- The caller and the callback threads, for a kernel that deletes the callbacks of a thread
together with the thread, or not.
-/
def machine (cleansUp : Bool) : Foundation.System State Action := ⟨.loaded, State.step cleansUp⟩

/-- What a step of the caller can come to. -/
inductive State.CallerCase (cleansUp : Bool) (s : State) : Choice → State → Prop
  | setup {cb common} (here : s.caller = .idle)
    : s.CallerCase cleansUp (.setup cb common)
        { s with caller := .setUserExitCb cb common, created := none }
  | setUserExitCb {cb common} (here : s.caller = .setUserExitCb cb common)
    : s.CallerCase cleansUp .go
        { s with g := { s.g with gUserExitCb := cb }, caller := .setUserCommon common }
  | setUserCommon {common} (here : s.caller = .setUserCommon common)
    : s.CallerCase cleansUp .go
        { s with g := { s.g with gUserCommon := common }, caller := .createThread }
  | notCreated {ret} (here : s.caller = .createThread) (negative : ret < 0)
    : s.CallerCase cleansUp (.answer ret) { s with caller := .failed ret }
  | createThread {ret} (here : s.caller = .createThread) (positive : 0 < ret)
    (unused : s.threads ret = .absent)
    : s.CallerCase cleansUp (.answer ret)
        { s with threads := Function.update s.threads ret .dormant, caller := .setThid ret }
  | setThid {ret} (here : s.caller = .setThid ret)
    : s.CallerCase cleansUp .go { s with g := { s.g with gThid := ret }, caller := .startThread }
  | notStarted {ret} (here : s.caller = .startThread) (negative : ret < 0)
    : s.CallerCase cleansUp (.answer ret) { s with caller := .failed ret }
  | startThread (here : s.caller = .startThread) (dormant : s.threads s.g.gThid = .dormant)
    : s.CallerCase cleansUp (.answer 0)
        { s with threads := Function.update s.threads s.g.gThid .create, caller := .running }
  | kill (here : s.caller = .running)
    : s.CallerCase cleansUp .kill { s with caller := .testSleeping }
  | stillAwake (here : s.caller = .testSleeping) (unset : s.g.gSleeping = 0)
    : s.CallerCase cleansUp .go { s with caller := .delay }
  | asleep (here : s.caller = .testSleeping) (set : s.g.gSleeping ≠ 0)
    : s.CallerCase cleansUp .go { s with caller := .deleteCallback }
  | delay (here : s.caller = .delay)
    : s.CallerCase cleansUp .go { s with caller := .testSleeping }
  | deleteCallback (here : s.caller = .deleteCallback)
    : s.CallerCase cleansUp .go
        { s.sceKernelDeleteCallback s.g.gExitCbid with caller := .terminateThread }
  | terminateThread (here : s.caller = .terminateThread)
    : s.CallerCase cleansUp .go
        { s.sceKernelTerminateDeleteThread cleansUp s.g.gThid with caller := .resetCbid }
  | resetCbid (here : s.caller = .resetCbid)
    : s.CallerCase cleansUp .go { s with g := { s.g with gExitCbid := -1 }, caller := .resetThid }
  | resetThid (here : s.caller = .resetThid)
    : s.CallerCase cleansUp .go
        { s with g := { s.g with gThid := -1 }, caller := .idle, cycles := s.cycles + 1 }

/-- A statement that the environment does not decide anything about goes on by itself. -/
theorem Choice.onGo_eq_some {choice : Choice} {next t : State}
    : choice.onGo next = some t ↔ choice = .go ∧ next = t := by
  unfold Choice.onGo
  split_ifs with go <;> simp [go]

/-- Every step of the caller is one of the cases, by its statement. -/
theorem callerStep_cases {cleansUp : Bool} {s t : State} {choice : Choice}
    (stepped : callerStep cleansUp s choice = some t)
    : s.CallerCase cleansUp choice t := by
  unfold callerStep at stepped
  cases here : s.caller <;> simp only [here, Choice.onGo_eq_some] at stepped
  case idle =>
    split at stepped
    · cases stepped
      exact .setup here
    · contradiction
  case createThread =>
    split at stepped
    · split_ifs at stepped with negative existing
      · cases stepped
        exact .notCreated here negative
      · cases stepped
        exact .createThread here existing.1 existing.2
    · contradiction
  case startThread =>
    split at stepped
    · split_ifs at stepped with negative started
      · cases stepped
        exact .notStarted here negative
      · cases stepped
        exact started.1 ▸ .startThread here started.2
    · contradiction
  case failed => contradiction
  case running =>
    split_ifs at stepped with kill
    cases stepped
    exact kill ▸ .kill here
  case testSleeping =>
    obtain ⟨rfl, rfl⟩ := stepped
    split_ifs with unset
    · exact .stillAwake here unset
    · exact .asleep here unset
  all_goals obtain ⟨rfl, rfl⟩ := stepped
  case setUserExitCb => exact .setUserExitCb here
  case setUserCommon => exact .setUserCommon here
  case setThid => exact .setThid here
  case delay => exact .delay here
  case deleteCallback => exact .deleteCallback here
  case terminateThread => exact .terminateThread here
  case resetCbid => exact .resetCbid here
  case resetThid => exact .resetThid here

/-- What a step of the callback thread `thid` can come to. -/
inductive State.ThreadCase (thid : Uid) (s : State) : Choice → State → Prop
  | notCreated {ret} (here : s.threads thid = .create) (negative : ret < 0)
    : s.ThreadCase thid (.answer ret) (s.setThread thid (.setCbid ret))
  | create {ret} (here : s.threads thid = .create) (positive : 0 < ret)
    (unused : s.callbacks ret = none)
    : s.ThreadCase thid (.answer ret)
        (State.setThread
          { s with
            callbacks := Function.update s.callbacks ret (some thid), created := some ret }
          thid (.setCbid ret))
  | setCbid {ret} (here : s.threads thid = .setCbid ret)
    : s.ThreadCase thid .go
        (State.setThread { s with g := { s.g with gExitCbid := ret } } thid .register)
  | register (here : s.threads thid = .register)
    : s.ThreadCase thid .go
        ((s.sceKernelRegisterExitCallback s.g.gExitCbid).setThread thid .setSleeping)
  | setSleeping (here : s.threads thid = .setSleeping)
    : s.ThreadCase thid .go
        (State.setThread { s with g := { s.g with gSleeping := 1 } } thid .sleep)
  | wakeUp (here : s.threads thid = .sleep)
    (notified : s.exitCallback.bind s.callbacks = some thid)
    : s.ThreadCase thid .exit (s.setThread thid .userExit)
  | userExit {calls} (here : s.threads thid = .userExit)
    : s.ThreadCase thid .go
        (State.setThread { s with userCalls := s.userCalls ++ calls } thid .exitGame)
  | exitGame (here : s.threads thid = .exitGame)
    : s.ThreadCase thid .go (State.setThread { s with exited := true } thid .sleepThread)

/-- Every step of a callback thread is one of the cases, by its statement. -/
theorem threadStep_cases {thid : Uid} {s t : State} {choice : Choice}
    (stepped : threadStep thid s choice = some t)
    : s.ThreadCase thid choice t := by
  unfold threadStep at stepped
  cases here : s.threads thid <;> simp only [here, Choice.onGo_eq_some] at stepped
  case absent | dormant | sleepThread => contradiction
  case create =>
    split at stepped
    · split_ifs at stepped with negative existing
      · cases stepped
        exact .notCreated here negative
      · cases stepped
        exact .create here existing.1 existing.2
    · contradiction
  case sleep =>
    split_ifs at stepped with exits
    cases stepped
    exact exits.1 ▸ .wakeUp here exits.2
  all_goals obtain ⟨rfl, rfl⟩ := stepped
  case setCbid => exact .setCbid here
  case register => exact .register here
  case setSleeping => exact .setSleeping here
  case userExit => exact .userExit here
  case exitGame => exact .exitGame here

end LibKprintf.ExitCb
