import LibKprintf.Model.Handler

/-! The exported functions of api.c, and the functions of handler.c behind them, one memory
access or kernel call at a time. Clients, init, the event thread's start-up and handler
callbacks all run this one program.
-/

namespace LibKprintf

variable {cfg : Config}

/-- What the environment decides about a thread's next step. -/
inductive Choice (cfg : Config)
  /-- The plain step, or the success of a kernel call. -/
  | go
  /-- A kernel call fails with this code. -/
  | fail (code : Int)
  /-- A kernel call answers this id. -/
  | answer (id : Uid)
  /-- Whether sceKernelFindModuleByName finds the module. -/
  | found (found : Bool)
  /-- What happens inside a Kprintf call. -/
  | kprintf (during : KprintfCall cfg)
  /-- A callback returns, with the length and the text it leaves in the message. -/
  | ret (res : Int) (len : U16) (msg : List Byte)
  /-- A client, or a callback, calls an exported function. -/
  | call (call : ApiCall)
  /-- The module manager calls _start. -/
  | start
  /-- The module manager calls _stop. -/
  | stop

namespace Choice

/-- A step that only `go` takes. -/
def onGo {α : Type} (choice : Choice cfg) (result : StepResult α) : StepResult α :=
  match choice with
  | .go => result
  | _ => .disabled

/-- A kernel call that succeeds, if it can, or fails with some negative code. -/
def onKernel {α : Type} (choice : Choice cfg) (success : StepResult α) (failure : Int → α)
    : StepResult α :=
  match choice with
  | .go => success
  | .fail code => if code < 0 then .next (failure code) else .disabled
  | _ => .disabled

/-- A Kprintf call of the library itself: it may reach the library's handler or not. -/
def onKprintf (choice : Choice cfg) (sh : Shared cfg) : StepResult (Shared cfg) :=
  match choice with
  | .go => .next sh
  | .kprintf during => LibKprintf.kprintf sh during
  | _ => .disabled

variable {α : Type} {choice : Choice cfg}

@[simp] theorem onGo_eq_next {result : StepResult α} {a : α}
    : choice.onGo result = .next a ↔ choice = .go ∧ result = .next a := by
  cases choice <;> simp [onGo]

@[simp] theorem onGo_eq_fault {result : StepResult α}
    : choice.onGo result = .fault ↔ choice = .go ∧ result = .fault := by
  cases choice <;> simp [onGo]

@[simp] theorem onKernel_eq_next {success : StepResult α} {failure : Int → α} {a : α}
    : choice.onKernel success failure = .next a
      ↔ (choice = .go ∧ success = .next a)
        ∨ ∃ code < 0, choice = .fail code ∧ failure code = a := by
  cases choice with
  | fail code => by_cases negative : code < 0 <;> simp [onKernel, negative]
  | _ => simp [onKernel]

@[simp] theorem onKernel_eq_fault {success : StepResult α} {failure : Int → α}
    : choice.onKernel success failure = .fault ↔ choice = .go ∧ success = .fault := by
  cases choice with
  | fail code => by_cases negative : code < 0 <;> simp [onKernel, negative]
  | _ => simp [onKernel]

@[simp] theorem onKprintf_eq_next {sh sh' : Shared cfg}
    : choice.onKprintf sh = .next sh'
      ↔ (choice = .go ∧ sh = sh')
        ∨ ∃ during, choice = .kprintf during ∧ LibKprintf.kprintf sh during = .next sh' := by
  cases choice <;> simp [onKprintf]

@[simp] theorem onKprintf_eq_fault {sh : Shared cfg}
    : choice.onKprintf sh = .fault
      ↔ ∃ during, choice = .kprintf during ∧ LibKprintf.kprintf sh during = .fault := by
  cases choice <;> simp [onKprintf]

end Choice

/-- The arguments of register_handler, past its NULL test. -/
structure RegArgs where
  cb : Callback
  arg : U32
  isDefaultHandler : Bool
  deriving DecidableEq, Repr

/-- The next statement of a running API function. -/
inductive ApiPc
  /-- register_handler: `sceKernelWaitSema(g_semid, 1, NULL)`, `g_semid` already read. -/
  | regWait (args : RegArgs) (semid : Uid)
  /-- `if (is_default_handler && g_default_handler_index >= 0) goto end` -/
  | regTestDefault (args : RegArgs)
  /-- `if (g_handler_count >= KPRINTF_MAX_HANDLERS) goto end` -/
  | regTestCount (args : RegArgs)
  /-- The loop of find_free_handler_index at slot `i`. -/
  | regFind (args : RegArgs) (i : Nat)
  /-- `if (is_default_handler) g_default_handler_index = index` -/
  | regSetDefault (args : RegArgs) (index : Nat)
  /-- `g_handlers[index].cb = cb` -/
  | regSetCb (args : RegArgs) (index : Nat)
  /-- `g_handlers[index].arg = arg` -/
  | regSetArg (args : RegArgs) (index : Nat)
  /-- `g_handler_count++` -/
  | regCount (args : RegArgs) (index : Nat)
  /-- unregister_handler: `sceKernelWaitSema(g_semid, 1, NULL)`. -/
  | unregWait (index : Int) (semid : Uid)
  /-- `if (index < 0 || index >= KPRINTF_MAX_HANDLERS) goto end` -/
  | unregTestIndex (index : Int)
  /-- `if (g_handlers[index].cb == NULL) goto end` -/
  | unregTestCb (index : Nat)
  /-- `if (index == g_default_handler_index) g_default_handler_index = -1` -/
  | unregDefault (index : Nat)
  /-- `g_handlers[index].cb = NULL` -/
  | unregClearCb (index : Nat)
  /-- `g_handlers[index].arg = 0` -/
  | unregClearArg (index : Nat)
  /-- `g_handler_count--` -/
  | unregCount
  /-- `end:` of both: `sceKernelSignalSema(g_semid, 1)`, then the choice of the result. -/
  | signal (isDefaultHandler : Bool) (ret : Int)
  /-- register_default_handler: the KPRINTF after the result 0. -/
  | announce
  /-- install_kernel_handler: `sceKernelDipswSet(56)`. -/
  | dipsw
  /-- `sceKernelRegisterKprintfHandler(kprintf_handler, NULL)` -/
  | registerHook
  /-- About to return. -/
  | done (ret : Int)
  deriving DecidableEq, Repr

/-- register_handler up to its semaphore call. -/
def registerEntry (sh : Shared cfg) (cb : Option Callback) (arg : U32) (isDefaultHandler : Bool)
    : ApiPc :=
  if sh.g.gState ≠ .started then
    .done kprintfErrNotStarted
  else
    match cb with
    | none => .done kprintfErrInvalidArgument
    | some cb => .regWait ⟨cb, arg, isDefaultHandler⟩ sh.g.gSemid

/-- Entering an exported function: what it does before its first kernel call reads `g_state`
and its arguments only.
-/
def apiEntry (sh : Shared cfg) : ApiCall → ApiPc
  | .registerHandler cb arg => registerEntry sh cb arg false
  | .registerDefaultHandler =>
      registerEntry sh (some .defaultFileHandler) (BitVec.ofInt 32 sh.g.gStdout) true
  | .unregisterHandler index =>
      if sh.g.gState ≠ .started then
        .done kprintfErrNotStarted
      else
        .unregWait index sh.g.gSemid
  | .install => .dipsw
  | .isStarted => .done (if sh.g.gState = .started then 1 else 0)

/-- What follows a register_handler call that answered `ret`. -/
def afterRegister (isDefaultHandler : Bool) (ret : Int) : ApiPc :=
  if isDefaultHandler ∧ ret = 0 then .announce else .done ret

/-- One step of an API function run by `thread`. The caller handles its return. -/
def apiStep (thread : ThreadRef) (sh : Shared cfg) (pc : ApiPc) (choice : Choice cfg)
    : StepResult (Shared cfg × ApiPc) :=
  match pc with
  | .regWait args semid =>
      choice.onKernel
        ((StepResult.ofBlocking (sh.k.takeSema semid thread)).map
          (fun k => ({ sh with k := k }, .regTestDefault args)))
        (fun code => (sh, afterRegister args.isDefaultHandler code))
  | .regTestDefault args =>
      choice.onGo <| .next <|
        if args.isDefaultHandler ∧ sh.g.gDefaultHandlerIndex ≥ 0 then
          (sh, .signal args.isDefaultHandler sh.g.gDefaultHandlerIndex)
        else
          (sh, .regTestCount args)
  | .regTestCount args =>
      choice.onGo <| .next <|
        if sh.g.gHandlerCount.toNat ≥ cfg.kprintfMaxHandlers then
          (sh, .signal args.isDefaultHandler kprintfErrMaxHandlers)
        else
          (sh, .regFind args 0)
  | .regFind args i =>
      choice.onGo <| .next <|
        if i < cfg.kprintfMaxHandlers then
          if sh.g.callbackAt i = none then
            (sh, .regSetDefault args i)
          else
            (sh, .regFind args (i + 1))
        else
          (sh, .signal args.isDefaultHandler kprintfErrMaxHandlers)
  | .regSetDefault args index =>
      choice.onGo <| .next <|
        if args.isDefaultHandler then
          ({ sh with g := { sh.g with gDefaultHandlerIndex := index } }, .regSetCb args index)
        else
          (sh, .regSetCb args index)
  | .regSetCb args index =>
      choice.onGo <| .next
        ({ sh with g := sh.g.setCb index (some args.cb) }, .regSetArg args index)
  | .regSetArg args index =>
      choice.onGo <| .next
        ({ sh with g := sh.g.setArg index args.arg }.note
            (.stored thread index args.cb args.arg),
          .regCount args index)
  | .regCount args index =>
      choice.onGo <| .next
        ({ sh with g := { sh.g with gHandlerCount := sh.g.gHandlerCount + 1 } },
          .signal args.isDefaultHandler index)
  | .unregWait index semid =>
      choice.onKernel
        ((StepResult.ofBlocking (sh.k.takeSema semid thread)).map
          (fun k => ({ sh with k := k }, .unregTestIndex index)))
        (fun code => (sh, .done code))
  | .unregTestIndex index =>
      choice.onGo <| .next <|
        if index < 0 ∨ index ≥ cfg.kprintfMaxHandlers then
          (sh, .signal false kprintfErrInvalidIndex)
        else
          (sh, .unregTestCb index.toNat)
  | .unregTestCb index =>
      choice.onGo <| .next <|
        if sh.g.callbackAt index = none then
          (sh, .signal false kprintfErrNoHandler)
        else
          (sh, .unregDefault index)
  | .unregDefault index =>
      choice.onGo <| .next <|
        if index = sh.g.gDefaultHandlerIndex then
          ({ sh with g := { sh.g with gDefaultHandlerIndex := -1 } }, .unregClearCb index)
        else
          (sh, .unregClearCb index)
  | .unregClearCb index =>
      choice.onGo <| .next
        ({ sh with g := sh.g.setCb index none }.note (.cleared thread index),
          .unregClearArg index)
  | .unregClearArg index =>
      choice.onGo <| .next ({ sh with g := sh.g.setArg index 0 }, .unregCount)
  | .unregCount =>
      choice.onGo <| .next
        ({ sh with g := { sh.g with gHandlerCount := sh.g.gHandlerCount - 1 } }, .signal false 0)
  | .signal isDefaultHandler ret =>
      let (k, sret) := sh.k.sceKernelSignalSema sh.g.gSemid
      choice.onGo <| .next
        ({ sh with k := k }, afterRegister isDefaultHandler (if sret < 0 then sret else ret))
  | .announce => (choice.onKprintf sh).map (fun sh => (sh, .done 0))
  | .dipsw =>
      choice.onKernel (.next (sh, .registerHook)) (fun code => (sh, .done code))
  | .registerHook =>
      choice.onGo <| .next ({ sh with k := { sh.k with hook := .kprintfHandler } }, .done 0)
  | .done _ => .disabled

/-- One step of a running API call; it answers no program point when the call returns. -/
def apiCallStep (thread : ThreadRef) (call : ApiCall) (sh : Shared cfg) (api : ApiPc)
    (choice : Choice cfg)
    : StepResult (Shared cfg × Option ApiPc) :=
  match api with
  | .done ret => choice.onGo <| .next (sh.note (.answered thread call ret), none)
  | api => (apiStep thread sh api choice).map (fun (sh, api) => (sh, some api))

end LibKprintf
