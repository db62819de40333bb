import LibKprintf.Model.Message

/-! The handler table and the Kprintf handler of handler.c, as sequential code. The results
of kernel calls are arguments.
-/

namespace LibKprintf

variable {cfg : Config}

/-- The callback in a slot; `none` also outside the table. -/
def Globals.callbackAt (g : Globals cfg) (i : Nat) : Option Callback :=
  g.gHandlers[i]?.bind RegHandler.cb

/-- find_free_handler_index; its -1 is `none`. -/
def findFreeHandlerIndex (g : Globals cfg) : Option Nat :=
  (List.range cfg.kprintfMaxHandlers).find? (fun i => g.callbackAt i = none)

/-- Store a callback in a slot. -/
def Globals.setCb (g : Globals cfg) (i : Nat) (cb : Option Callback) : Globals cfg :=
  { g with
    gHandlers :=
      g.gHandlers.setIfInBounds i { (g.gHandlers[i]?).getD .empty with cb := cb } }

/-- Store an argument in a slot. -/
def Globals.setArg (g : Globals cfg) (i : Nat) (arg : U32) : Globals cfg :=
  { g with
    gHandlers :=
      g.gHandlers.setIfInBounds i { (g.gHandlers[i]?).getD .empty with arg := arg } }

/-- register_handler between its two semaphore calls: the new globals and `ret`. -/
def registerLocked (g : Globals cfg) (cb : Callback) (arg : U32) (isDefaultHandler : Bool)
    : Globals cfg × Int :=
  if isDefaultHandler ∧ g.gDefaultHandlerIndex ≥ 0 then
    (g, g.gDefaultHandlerIndex)
  else if g.gHandlerCount.toNat ≥ cfg.kprintfMaxHandlers then
    (g, kprintfErrMaxHandlers)
  else
    match findFreeHandlerIndex g with
    | none => (g, kprintfErrMaxHandlers)
    | some index =>
        let g := if isDefaultHandler then { g with gDefaultHandlerIndex := index } else g
        let g := (g.setCb index (some cb)).setArg index arg
        ({ g with gHandlerCount := g.gHandlerCount + 1 }, index)

/-- register_handler, for what the semaphore calls answer. -/
def registerHandler (g : Globals cfg) (wait signal : Int) (cb : Option Callback) (arg : U32)
    (isDefaultHandler : Bool)
    : Globals cfg × Int :=
  if g.gState ≠ .started then
    (g, kprintfErrNotStarted)
  else
    match cb with
    | none => (g, kprintfErrInvalidArgument)
    | some cb =>
        if wait < 0 then
          (g, wait)
        else
          let (g, ret) := registerLocked g cb arg isDefaultHandler
          (g, if signal < 0 then signal else ret)

/-- register_default_handler, without its message. -/
def registerDefaultHandler (g : Globals cfg) (wait signal : Int) : Globals cfg × Int :=
  registerHandler g wait signal (some .defaultFileHandler) (BitVec.ofInt 32 g.gStdout) true

/-- unregister_handler between its two semaphore calls. -/
def unregisterLocked (g : Globals cfg) (index : Int) : Globals cfg × Int :=
  if index < 0 ∨ index ≥ cfg.kprintfMaxHandlers then
    (g, kprintfErrInvalidIndex)
  else if g.callbackAt index.toNat = none then
    (g, kprintfErrNoHandler)
  else
    let g := if index = g.gDefaultHandlerIndex then { g with gDefaultHandlerIndex := -1 } else g
    let g := (g.setCb index.toNat none).setArg index.toNat 0
    ({ g with gHandlerCount := g.gHandlerCount - 1 }, 0)

/-- unregister_handler, for what the semaphore calls answer. -/
def unregisterHandler (g : Globals cfg) (wait signal : Int) (index : Int) : Globals cfg × Int :=
  if g.gState ≠ .started then
    (g, kprintfErrNotStarted)
  else if wait < 0 then
    (g, wait)
  else
    let (g, ret) := unregisterLocked g index
    (g, if signal < 0 then signal else ret)

/-- What one Kprintf call brings along: the caller's mode, what vsnprintf answers and leaves
in the buffer, and what the allocator answers.
-/
structure KprintfCall (cfg : Config) where
  isUser : Int
  len : U32
  buf : Vector Byte cfg.kprintfBufsz
  answer : Except Int Addr

/-- kprintf_handler: the new shared state and what Kprintf returns. The test of `len`
compares it once as an `int` and once, with `sizeof(buf)`, as an unsigned number.
-/
def kprintfHandler (sh : Shared cfg) (call : KprintfCall cfg) : Option (Shared cfg × Int) :=
  if sh.g.gState ≠ .started then
    some (sh, 0)
  else if call.len.toInt ≤ 0 ∨ call.len.toNat ≥ cfg.kprintfBufsz then
    some (sh, 0)
  else do
    match ← newMsg sh call.buf.toList call.len call.isUser call.answer with
    | (sh, .error code) => return (sh, code)
    | (sh, .ok m) =>
        let block := sh.k.mem.block m
        let sh ← addMsg sh m
        let sh := sh.setEventFlag evFlush
        return (sh.note (.accepted block.stamp block.msg.toMsgBody), call.len.toInt)

/-- A call of Kprintf (or sceKernelPrintf): with interrupts disabled the kernel runs the
registered handler, which is the library's only while the hook says so.
-/
def kprintf (sh : Shared cfg) (call : KprintfCall cfg) : StepResult (Shared cfg) :=
  if sh.k.hook = .kprintfHandler ∧ sh.k.MayAllocate sh.g.gVplid call.answer then
    (StepResult.ofMemory (kprintfHandler sh call)).map Prod.fst
  else
    .disabled

end LibKprintf
