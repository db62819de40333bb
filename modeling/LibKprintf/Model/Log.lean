import LibKprintf.Model.Basic

/-! The log of log.c: a table of handlers, to which log_printf passes its messages. A handler is
client code that does not call the log itself.
-/

namespace LibKprintf.Log

/-- The settings that log.c is compiled with. -/
structure LogConfig where
  logMaxHandlers : Nat
  logVsnprintfBufsz : Nat
  maxHandlers_fits : logMaxHandlers < 2 ^ 31
  bufsz_fits : logVsnprintfBufsz < 2 ^ 31

/-- The settings that log.c defines if nobody else does. -/
def LogConfig.default : LogConfig where
  logMaxHandlers := 5
  logVsnprintfBufsz := 512
  maxHandlers_fits := by decide
  bufsz_fits := by decide

/-- `log_handler_t`. A pointer is the number of its address, and `NULL` is 0. -/
structure LogHandler where
  cb : U32
  flush : U32
  arg : U32
  deriving DecidableEq, Repr

variable {cfg : LogConfig}

/-- The variables of log.c. -/
structure Globals (cfg : LogConfig) where
  gHandlers : Vector LogHandler cfg.logMaxHandlers
  gHandlerCount : U32

/-- The variables as they are loaded. -/
def Globals.loaded (cfg : LogConfig) : Globals cfg where
  gHandlers := .replicate _ ⟨0, 0, 0⟩
  gHandlerCount := 0

/-- `g_handlers[i]` -/
def Globals.handlerAt (g : Globals cfg) (i : Nat) : Option LogHandler := g.gHandlers[i]?

/-- `g_handlers[i].cb == NULL` -/
def Globals.free (g : Globals cfg) (i : Nat) : Bool :=
  (g.handlerAt i).all (fun handler => handler.cb = 0)

/-- Store a handler in a slot. -/
def Globals.setHandler (g : Globals cfg) (i : Nat) (handler : LogHandler) : Globals cfg :=
  { g with gHandlers := g.gHandlers.setIfInBounds i handler }

/-- find_free_handler_index -/
def findFreeHandlerIndex (g : Globals cfg) : Int :=
  match (List.range cfg.logMaxHandlers).find? g.free with
  | some i => i
  | none => -1

/-- log_register_handler: the new variables and what it returns. -/
def logRegisterHandler (g : Globals cfg) (cb flush arg : U32) : Globals cfg × Int :=
  if cb = 0 then
    (g, -1)
  else if g.gHandlerCount.toNat ≥ cfg.logMaxHandlers then
    (g, -2)
  else
    let index := findFreeHandlerIndex g
    if index < 0 then
      (g, -3)
    else
      let g := g.setHandler index.toNat ⟨cb, flush, arg⟩
      ({ g with gHandlerCount := g.gHandlerCount + 1 }, index)

/-- log_unregister_handler, which leaves the `flush` member as it is. -/
def logUnregisterHandler (g : Globals cfg) (index : Int) : Globals cfg × Int :=
  if index < 0 ∨ index ≥ cfg.logMaxHandlers then
    (g, -1)
  else if g.free index.toNat then
    (g, -2)
  else
    let handler := (g.handlerAt index.toNat).getD ⟨0, 0, 0⟩
    let g := g.setHandler index.toNat { handler with cb := 0, arg := 0 }
    ({ g with gHandlerCount := g.gHandlerCount - 1 }, 0)

/-- vsnprintf, for the text that a format and its arguments come to, or the code of an error: what
it returns and what it writes to a buffer of `size` bytes.
-/
def vsnprintf (size : Nat) : Except Int (List Byte) → Int × List Byte
  | .error code => (code, [])
  | .ok text =>
      if text.length < 2 ^ 31 then
        (text.length, (text.take (size - 1) ++ [0]).take size)
      else
        (-1, [])

/-- A call of the handler in a slot: `cb(msg, msglen, arg)`. -/
structure HandlerCall where
  slot : Nat
  cb : U32
  msg : List Byte
  msglen : U32
  arg : U32
  deriving DecidableEq, Repr

/-- What a call of log_printf does: whether it calls vsnprintf, and which handlers it calls. -/
structure PrintfRun where
  formats : Bool
  calls : List HandlerCall
  ret : Int
  deriving DecidableEq, Repr

/-- log_printf -/
def logPrintf (g : Globals cfg) (formatted : Except Int (List Byte)) : PrintfRun :=
  if g.gHandlerCount = 0 then
    ⟨false, [], 0⟩
  else
    let (len, buf) := vsnprintf cfg.logVsnprintfBufsz formatted
    if len ≤ 0 ∨ len ≥ cfg.logVsnprintfBufsz then
      ⟨true, [], 0⟩
    else
      let calls :=
        (List.range cfg.logMaxHandlers).filterMap fun i =>
          match g.handlerAt i with
          | some handler =>
              if handler.cb ≠ 0 then
                some ⟨i, handler.cb, buf, BitVec.ofInt 32 len, handler.arg⟩
              else
                none
          | none => none
      ⟨true, calls, len⟩

/-- A call of the flush function in a slot: `flush(arg)`. -/
structure FlushCall where
  slot : Nat
  flush : U32
  arg : U32
  deriving DecidableEq, Repr

/-- log_flush: the calls that it makes. The loop ends at the number of handlers, not at the number
of slots, and it does not look at `cb`.
-/
def logFlush (g : Globals cfg) : List FlushCall :=
  (List.range g.gHandlerCount.toNat).filterMap fun i =>
    match g.handlerAt i with
    | some handler =>
        if handler.flush ≠ 0 then some ⟨i, handler.flush, handler.arg⟩ else none
    | none => none

/-- A call of one of the functions that change the table. -/
inductive LogCall
  | register (cb flush arg : U32)
  | unregister (index : Int)
  deriving DecidableEq, Repr

/-- The call as the code runs it. -/
def LogCall.run (g : Globals cfg) : LogCall → Globals cfg × Int
  | .register cb flush arg => logRegisterHandler g cb flush arg
  | .unregister index => logUnregisterHandler g index

/-- A sequence of calls, from the empty table on. -/
def runLog (cfg : LogConfig) (calls : List LogCall) : Globals cfg :=
  calls.foldl (fun g call => (call.run g).1) (.loaded cfg)

end LibKprintf.Log
